import Kpacket.Progress

/-!
# Calls return

A call of `PublishPacket` waits for nothing but the two mutexes, and a thread that holds one is one
or two steps from giving it back, none of which uses a socket (`Worker.freed`). So every call
returns if its thread is scheduled fairly, however slow the sockets are and whatever the owner does
(`call_returns`). A mutex does not hand itself over: weak fairness is not enough (`starves`).
-/

namespace Kpacket

open Lts

/-- The number of steps to the end of a call. -/
def CallerPc.rank : CallerPc → Nat
  | .idle => 0
  | .enqueueing _ => 1
  | .admitting _ => 2
  | .filtering _ => 3
  | .checkSocket _ => 4
  | .checkRunning _ => 5

/-- Thread `i` goes on with its call. -/
def Label.continues (i : Nat) : Label → Prop
  | .caller j e => j = i ∧ ∀ packet, e ≠ .call packet
  | _ => False

/-- The worker that has its mutex before the step. -/
def Label.locked? : Label → Option Worker
  | .publisher .check | .publisher .empty | .publisher (.pop _) => some .publisher
  | .reliable .empty | .reliable (.pop _) => some .reliable
  | _ => none

namespace System

variable {env : Env} {s s' : System} {r : ZmqRelay}

theorem step_of_publisher {e : PublisherEvent} (hc : s.crashed = false)
    (h : s.relay.publisherStep env e = some r) :
    step env s (.publisher e) = some { s with relay := r } := by
  rw [step, if_neg (by simp [hc])]
  exact congrArg (Option.map _) h

theorem step_of_reliable {e : ReliableEvent} (hc : s.crashed = false)
    (h : s.relay.reliableStep env e = some r) :
    step env s (.reliable e) = some { s with relay := r } := by
  rw [step, if_neg (by simp [hc])]
  exact congrArg (Option.map _) h

theorem step_of_caller {i : Nat} {e : CallerEvent} (hc : s.crashed = false)
    (h : s.callerStep env i e = some s') : step env s (.caller i e) = some s' := by
  rw [step, if_neg (by simp [hc])]
  exact h

end System

namespace Worker

variable {env : Env} {r r' : ZmqRelay} {s s' : System} {l : Label} {w : Worker}

/-- The number of steps until the worker gives its mutex back; zero if it does not hold it. -/
def lockRank (r : ZmqRelay) : Worker → Nat
  | publisher =>
    if r.pubThread = some .woken then 2 else if r.pubThread = some .holding then 1 else 0
  | reliable => if r.pushThread = some .holding then 1 else 0
  | command => 0

theorem publishMutexFree_iff :
    System.publishMutexFree r = true ↔ lockRank r publisher = 0 := by
  by_cases h : r.pubThread = some .woken
  · simp [System.publishMutexFree, lockRank, h]
  · by_cases h' : r.pubThread = some .holding <;> simp [System.publishMutexFree, lockRank, h, h']

theorem queueMutexFree_iff : System.queueMutexFree r = true ↔ lockRank r reliable = 0 := by
  by_cases h : r.pushThread = some .holding <;> simp [System.queueMutexFree, lockRank, h]

theorem rank_pos_of_lockRank (h : 0 < lockRank r w) : 0 < rank r w := by
  cases w with
  | publisher =>
    simp only [lockRank] at h
    split_ifs at h with hw hh
    · simp [rank, hw, PublisherPc.rank]
    · simp [rank, hh, PublisherPc.rank]
    · exact absurd h (Nat.lt_irrefl 0)
  | reliable =>
    simp only [lockRank] at h
    split_ifs at h with hh
    · simp [rank, hh, ReliablePc.rank]
    · exact absurd h (Nat.lt_irrefl 0)
  | command => exact absurd h (Nat.lt_irrefl 0)

theorem Same.lockRank_eq (h : Same r r' w) : lockRank r' w = lockRank r w := by
  cases w <;> simp only [Same] at h <;> simp only [lockRank, h]

theorem publisher_unlocks {e : PublisherEvent} (h : r.publisherStep env e = some r')
    (hpos : 0 < lockRank r publisher) : lockRank r' publisher < lockRank r publisher := by
  cases e with
  | check =>
    simp only [ZmqRelay.publisherStep, Option.ite_none_right_eq_some, Option.some.injEq] at h
    obtain ⟨ht, rfl⟩ := h
    cases hr : r.running <;> simp [lockRank, ht]
  | empty | pop =>
    simp only [ZmqRelay.publisherStep, Option.ite_none_right_eq_some, Option.some.injEq] at h
    obtain ⟨⟨ht, -⟩, rfl⟩ := h
    simp [lockRank, ht]
  | loop | wake | count | fail =>
    simp only [ZmqRelay.publisherStep, Option.ite_none_right_eq_some, Option.some.injEq] at h
    obtain ⟨ht, -⟩ := h
    simp [lockRank, ht] at hpos
  | assign | send =>
    simp only [ZmqRelay.publisherStep, Option.ite_none_right_eq_some, Option.some.injEq] at h
    obtain ⟨⟨ht, -⟩, -⟩ := h
    simp [lockRank, ht] at hpos

theorem reliable_unlocks {e : ReliableEvent} (h : r.reliableStep env e = some r')
    (hpos : 0 < lockRank r reliable) : lockRank r' reliable < lockRank r reliable := by
  cases e with
  | empty | pop =>
    simp only [ZmqRelay.reliableStep, Option.ite_none_right_eq_some, Option.some.injEq] at h
    obtain ⟨⟨ht, -⟩, rfl⟩ := h
    simp [lockRank, ht]
  | loop | lock =>
    simp only [ZmqRelay.reliableStep, Option.ite_none_right_eq_some, Option.some.injEq] at h
    obtain ⟨ht, -⟩ := h
    simp [lockRank, ht] at hpos
  | send =>
    simp only [ZmqRelay.reliableStep, Option.ite_none_right_eq_some, Option.some.injEq] at h
    obtain ⟨⟨ht, -⟩, -⟩ := h
    simp [lockRank, ht] at hpos

/-- While a mutex is held nobody but its holder brings it closer to its release, and the holder
does nothing else. -/
theorem unlocks (hs : System.step env s l = some s') (hpos : 0 < lockRank s.relay w) :
    lockRank s'.relay w ≤ lockRank s.relay w ∧
      (l.locked? = some w → lockRank s'.relay w < lockRank s.relay w) := by
  by_cases hl : l.worker? = some w
  · rcases l with _ | e | e | e | _
    case publisher =>
      cases hl
      obtain ⟨r, h, rfl⟩ := System.step_publisher hs
      have hlt := publisher_unlocks h hpos
      exact ⟨Nat.le_of_lt hlt, fun _ => hlt⟩
    case reliable =>
      cases hl
      obtain ⟨r, h, rfl⟩ := System.step_reliable hs
      have hlt := reliable_unlocks h hpos
      exact ⟨Nat.le_of_lt hlt, fun _ => hlt⟩
    case command =>
      cases hl
      exact absurd hpos (Nat.lt_irrefl 0)
    all_goals cases hl
  · have hsame := (same_of_other hs hl (rank_pos_of_lockRank hpos)).lockRank_eq
    refine ⟨Nat.le_of_eq hsame, fun hlock => absurd ?_ hl⟩
    rcases l with _ | e | e | e | _
    case publisher | reliable | command => cases e <;> first | exact hlock | cases hlock
    all_goals cases hlock

theorem holds_of_locked (hs : System.step env s l = some s') (hl : l.locked? = some w) :
    0 < lockRank s.relay w := by
  rcases l with _ | e | e | e | _
  case publisher =>
    obtain ⟨r, h, -⟩ := System.step_publisher hs
    cases e <;> cases hl <;>
      simp only [ZmqRelay.publisherStep, Option.ite_none_right_eq_some] at h
    · simp [lockRank, h.1]
    · simp [lockRank, h.1.1]
    · simp [lockRank, h.1.1]
  case reliable =>
    obtain ⟨r, h, -⟩ := System.step_reliable hs
    cases e <;> cases hl <;>
      simp only [ZmqRelay.reliableStep, Option.ite_none_right_eq_some] at h
    · simp [lockRank, h.1.1]
    · simp [lockRank, h.1.1]
  all_goals cases hl

theorem unlock_ready (env : Env) (hc : s.crashed = false) (hpos : 0 < lockRank s.relay w) :
    ∃ l s', l.locked? = some w ∧ System.step env s l = some s' := by
  cases w with
  | publisher =>
    simp only [lockRank] at hpos
    split_ifs at hpos with hw hh
    · exact ⟨_, _, rfl, System.step_of_publisher hc (e := .check) (if_pos hw)⟩
    · cases hq : s.relay.publishQueue with
      | nil => exact ⟨_, _, rfl, System.step_of_publisher hc (e := .empty) (if_pos ⟨hh, hq⟩)⟩
      | cons packet rest =>
        have hhead : s.relay.publishQueue.head? = some packet := by rw [hq]; rfl
        exact ⟨_, _, rfl, System.step_of_publisher hc (e := .pop packet) (if_pos ⟨hh, hhead⟩)⟩
    · exact absurd hpos (Nat.lt_irrefl 0)
  | reliable =>
    simp only [lockRank] at hpos
    split_ifs at hpos with hh
    · cases hq : s.relay.packetQueue with
      | nil => exact ⟨_, _, rfl, System.step_of_reliable hc (e := .empty) (if_pos ⟨hh, hq⟩)⟩
      | cons packet rest =>
        have hhead : s.relay.packetQueue.head? = some packet := by rw [hq]; rfl
        exact ⟨_, _, rfl, System.step_of_reliable hc (e := .pop packet) (if_pos ⟨hh, hhead⟩)⟩
    · exact absurd hpos (Nat.lt_irrefl 0)
  | command => exact absurd hpos (Nat.lt_irrefl 0)

theorem freed {s₀ : System} {c : Schedule (System.step env) s₀} {n : Nat}
    (hc : ∀ m, n ≤ m → (c.state m).crashed = false)
    (hfair : c.Fair fun l => l.locked? = some w) :
    ∃ m, n ≤ m ∧ lockRank (c.state m).relay w = 0 := by
  refine Schedule.eventually (P := fun m => lockRank (c.state m).relay w = 0)
    (f := fun s => lockRank s.relay w) hfair ?_ ?_ ?_
  · intro m l hm hl hlock
    rcases Nat.eq_zero_or_pos (lockRank (c.state m).relay w) with hz | hpos
    · exact .inl hz
    · exact .inr (.inr ((unlocks (c.move m l hl) hpos).2 hlock))
  · intro m l hm hl hlock
    rcases Nat.eq_zero_or_pos (lockRank (c.state m).relay w) with hz | hpos
    · exact .inl hz
    · exact .inr (.inr (unlocks (c.move m l hl) hpos).1)
  · intro m hm
    rcases Nat.eq_zero_or_pos (lockRank (c.state m).relay w) with hz | hpos
    · exact .inl hz
    · exact .inr (unlock_ready env (hc m hm) hpos)

end Worker

namespace Calling

variable {env : Env} {s s' : System} {l : Label} {i : Nat}

/-! ### Steps of a call -/

theorem caller_turn (hl : l.continues i) (hs : System.step env s l = some s') :
    (s'.callers i).rank < (s.callers i).rank := by
  rcases l with ⟨j, e⟩ | _ | _ | _ | _
  case caller =>
    obtain ⟨rfl, he⟩ := hl
    obtain ⟨r, pc, hmove, rfl⟩ := System.callerStep_move (System.step_caller hs)
    rw [System.setCaller_callers_self]
    cases hmove with
    | call packet => exact absurd rfl (he packet)
    | readRunning _ hpc | readSocket _ hpc =>
      rw [hpc]
      split_ifs <;> simp [CallerPc.rank]
    | pass _ hpc | drop _ hpc | admitPacket _ _ hpc | bypass _ hpc | enqueue _ hpc =>
      rw [hpc]
      simp [CallerPc.rank]
  all_goals exact hl.elim

theorem caller_other (hl : ¬ l.continues i) (hi : s.callers i ≠ .idle)
    (hs : System.step env s l = some s') : s'.callers i = s.callers i := by
  rcases l with ⟨j, e⟩ | _ | _ | _ | _
  case caller =>
    have hc := System.step_caller hs
    by_cases hj : i = j
    · subst hj
      obtain ⟨packet, rfl⟩ : ∃ packet, e = .call packet := by
        by_contra hne
        exact hl ⟨rfl, fun packet he => hne ⟨packet, he⟩⟩
      obtain ⟨r, pc, hmove, rfl⟩ := System.callerStep_move hc
      cases hmove with
      | call _ hpc => exact absurd hpc hi
    · exact System.callerStep_callers hc hj
  all_goals rw [System.step_callers hs (by simp)]

/-- What a call is waiting for. -/
def awaits (config : Config) : CallerPc → Option Worker
  | .admitting _ => if config.enableReliableQueue then some .reliable else none
  | .enqueueing _ => some .publisher
  | _ => none

theorem caller_ready (hc : s.crashed = false) (hi : s.callers i ≠ .idle)
    (hfree : ∀ w, awaits env.config (s.callers i) = some w → w.lockRank s.relay = 0) :
    ∃ l s', l.continues i ∧ System.step env s l = some s' := by
  suffices h : ∃ e s', (∀ packet, e ≠ .call packet) ∧ s.callerStep env i e = some s' by
    obtain ⟨e, s', he, hs⟩ := h
    exact ⟨.caller i e, s', ⟨rfl, he⟩, System.step_of_caller hc hs⟩
  cases hpc : s.callers i with
  | idle => exact absurd hpc hi
  | checkRunning packet => exact ⟨.readRunning, _, by simp, by rw [System.callerStep, hpc]⟩
  | checkSocket packet => exact ⟨.readSocket, _, by simp, by rw [System.callerStep, hpc]⟩
  | filtering packet =>
    refine ⟨.filter packet (!s.relay.filtered packet), ?_⟩
    cases hf : s.relay.filtered packet <;>
      exact ⟨_, by simp, by rw [System.callerStep, if_pos ⟨hpc, by rw [hf]⟩]; rfl⟩
  | admitting packet =>
    rw [hpc] at hfree
    cases he : env.config.enableReliableQueue with
    | true =>
      have hq := Worker.queueMutexFree_iff.mpr (hfree .reliable (by simp [awaits, he]))
      exact ⟨.admitPacket packet (decide (s.relay.packetQueue.length < env.config.maxQueueSize)),
        _, by simp, by rw [System.callerStep, if_pos hpc, if_pos he, if_pos ⟨hq, rfl⟩]⟩
    | false =>
      exact ⟨.admitPacket packet false, _, by simp,
        by rw [System.callerStep, if_pos hpc, if_neg (by simp [he]), if_pos rfl]⟩
  | enqueueing packet =>
    rw [hpc] at hfree
    have hp := Worker.publishMutexFree_iff.mpr (hfree .publisher rfl)
    exact ⟨.enqueue packet, _, by simp, by rw [System.callerStep, if_pos ⟨hpc, hp⟩]⟩

/-! ### Schedules -/

section

variable {s₀ : System} {c : Schedule (System.step env) s₀} {n : Nat}
  (hc : ∀ m, n ≤ m → (c.state m).crashed = false)
  (hlock : ∀ w, c.Fair fun l => l.locked? = some w)
include hc hlock

/-- A call in progress can go on again and again. -/
theorem caller_often {m : Nat} (hm : n ≤ m) : ∃ k, m ≤ k ∧ ((c.state k).callers i = .idle ∨
    ∃ l s', l.continues i ∧ System.step env (c.state k) l = some s') := by
  by_cases hi : (c.state m).callers i = .idle
  · exact ⟨m, Nat.le_refl m, .inl hi⟩
  by_cases hmoves : ∃ k l, m ≤ k ∧ c.label k = some l ∧ l.continues i
  · obtain ⟨k, l, hk, hl, hcont⟩ := hmoves
    exact ⟨k, hk, .inr ⟨l, _, hcont, c.move k l hl⟩⟩
  -- it stands still, and what it waits for becomes free
  have hstill : ∀ k, m ≤ k → (c.state k).callers i = (c.state m).callers i := by
    refine c.invariant (I := fun s => s.callers i = (c.state m).callers i) rfl ?_
    intro k l hk hl heq
    refine (caller_other (fun hcont => hmoves ⟨k, l, hk, hl, hcont⟩) ?_ (c.move k l hl)).trans heq
    rwa [heq]
  obtain ⟨k, hk, hfree⟩ : ∃ k, m ≤ k ∧
      ∀ w, awaits env.config ((c.state m).callers i) = some w →
        w.lockRank (c.state k).relay = 0 := by
    cases hw : awaits env.config ((c.state m).callers i) with
    | none => exact ⟨m, Nat.le_refl m, fun w hw' => by cases hw'⟩
    | some w =>
      obtain ⟨k, hk, hz⟩ := Worker.freed (fun k hk => hc k (Nat.le_trans hm hk)) (hlock w)
      exact ⟨k, hk, fun w' hw' => by cases hw'; exact hz⟩
  refine ⟨k, hk, .inr (caller_ready (hc k (Nat.le_trans hm hk)) ?_ ?_)⟩
  · rwa [hstill k hk]
  · rwa [hstill k hk]

/-- Every call of `PublishPacket` returns: whatever the sockets, the queues and the owner are doing,
if its thread and the holders of the mutexes are scheduled fairly and the process stays up. -/
theorem call_returns (hcaller : c.StrongFair (Label.continues i)) :
    ∃ m, n ≤ m ∧ (c.state m).callers i = .idle := by
  refine Schedule.eventually_of_often (P := fun m => (c.state m).callers i = .idle)
    (f := fun s => (s.callers i).rank) hcaller ?_ ?_ fun m hm => caller_often hc hlock hm
  · intro m l _ hl hcont
    exact .inr (.inr (caller_turn hcont (c.move m l hl)))
  · intro m l _ hl hcont
    by_cases hi : (c.state m).callers i = .idle
    · exact .inl hi
    · exact .inr (.inr (Nat.le_of_eq (congrArg _ (caller_other hcont hi (c.move m l hl)))))

end

/-! ### One call -/

/-- A call that nothing holds up. -/
theorem call_returns_login : ∃ (c : Schedule (System.step (defaultEnv id)) {}) (n : Nat),
    (c.state n).callers 0 = .checkRunning loginPacket ∧
      ∃ m, n ≤ m ∧ (c.state m).callers 0 = .idle := by
  have hr := (Run.of_exec (System.exec_started id none)).append (Run.of_exec (System.exec_call
    (defaultEnv id) (s := { relay := System.startedRelay }) rfl (i := 0) rfl loginPacket rfl rfl))
  have hnone : ∀ (w : Worker) (l : Label), l.locked? = some w → System.step (defaultEnv id)
      { relay := System.startedRelay.publishPacket {} loginPacket } l = none := by
    refine fun w l hl => Option.eq_none_iff_forall_not_mem.mpr fun s' hs => ?_
    have hpos := Worker.holds_of_locked hs hl
    cases w <;> exact absurd hpos (Nat.lt_irrefl 0)
  refine ⟨Schedule.ofExec _ hr.exec_eq, 15, rfl, call_returns (fun m _ => ?_)
    (fun w => Schedule.fair_ofExec (hnone w)) (Schedule.strongFair_ofExec fun l hl => ?_)⟩
  · refine Schedule.invariant _ (I := fun s : System => s.crashed = false) (n := 0) rfl ?_ m
      (Nat.zero_le m)
    intro m l _ hl hc
    refine System.step_crashed (Schedule.move _ m l hl) fun uptime request he => ?_
    subst he
    have hmem := List.mem_of_getElem? hl
    simp at hmem
  · exact Option.eq_none_iff_forall_not_mem.mpr fun s' hs =>
      absurd (caller_turn hl hs) (Nat.not_lt_zero _)

theorem settled_enqueueing : ∃ tr s, Run (System.step (defaultEnv id)) {} tr s ∧ s.Settled ∧
    s.callers 0 = .enqueueing loginPacket := by
  have hr := (Run.of_exec (System.exec_started id none)).snoc
    (System.step_call (defaultEnv id) (s := { relay := System.startedRelay }) rfl (i := 0) rfl
      loginPacket)
  have hr := hr.snoc (System.step_readRunning (defaultEnv id) rfl loginPacket)
  have hr := hr.snoc (System.step_readSocket (defaultEnv id) rfl loginPacket)
  have hr := hr.snoc (System.step_passes (defaultEnv id) rfl loginPacket rfl)
  have hr := hr.snoc (System.step_admitPacket (defaultEnv id) rfl loginPacket rfl)
  have hr := hr.append (Run.of_exec
    (System.exec_push (defaultEnv id) loginPacket [] rfl rfl rfl rfl
      (show sendable (defaultEnv id) loginPacket .thrown = true from rfl)))
  exact ⟨_, _, hr, ⟨⟨rfl, rfl⟩, rfl, rfl, rfl, rfl, rfl⟩, rfl⟩

/-- A thread that finds the mutex taken whenever it looks never gets past it. -/
theorem starves : ∃ (c : Schedule (System.step (defaultEnv id)) {}) (n : Nat),
    (∀ w, c.Fair fun l => l.worker? = some w) ∧ (∀ w, c.Fair fun l => l.locked? = some w) ∧
      c.Fair (Label.continues 0) ∧
      ∀ m, n ≤ m → (c.state m).Up ∧ (c.state m).callers 0 = .enqueueing loginPacket := by
  obtain ⟨tr, s, hr, hs, hpc⟩ := settled_enqueueing
  obtain ⟨c, -, hstate, hidles⟩ := hs.schedule hr
  have hup := hidles.up (by rw [hstate]; exact hs.toUp)
  have hwaits : ∀ m, tr.length ≤ m → (c.state m).callers 0 = .enqueueing loginPacket := by
    refine c.invariant (I := fun s => s.callers 0 = .enqueueing loginPacket)
      (by rw [hstate]; exact hpc) ?_
    intro m l hm hl h
    rw [← h, System.step_callers (c.move m l hl) fun i e he => ?_]
    subst he
    have hmem := hidles.labels m _ hm hl
    simp [System.idleEvents] at hmem
  refine ⟨c, tr.length, hidles.fair_worker, fun w => ?_, fun k => ?_,
    fun m hm => ⟨hup m hm, hwaits m hm⟩⟩
  · cases w with
    | publisher => exact hidles.fair (l := .publisher .check) (by simp [System.idleEvents]) rfl
    | reliable => exact hidles.fair (l := .reliable .empty) (by simp [System.idleEvents]) rfl
    | command =>
      refine fun k => ⟨k, Nat.le_refl k, .inr fun l hl => ?_⟩
      refine Option.eq_none_iff_forall_not_mem.mpr fun s' hs => ?_
      exact Nat.lt_irrefl 0 (Worker.holds_of_locked hs hl)
  · -- whenever the publisher has the mutex
    obtain ⟨m, hm, hl⟩ :=
      hidles.again (.publisher .check) (by simp [System.idleEvents]) (max tr.length k)
    have hpc := hwaits m (Nat.le_trans (Nat.le_max_left ..) hm)
    have hheld := Worker.holds_of_locked (c.move m _ hl) (w := .publisher) rfl
    refine ⟨m, Nat.le_trans (Nat.le_max_right ..) hm, .inr fun l hcont => ?_⟩
    refine Option.eq_none_iff_forall_not_mem.mpr fun s' hs => ?_
    rcases l with ⟨j, e⟩ | _ | _ | _ | _
    case caller =>
      obtain ⟨rfl, he⟩ := hcont
      obtain ⟨r, pc, hmove, -⟩ := System.callerStep_move (System.step_caller hs)
      cases hmove with
      | call packet => exact he packet rfl
      | enqueue packet _ hfree =>
        rw [Worker.publishMutexFree_iff.mp hfree] at hheld
        exact Nat.lt_irrefl 0 hheld
      | readRunning _ h | readSocket _ h | pass _ h | drop _ h | admitPacket _ _ h | bypass _ h =>
        rw [hpc] at h
        cases h
    all_goals exact hcont.elim

end Calling

end Kpacket
