import Kpacket.Stopping

/-!
# Shutdown quiesces

In every schedule of the relay, from the moment that `Shutdown` clears `running_`, each worker
serves at most one more packet or request, and once `Shutdown` has returned nothing moves but the
packets of calls that were already past their checks (`quiet`). If the workers and `Shutdown` get
their turns it does return, unless the command thread comes to an undefined lookup (`quiesces_iff`).
-/

namespace Kpacket

open Lts

/-- The statements that are left of `Shutdown`, and its return. -/
def OwnerPc.rank : OwnerPc → Nat
  | .shuttingDown ps => ps.length + 1
  | _ => 0

/-- A step of `Shutdown` after its first. -/
def Label.shuts : Label → Bool
  | .owner (.shut _) | .owner .endShutdown => true
  | _ => false

namespace Quiescence

variable {env : Env}

/-- The threads get their turns. -/
structure Fair (c : Schedule (System.step env) {}) : Prop where
  workers : ∀ w, c.Fair fun l => l.worker? = some w
  owner : c.Fair fun l => l.shuts = true

/-- What holds after the step at instant `n`, which clears `running_`. -/
structure Quiet (c : Schedule (System.step env) {}) (n : Nat) : Prop where
  published : ∀ k, (PubStream.tried (c.labels (n + 1) k)).length ≤ 1
  pushed : ∀ k, (PushStream.attempts (c.labels (n + 1) k)).length ≤ 1
  answered : ∀ k, (CommandRuns.replied (c.labels (n + 1) k)).length ≤ 1
  /-- No worker takes a step after the return of `Shutdown`. -/
  silent : ∀ m k l, n < m → c.label m = some (.owner .endShutdown) → m < k → c.label k = some l →
    l.worker? = none
  /-- No call that begins after it changes the relay. -/
  refused : ∀ m k i packet, n < m → c.label m = some (.owner .endShutdown) → m < k →
    c.label k = some (.caller i (.call packet)) → ∀ k' e, k ≤ k' →
      c.label k' = some (.caller i e) → (c.state (k' + 1)).relay = (c.state k').relay
  publishQueue : ∀ k, PubStream.pushed (c.labels 0 k) =
    PubStream.taken (c.labels 0 k) ++ (c.state k).relay.publishQueue
  packetQueue : ∀ k, PushStream.admitted (c.labels 0 k) =
    PushStream.taken (c.labels 0 k) ++ (c.state k).relay.packetQueue

/-! ### What a worker serves -/

theorem length_served {β : Type} {g : Label → Option β} {w : Worker}
    (hg : ∀ l, (g l).isSome = decide (l.serves? = some w)) (tr : List Label) :
    (tr.filterMap g).length = tr.countP fun l => l.serves? = some w := by
  rw [List.length_filterMap_eq_countP]
  exact List.countP_congr fun l _ => by rw [hg l]

section

variable {c : Schedule (System.step env) {}} {n : Nat}
  (hclear : c.label n = some (.owner (.shut .clearRunning)))
  (hinit : ∀ m, n < m → c.label m ≠ some (.owner .beginInitialize))
include hclear hinit

theorem stopping : ∀ m, n < m → Stopping (c.state m) := by
  refine c.invariant (I := Stopping) (Stopping.of_clear (c.run_start n) (c.move n _ hclear)).1 ?_
  intro m l hm hl hstop
  exact hstop.step (fun he => hinit m hm (he ▸ hl)) (c.move m l hl)

theorem served (w : Worker) (k : Nat) :
    (c.labels (n + 1) k).countP (fun l => l.serves? = some w) ≤ 1 := by
  have hlabels : ∀ l ∈ c.labels (n + 1) k, l ≠ .owner .beginInitialize := by
    rintro l hl rfl
    obtain ⟨m, hm, hl⟩ := c.mem_labels hl
    exact hinit m hm hl
  have hpaid := (c.run (n + 1) k).budget (f := fun s => w.spare s.relay) hlabels
    (stopping hclear hinit (n + 1) (Nat.lt_succ_self n)) fun s l s' hstop hl hs =>
      ⟨hstop.step hl hs, hstop.spare_step hl hs w⟩
  have := Worker.spare_le_one (c.state (n + 1)).relay w
  omega

/-! ### After the return -/

theorem stopped {m : Nat} (hm : n < m) (hend : c.label m = some (.owner .endShutdown)) :
    ∀ k, m < k → Stopped (c.state k) := by
  refine c.invariant (I := Stopped)
    (Stopped.of_end (stopping hclear hinit m hm) (c.move m _ hend)) ?_
  intro k l hk hl hstop
  exact hstop.step (fun he => hinit k (Nat.lt_trans hm hk) (he ▸ hl)) (c.move k l hl)

theorem outside {k i : Nat} {packet : PacketInfo} (hk : n < k)
    (hcall : c.label k = some (.caller i (.call packet))) :
    ∀ k', k ≤ k' → (c.state k').Outside i := by
  refine c.invariant (I := fun s => s.Outside i) (System.outside_of_call (c.move k _ hcall)) ?_
  intro k' l hk' hl hout
  have hrun := (stopping hclear hinit k' (Nat.lt_of_lt_of_le hk hk')).running
  exact (hout.step hrun (c.move k' l hl)).1

theorem quiet : Quiet c n where
  published k := by
    refine Nat.le_trans (Nat.le_of_eq (length_served (fun l => ?_) _))
      (served hclear hinit .publisher k)
    rcases l with ⟨i, e⟩ | e | e | e | e <;> cases e <;> rfl
  pushed k := by
    refine Nat.le_trans (Nat.le_of_eq (length_served (fun l => ?_) _))
      (served hclear hinit .reliable k)
    rcases l with ⟨i, e⟩ | e | e | e | e <;> cases e <;> rfl
  answered k := by
    refine Nat.le_trans (Nat.le_of_eq (length_served (fun l => ?_) _))
      (served hclear hinit .command k)
    rcases l with ⟨i, e⟩ | e | e | e | e <;> cases e <;> rfl
  silent m k l hm hend hk hl := by
    have hstop := stopped hclear hinit hm hend k hk
    cases hw : l.worker? with
    | none => rfl
    | some w => exact absurd hw (hstop.silent (c.move k l hl) w)
  refused m k i packet hm hend hk hcall k' e hk' he := by
    have hn := Nat.lt_trans hm hk
    have hrun := (stopping hclear hinit k' (Nat.lt_of_lt_of_le hn hk')).running
    exact ((outside hclear hinit hn hcall k' hk').step hrun (c.move k' _ he)).2 e rfl
  publishQueue k := PubStream.pushed_eq (c.run_start k)
  packetQueue k := PushStream.admitted_eq_taken (c.run_start k)

end

/-! ### The return -/

theorem owner_turn {s s' : System} {l : Label} (hl : l.shuts = true)
    (hs : System.step env s l = some s') : s'.owner.rank < s.owner.rank := by
  cases l with
  | owner e =>
    obtain ⟨r, pc, hmove, rfl⟩ := System.ownerStep_move (System.step_owner hs)
    cases hmove with
    | shut p ps ho => simp [ho, OwnerPc.rank]
    | endShutdown ho => simp [ho, OwnerPc.rank]
    | _ => cases hl
  | _ => cases hl

theorem owner_kept {s s' : System} {l : Label} {ps : List ShutdownPoint}
    (ho : s.owner = .shuttingDown ps) (hl : l ≠ .owner .endShutdown)
    (hs : System.step env s l = some s') :
    s'.owner.rank ≤ s.owner.rank ∧ ∃ qs, s'.owner = .shuttingDown qs := by
  by_cases hown : ∃ e, l = .owner e
  · obtain ⟨e, rfl⟩ := hown
    obtain ⟨r, pc, hmove, rfl⟩ := System.ownerStep_move (System.step_owner hs)
    cases hmove with
    | shut p qs ho' =>
      rw [ho']
      exact ⟨by simp [OwnerPc.rank], qs, rfl⟩
    | endShutdown => exact absurd rfl hl
    | setPacketFilter | setPacketInjector | setPlayerNameProvider => exact ⟨Nat.le_refl _, ps, ho⟩
    | beginInitialize ho' | init _ _ _ ho' | initThrows _ _ ho' | endInitialize ho'
    | beginShutdown ho' => rw [ho] at ho'; cases ho'
  · rw [(System.step_ownerPc hs fun e he => hown ⟨e, he⟩).1]
    exact ⟨Nat.le_refl _, ps, ho⟩

theorem owner_ready {s : System} (hc : s.crashed = false) (hw : ∀ w, Worker.rank s.relay w = 0)
    {ps : List ShutdownPoint} (ho : s.owner = .shuttingDown ps) :
    ∃ l s', l.shuts = true ∧ System.step env s l = some s' := by
  cases ps with
  | nil =>
    refine ⟨.owner .endShutdown, { s with owner := .idle }, rfl, ?_⟩
    rw [System.step_owner_eq env hc, System.ownerStep, if_pos ho]
  | cons p ps =>
    have hcan := Worker.canShut hw p
    refine ⟨.owner (.shut p), { s with
      relay := s.relay.shutdownStep p, owner := .shuttingDown ps }, rfl, ?_⟩
    simp [System.step_owner_eq env hc, System.ownerStep, ho, hcan]

theorem crashed_of_undefinedLookup {s s' : System} {uptime : Int} {request : Bytes}
    (hs : System.step env s (.command (.undefinedLookup uptime request)) = some s') :
    s'.crashed = true := by
  unfold System.step at hs
  split_ifs at hs
  obtain ⟨_, _, rfl⟩ := Option.map_eq_some_iff.mp hs
  rfl

/-- No request after the flag is cleared is brought to an undefined lookup. -/
def Safe (c : Schedule (System.step env) {}) (n : Nat) : Prop :=
  ∀ m e request, n < m → c.label m = some (.command e) →
    (c.state m).relay.repThread = some (.processing request) →
      ¬ UndefinedLookup env (c.state m).relay request

section

variable {c : Schedule (System.step env) {}} {n : Nat}
  (hclear : c.label n = some (.owner (.shut .clearRunning)))
  (hinit : ∀ m, n < m → c.label m ≠ some (.owner .beginInitialize))
include hclear

theorem alive (hd : LawfulDump env.json.dump) (hsafe : Safe c n) :
    ∀ m, n < m → (c.state m).crashed = false := by
  refine c.invariant (I := fun s => s.crashed = false)
    (System.step_crashed (c.move n _ hclear) (by simp)) ?_
  intro m l hm hl _
  refine System.step_crashed (c.move m l hl) fun uptime request he => ?_
  subst he
  exact CommandRuns.not_safe_of_undefinedLookup hd (c.move m _ hl)
    fun request hpc => hsafe m _ request hm hl hpc

include hinit

theorem ended {w : Worker} {m : Nat} (hm : n < m) (h : w.rank (c.state m).relay = 0) :
    ∀ k, m ≤ k → w.rank (c.state k).relay = 0 := by
  refine c.invariant (I := fun s => w.rank s.relay = 0) h ?_
  intro k l hk hl hz
  have hnk := Nat.lt_of_lt_of_le hm hk
  have hstop := stopping hclear hinit k hnk
  have hw : l.worker? ≠ some w := by
    intro hw
    have := (Worker.turn hstop.running hw (c.move k l hl)).1
    omega
  have hle := (hstop.kept (fun he => hinit k hnk (he ▸ hl)) (c.move k l hl) hw).le.1
  omega

theorem exits (hd : LawfulDump env.json.dump) (hsafe : Safe c n) (hfair : Fair c) (w : Worker) :
    ∃ m, n < m ∧ w.rank (c.state m).relay = 0 := by
  refine Schedule.eventually_zero (f := fun s => w.rank s.relay) (hfair.workers w) ?_ ?_ ?_
  · intro m l hm hl hw
    refine (Worker.turn (stopping hclear hinit m hm).running hw (c.move m l hl)).2.1 ?_
    rintro uptime request rfl
    exact CommandRuns.not_safe_of_undefinedLookup hd (c.move m _ hl)
      fun request hpc => hsafe m _ request hm hl hpc
  · intro m l hm hl hw
    have hstop := stopping hclear hinit m hm
    exact (hstop.kept (fun he => hinit m hm (he ▸ hl)) (c.move m l hl) hw).le.1
  · intro m hm hpos
    exact Worker.ready hd (alive hclear hd hsafe m hm) hpos

theorem returns (hd : LawfulDump env.json.dump) (hsafe : Safe c n) (hfair : Fair c) :
    ∃ m, n < m ∧ c.label m = some (.owner .endShutdown) := by
  by_contra hno
  obtain ⟨m₁, hm₁, h₁⟩ := exits hclear hinit hd hsafe hfair .publisher
  obtain ⟨m₂, hm₂, h₂⟩ := exits hclear hinit hd hsafe hfair .reliable
  obtain ⟨m₃, hm₃, h₃⟩ := exits hclear hinit hd hsafe hfair .command
  have hall : ∀ k, m₁ + m₂ + m₃ ≤ k → ∀ w, Worker.rank (c.state k).relay w = 0 := by
    intro k hk w
    cases w with
    | publisher => exact ended hclear hinit hm₁ h₁ k (by omega)
    | reliable => exact ended hclear hinit hm₂ h₂ k (by omega)
    | command => exact ended hclear hinit hm₃ h₃ k (by omega)
  have hend : ∀ m l, n < m → c.label m = some l → l ≠ .owner .endShutdown :=
    fun m l hm hl he => hno ⟨m, hm, he ▸ hl⟩
  -- so it is in the middle of its statements for ever
  have hopen : ∀ m, n < m → ∃ ps, (c.state m).owner = .shuttingDown ps := by
    refine c.invariant (I := fun s => ∃ ps, s.owner = .shuttingDown ps)
      (Stopping.of_clear (c.run_start n) (c.move n _ hclear)).2 ?_
    rintro m l hm hl ⟨ps, ho⟩
    exact (owner_kept ho (hend m l hm hl) (c.move m l hl)).2
  obtain ⟨m, hm, hz⟩ := Schedule.eventually_zero (f := fun s => s.owner.rank)
    (n := m₁ + m₂ + m₃) hfair.owner
    (fun m l _ hl hs => owner_turn hs (c.move m l hl))
    (fun m l hm hl _ => by
      obtain ⟨ps, ho⟩ := hopen m (by omega)
      exact (owner_kept ho (hend m l (by omega) hl) (c.move m l hl)).1)
    (fun m hm _ => by
      obtain ⟨ps, ho⟩ := hopen m (by omega)
      exact owner_ready (alive hclear hd hsafe m (by omega)) (hall m hm) ho)
  obtain ⟨ps, ho⟩ := hopen m (by omega)
  rw [ho] at hz
  cases hz

omit hclear hinit in
theorem crashed_after (hd : LawfulDump env.json.dump) {m : Nat} {e : CommandEvent} {request : Bytes}
    (hl : c.label m = some (.command e))
    (hpc : (c.state m).relay.repThread = some (.processing request))
    (hu : UndefinedLookup env (c.state m).relay request) :
    ∀ k, m < k → (c.state k).crashed = true := by
  refine c.invariant (I := fun s => s.crashed = true) ?_ ?_
  · have hs := c.move m _ hl
    obtain ⟨r, hr, -⟩ := System.step_command hs
    cases ZmqRelay.commandStep_move hr with
    | load request' field ht hcmd =>
      rw [hpc] at ht
      cases ht
      obtain ⟨params, hread, -⟩ := hu
      rw [commandOf, hread] at hcmd
      exact absurd (Option.some.inj hcmd) (by decide)
    | process uptime request' response calls injected ht hp =>
      rw [hpc] at ht
      cases ht
      rcases CommandRuns.outcome_cases hd (c.state m).relay uptime request with ⟨ho, -⟩ | ⟨-, hn⟩
      · rw [hp] at ho; cases ho
      · exact absurd hu hn
    | undefinedLookup => exact crashed_of_undefinedLookup hs
    | loop ht | receiveNone ht | receive _ ht | reply _ _ ht | count _ _ ht =>
      rw [hpc] at ht
      cases ht
  · intro k l _ hl hc
    rw [System.not_crashed_of_step (c.move k l hl)] at hc
    cases hc

/-- A return shows that no request came to an undefined lookup. -/
theorem safe_of_returns (hd : LawfulDump env.json.dump)
    (h : ∃ m, n < m ∧ c.label m = some (.owner .endShutdown)) : Safe c n := by
  obtain ⟨m, hm, hend⟩ := h
  intro k e request hk hl hpc hu
  rcases Nat.lt_trichotomy k m with hlt | rfl | hlt
  · have hc := crashed_after hd hl hpc hu m hlt
    rw [System.not_crashed_of_step (c.move m _ hend)] at hc
    cases hc
  · rw [hend] at hl
    cases hl
  · exact absurd ((quiet hclear hinit).silent m k _ hm hend hlt hl) (by simp [Label.worker?])

end

/-- From the moment that `running_` is cleared each worker serves at most one more packet or
request, and after the return of `Shutdown` the workers are silent, calls are turned away and every
packet that was not taken is in its queue; and if the threads get their turns, `Shutdown` returns
exactly if no request comes to an undefined lookup. -/
theorem quiesces_iff (hd : LawfulDump env.json.dump) {c : Schedule (System.step env) {}} {n : Nat}
    (hclear : c.label n = some (.owner (.shut .clearRunning)))
    (hinit : ∀ m, n < m → c.label m ≠ some (.owner .beginInitialize)) :
    Quiet c n ∧ (Fair c → ((∃ m, n < m ∧ c.label m = some (.owner .endShutdown)) ↔
      ∀ m e request, n < m → c.label m = some (.command e) →
        (c.state m).relay.repThread = some (.processing request) →
          ¬ UndefinedLookup env (c.state m).relay request)) :=
  ⟨quiet hclear hinit, fun hfair =>
    ⟨safe_of_returns hclear hinit hd, fun hsafe => returns hclear hinit hd hsafe hfair⟩⟩

/-! ### Two shutdowns -/

/-- From a new relay to the clearing of `running_`: two packets are published, and two workers have
taken the first one off their queues. -/
def startToClear : List Label :=
  System.startEvents.map .owner ++
    (System.callEvents {} System.startedRelay loginPacket).map (.caller 0) ++
    (System.callEvents {} (System.startedRelay.publishPacket {} loginPacket) logoutPacket).map
      (.caller 0) ++
    [.publisher .loop, .publisher .wake, .publisher .check, .publisher (.pop loginPacket),
      .reliable .loop, .reliable .lock, .reliable (.pop loginPacket), .owner .beginShutdown,
      .owner (.shut .clearRunning)]

/-- They send it and end, and `Shutdown` goes through its statements. -/
def clearToEnd (frames : List Bytes) (text : Bytes) : List Label :=
  [.publisher (.assign loginPacket 1), .publisher (.send loginPacket 1 frames),
    .publisher (.count loginPacket 1), .publisher .loop,
    .reliable (.send loginPacket (.accepted text)), .reliable .loop, .command .loop,
    .owner (.shut .joinPub), .owner (.shut .joinRep), .owner (.shut .joinPush),
    .owner (.shut .resetSockets), .owner .endShutdown]

/-- The system in the middle. -/
def clearedSystem : System where
  relay := { System.startedRelay with
    running := false
    pubThread := some (.building loginPacket)
    pushThread := some (.sending loginPacket)
    publishQueue := [logoutPacket]
    packetQueue := [logoutPacket] }
  owner := .shuttingDown ShutdownPoint.points.tail

/-- The relay at the end. -/
def endRelay : ZmqRelay :=
  ZmqRelay.shutdown
    { clearedSystem.relay with nextMessageId := 2, stats := { packetsPublished := 1 } }

theorem exec_startToClear :
    exec (System.step (defaultEnv id)) {} startToClear = some clearedSystem := by
  have hstart : exec (System.step (defaultEnv id)) {} (System.startEvents.map .owner) =
      some { relay := System.startedRelay } := System.exec_started id none
  have hcall : exec (System.step (defaultEnv id)) { relay := System.startedRelay }
      ((System.callEvents {} System.startedRelay loginPacket).map (.caller 0)) =
        some { relay := System.startedRelay.publishPacket {} loginPacket } :=
    System.exec_call (defaultEnv id) rfl rfl loginPacket rfl rfl
  have hcall' : exec (System.step (defaultEnv id))
      { relay := System.startedRelay.publishPacket {} loginPacket }
      ((System.callEvents {} (System.startedRelay.publishPacket {} loginPacket) logoutPacket).map
        (.caller 0)) = some { relay :=
          (System.startedRelay.publishPacket {} loginPacket).publishPacket {} logoutPacket } :=
    System.exec_call (defaultEnv id) rfl rfl logoutPacket rfl rfl
  have hrest : exec (System.step (defaultEnv id))
      { relay := (System.startedRelay.publishPacket {} loginPacket).publishPacket {} logoutPacket }
      [.publisher .loop, .publisher .wake, .publisher .check, .publisher (.pop loginPacket),
        .reliable .loop, .reliable .lock, .reliable (.pop loginPacket), .owner .beginShutdown,
        .owner (.shut .clearRunning)] = some clearedSystem := rfl
  simp only [startToClear, exec_append, hstart, hcall, hcall', Option.bind_some]
  exact hrest

theorem exec_startToEnd {frames : List Bytes} {text : Bytes}
    (hm : message (defaultEnv id) loginPacket 1 = .ok frames)
    (hs : sendable (defaultEnv id) loginPacket (.accepted text) = true) :
    exec (System.step (defaultEnv id)) {} (startToClear ++ clearToEnd frames text) =
      some { relay := endRelay } := by
  rw [exec_append, exec_startToClear, Option.bind_some]
  have hsend : (message (defaultEnv id) loginPacket 1).toOption = some frames := by
    rw [hm]
    rfl
  simp [clearToEnd, clearedSystem, endRelay, exec, System.step, System.ownerStep, System.canShut,
    ZmqRelay.publisherStep, ZmqRelay.reliableStep, ZmqRelay.commandStep, hsend, hs]
  rfl

theorem stopped_endRelay : Stopped { relay := endRelay } where
  running := rfl
  owner := by simp
  gone w _ := by cases w <;> rfl
  allGone w := by cases w <;> rfl

/-- A relay with packets in both queues is shut down while both workers are about to send. -/
theorem quiesces_busy : ∃ (c : Schedule (System.step (defaultEnv id)) {}) (n : Nat),
    c.label n = some (.owner (.shut .clearRunning)) ∧ (c.state n).relay.running = true ∧
    (c.state n).relay.pubThread = some (.building loginPacket) ∧
    (c.state n).relay.pushThread = some (.sending loginPacket) ∧
    (c.state n).relay.publishQueue = [logoutPacket] ∧
    (c.state n).relay.packetQueue = [logoutPacket] ∧
    Fair c ∧ Quiet c n ∧ ∃ m, n < m ∧ c.label m = some (.owner .endShutdown) := by
  obtain ⟨frames, hm⟩ := message_ok (defaultEnv id) loginPacket 1 (lawfulDump_defaultEnv id)
    (by decide) (by decide) (by decide) (by decide)
  obtain ⟨text, hs⟩ : ∃ text, sendable (defaultEnv id) loginPacket (.accepted text) = true := by
    obtain ⟨text, ht⟩ := (lawfulDump_defaultEnv id).ok (plain_toJson loginPacket)
      (utf8_toJson (by decide) (by decide))
    exact ⟨text, decide_eq_true (by rw [ht]; rfl)⟩
  have hexec := exec_startToEnd hm hs
  have hfair : Fair (Schedule.ofExec _ hexec) := by
    refine ⟨fun w => Schedule.fair_ofExec fun l hl => ?_, Schedule.fair_ofExec fun l hl => ?_⟩
    · cases hl' : System.step (defaultEnv id) { relay := endRelay } l with
      | none => rfl
      | some s' => exact absurd hl (stopped_endRelay.silent hl' w)
    · cases hl' : System.step (defaultEnv id) { relay := endRelay } l with
      | none => rfl
      | some s' => exact absurd (owner_turn hl hl') (Nat.not_lt_zero _)
  obtain ⟨hquiet, hiff⟩ := quiesces_iff (c := Schedule.ofExec _ hexec) (n := 34)
    (lawfulDump_defaultEnv id) rfl fun m hm hl => by
      have hmem := Schedule.mem_of_label_ofExec hm hl
      simp [clearToEnd] at hmem
  refine ⟨_, 34, rfl, rfl, rfl, rfl, rfl, rfl, hfair, hquiet,
    (hiff hfair).mpr fun m e request hm hl hpc => ?_⟩
  have hmem := Schedule.mem_of_label_ofExec hm hl
  simp only [clearToEnd, List.mem_cons, Label.command.injEq, reduceCtorEq, false_or, or_false,
    List.not_mem_nil] at hmem
  subst hmem
  obtain ⟨r, hr, -⟩ := System.step_command ((Schedule.ofExec _ hexec).move m _ hl)
  cases ZmqRelay.commandStep_move hr with
  | loop ht => rw [hpc] at ht; cases ht

/-- A request without parameters is received before `running_` is cleared, and the command thread
never comes to its end. -/
theorem not_quiesces_inject : ∃ (c : Schedule (System.step (defaultEnv id)) {}) (n : Nat),
    c.label n = some (.owner (.shut .clearRunning)) ∧ (c.state n).relay.running = true ∧
    (∀ m, n < m → c.label m ≠ some (.owner .beginInitialize)) ∧ Fair c ∧
    ∀ m, n < m → c.label m ≠ some (.owner .endShutdown) := by
  have hset : exec (System.step (defaultEnv id)) {}
      [.owner (.setPacketInjector (some fun _ _ => .ok true))] =
    some { relay := { packetInjector := some fun _ _ => .ok true } } := rfl
  have hcrash : ∃ s, exec (System.step (defaultEnv id)) {}
      (([.owner (.setPacketInjector (some fun _ _ => .ok true))] ++
        System.startEvents.map .owner ++
        [.command .loop, .command (.receive (some CommandRuns.bareInject)), .owner .beginShutdown,
          .owner (.shut .clearRunning)]) ++
        [.command (.undefinedLookup 5 CommandRuns.bareInject)]) = some s ∧ s.crashed = true := by
    rw [exec_append, exec_append, exec_append, hset, Option.bind_some, System.exec_started]
    exact ⟨_, rfl, rfl⟩
  obtain ⟨s, hs, hc⟩ := hcrash
  have hnone : ∀ l, System.step (defaultEnv id) s l = none := by
    intro l
    cases hl : System.step (defaultEnv id) s l with
    | none => rfl
    | some s' => rw [System.not_crashed_of_step hl] at hc; cases hc
  refine ⟨Schedule.ofExec _ hs, 18, rfl, rfl, fun m hm hl => ?_,
    ⟨fun w => Schedule.fair_ofExec fun l _ => hnone l, Schedule.fair_ofExec fun l _ => hnone l⟩,
    fun m hm hl => ?_⟩
  all_goals
    have hmem := Schedule.mem_of_label_ofExec hm hl
    simp at hmem

end Quiescence

end Kpacket
