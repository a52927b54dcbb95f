import Kpacket.CommandRuns
import Kpacket.PubAttempts
import Kpacket.PushStream
import Kpacket.Schedules

/-!
# The workers after the flag is cleared

Once `running_` is false each worker comes closer to its exit with every step that it takes (`rank`)
and has at most one packet or request left to serve (`spare`); `Worker.turn` reads both off its
steps, and `Worker.ready` says that it always has a step. `Stopping` is what `Shutdown` has done so
far, and `Stopped` what it leaves behind.
-/

namespace Kpacket

open Lts

/-- The number of steps to the exit, if the flag is down. -/
def PublisherPc.rank : PublisherPc → Nat
  | .exited => 0
  | .loop | .woken => 1
  | .waiting | .counting .. => 2
  | .sending .. => 3
  | .building _ => 4
  | .holding => 5

def ReliablePc.rank : ReliablePc → Nat
  | .exited => 0
  | .loop => 1
  | .sending _ => 2
  | .holding => 3
  | .locking => 4

/-- With the number of loads that are left. -/
def CommandPc.rank (left : Nat) : CommandPc → Nat
  | .exited => 0
  | .loop => 1
  | .counting .. => 2
  | .replying .. => 3
  | .processing _ => left + 4
  | .receiving => StatsField.all.length + 5

/-- The number of packets that may still be handed to the socket. -/
def PublisherPc.spare : PublisherPc → Nat
  | .holding | .building _ | .sending .. => 1
  | _ => 0

def ReliablePc.spare : ReliablePc → Nat
  | .locking | .holding | .sending _ => 1
  | _ => 0

/-- The number of requests that may still be answered. -/
def CommandPc.spare : CommandPc → Nat
  | .receiving | .processing _ | .replying .. => 1
  | _ => 0

inductive Worker
  | publisher
  | reliable
  | command
deriving DecidableEq

/-- The worker that takes the step. -/
def Label.worker? : Label → Option Worker
  | .publisher _ => some .publisher
  | .reliable _ => some .reliable
  | .command _ => some .command
  | _ => none

/-- The worker that tries to send a packet in the step, or replies to a request. -/
def Label.serves? : Label → Option Worker
  | .publisher (.send ..) | .publisher (.fail ..) => some .publisher
  | .reliable (.send ..) => some .reliable
  | .command (.reply ..) => some .command
  | _ => none

namespace Worker

def rank (r : ZmqRelay) : Worker → Nat
  | publisher => (r.pubThread.map PublisherPc.rank).getD 0
  | reliable => (r.pushThread.map ReliablePc.rank).getD 0
  | command => (r.repThread.map (CommandPc.rank r.statsLoads.left.length)).getD 0

def spare (r : ZmqRelay) : Worker → Nat
  | publisher => (r.pubThread.map PublisherPc.spare).getD 0
  | reliable => (r.pushThread.map ReliablePc.spare).getD 0
  | command => (r.repThread.map CommandPc.spare).getD 0

/-- The thread has been joined, or was never started. -/
def Gone (r : ZmqRelay) : Worker → Prop
  | publisher => r.pubThread = none
  | reliable => r.pushThread = none
  | command => r.repThread = none

def join : Worker → ShutdownPoint
  | publisher => .joinPub
  | reliable => .joinPush
  | command => .joinRep

variable {env : Env} {r r' : ZmqRelay} {s s' : System}

/-! ### Steps of a worker -/

theorem publisher_turn {e : PublisherEvent} (hrun : r.running = false)
    (h : r.publisherStep env e = some r') :
    rank r' publisher < rank r publisher ∧
      (decide ((Label.publisher e).serves? = some publisher)).toNat + spare r' publisher ≤
        spare r publisher := by
  cases e with
  | loop | wake | check | count | fail =>
    simp only [ZmqRelay.publisherStep, Option.ite_none_right_eq_some, Option.some.injEq] at h
    obtain ⟨ht, rfl⟩ := h
    simp [rank, spare, ht, hrun, PublisherPc.rank, PublisherPc.spare, Label.serves?]
  | empty | pop | assign | send =>
    simp only [ZmqRelay.publisherStep, Option.ite_none_right_eq_some, Option.some.injEq] at h
    obtain ⟨⟨ht, -⟩, rfl⟩ := h
    simp [rank, spare, ht, PublisherPc.rank, PublisherPc.spare, Label.serves?]

theorem reliable_turn {e : ReliableEvent} (hrun : r.running = false)
    (h : r.reliableStep env e = some r') :
    rank r' reliable < rank r reliable ∧
      (decide ((Label.reliable e).serves? = some reliable)).toNat + spare r' reliable ≤
        spare r reliable := by
  cases e with
  | loop | lock =>
    simp only [ZmqRelay.reliableStep, Option.ite_none_right_eq_some, Option.some.injEq] at h
    obtain ⟨ht, rfl⟩ := h
    simp [rank, spare, ht, hrun, ReliablePc.rank, ReliablePc.spare, Label.serves?]
  | empty | pop | send =>
    simp only [ZmqRelay.reliableStep, Option.ite_none_right_eq_some, Option.some.injEq] at h
    obtain ⟨⟨ht, -⟩, rfl⟩ := h
    simp [rank, spare, ht, ReliablePc.rank, ReliablePc.spare, Label.serves?]

theorem command_turn {e : CommandEvent} (hrun : r.running = false)
    (h : r.commandStep env e = some r') :
    0 < rank r command ∧ ((∀ uptime request, e ≠ .undefinedLookup uptime request) →
        rank r' command < rank r command) ∧
      (decide ((Label.command e).serves? = some command)).toNat + spare r' command ≤
        spare r command := by
  cases ZmqRelay.commandStep_move h with
  | loop ht =>
    simp [rank, spare, ht, hrun, CommandPc.rank, CommandPc.spare, Label.serves?]
  | load request field ht _ hf =>
    obtain ⟨fields, hleft⟩ := List.head?_eq_some_iff.mp hf
    simp [rank, spare, ht, hleft, CommandPc.rank, CommandPc.spare, Label.serves?]
  | receiveNone ht | receive _ ht | process _ _ _ _ _ ht | undefinedLookup _ _ ht | reply _ _ ht
  | count _ _ ht =>
    simp [rank, spare, ht, CommandPc.rank, CommandPc.spare, Label.serves?]

theorem turn {w : Worker} {l : Label} (hrun : s.relay.running = false) (hl : l.worker? = some w)
    (hs : System.step env s l = some s') :
    0 < rank s.relay w ∧
      ((∀ uptime request, l ≠ .command (.undefinedLookup uptime request)) →
        rank s'.relay w < rank s.relay w) ∧
      (decide (l.serves? = some w)).toNat + spare s'.relay w ≤ spare s.relay w := by
  cases l with
  | publisher e =>
    cases hl
    obtain ⟨r, hr, rfl⟩ := System.step_publisher hs
    obtain ⟨hrank, hspare⟩ := publisher_turn hrun hr
    exact ⟨Nat.zero_lt_of_lt hrank, fun _ => hrank, hspare⟩
  | reliable e =>
    cases hl
    obtain ⟨r, hr, rfl⟩ := System.step_reliable hs
    obtain ⟨hrank, hspare⟩ := reliable_turn hrun hr
    exact ⟨Nat.zero_lt_of_lt hrank, fun _ => hrank, hspare⟩
  | command e =>
    cases hl
    obtain ⟨r, hr, rfl, -⟩ := System.step_command hs
    obtain ⟨hpos, hrank, hspare⟩ := command_turn hrun hr
    exact ⟨hpos, fun hne => hrank fun uptime request he => hne uptime request (he ▸ rfl), hspare⟩
  | _ => cases hl

/-! ### A worker always has a step -/

theorem publisher_ready (env : Env) (h : 0 < rank r publisher) :
    ∃ e r', r.publisherStep env e = some r' := by
  cases ht : r.pubThread with
  | none => simp [rank, ht] at h
  | some pc =>
    cases pc with
    | loop => exact ⟨.loop, _, if_pos ht⟩
    | waiting => exact ⟨.wake, _, if_pos ht⟩
    | woken => exact ⟨.check, _, if_pos ht⟩
    | holding =>
      cases hq : r.publishQueue with
      | nil => exact ⟨.empty, _, if_pos ⟨ht, hq⟩⟩
      | cons packet rest => exact ⟨.pop packet, _, if_pos ⟨ht, by rw [hq]; rfl⟩⟩
    | building packet => exact ⟨.assign packet r.nextMessageId, _, if_pos ⟨ht, rfl⟩⟩
    | sending packet messageId => exact ⟨.fail packet messageId, _, if_pos ht⟩
    | counting packet messageId => exact ⟨.count packet messageId, _, if_pos ht⟩
    | exited => simp [rank, ht, PublisherPc.rank] at h

theorem reliable_ready (env : Env) (h : 0 < rank r reliable) :
    ∃ e r', r.reliableStep env e = some r' := by
  cases ht : r.pushThread with
  | none => simp [rank, ht] at h
  | some pc =>
    cases pc with
    | loop => exact ⟨.loop, _, if_pos ht⟩
    | locking => exact ⟨.lock, _, if_pos ht⟩
    | holding =>
      cases hq : r.packetQueue with
      | nil => exact ⟨.empty, _, if_pos ⟨ht, hq⟩⟩
      | cons packet rest => exact ⟨.pop packet, _, if_pos ⟨ht, by rw [hq]; rfl⟩⟩
    | sending packet => exact ⟨.send packet .thrown, _, if_pos ⟨ht, rfl⟩⟩
    | exited => simp [rank, ht, ReliablePc.rank] at h

theorem command_ready (hd : LawfulDump env.json.dump) (h : 0 < rank r command) :
    ∃ e r', r.commandStep env e = some r' := by
  cases ht : r.repThread with
  | none => simp [rank, ht] at h
  | some pc =>
    cases pc with
    | loop => exact ⟨.loop, _, if_pos ht⟩
    | receiving => exact ⟨.receive none, _, if_pos ht⟩
    | processing request =>
      by_cases hl : commandOf env request = some (lit "stats") → r.statsLoads.left = []
      · rcases CommandRuns.outcome_cases hd r 0 request with ⟨hu, -⟩ | ⟨⟨response, ho⟩, -⟩
        · exact ⟨.undefinedLookup 0 request, _, by
            simp only [ZmqRelay.commandStep, hu]; exact if_pos ht⟩
        · rcases hp : processCommand env r 0 request with ⟨outcome, calls, injected⟩
          obtain rfl : outcome = .done response := by rw [hp] at ho; exact ho
          exact ⟨.process 0 request response, _, by
            simp only [ZmqRelay.commandStep, hp]; exact if_pos ⟨ht, trivial, hl⟩⟩
      · -- there is something left to load
        obtain ⟨hcmd, hne⟩ := Classical.not_imp.mp hl
        obtain ⟨field, fields, hleft⟩ := List.exists_cons_of_ne_nil hne
        exact ⟨.load request field, _, if_pos ⟨ht, hcmd, by rw [hleft]; rfl⟩⟩
    | replying request response => exact ⟨.reply request response, _, if_pos ht⟩
    | counting request response => exact ⟨.count request response, _, if_pos ht⟩
    | exited => simp [rank, ht, CommandPc.rank] at h

theorem ready (hd : LawfulDump env.json.dump) (hc : s.crashed = false) {w : Worker}
    (h : 0 < rank s.relay w) : ∃ l s', l.worker? = some w ∧ System.step env s l = some s' := by
  cases w with
  | publisher =>
    obtain ⟨e, r, hr⟩ := publisher_ready env h
    have hs : System.step env s (.publisher e) = some { s with relay := r } := by
      rw [System.step, if_neg (by simp [hc])]
      exact congrArg (Option.map _) hr
    exact ⟨_, _, rfl, hs⟩
  | reliable =>
    obtain ⟨e, r, hr⟩ := reliable_ready env h
    have hs : System.step env s (.reliable e) = some { s with relay := r } := by
      rw [System.step, if_neg (by simp [hc])]
      exact congrArg (Option.map _) hr
    exact ⟨_, _, rfl, hs⟩
  | command =>
    obtain ⟨e, r, hr⟩ := command_ready hd h
    have hs : ∃ s', System.step env s (.command e) = some s' := by
      unfold System.step
      rw [if_neg (by simp [hc])]
      cases e
      all_goals exact ⟨_, congrArg (Option.map _) hr⟩
    obtain ⟨s', hs⟩ := hs
    exact ⟨_, s', rfl, hs⟩

/-! ### Steps of others -/

/-- The thread stays where it is, with what it has loaded, or is joined. -/
def Kept (r r' : ZmqRelay) : Worker → Prop
  | publisher => r'.pubThread = r.pubThread ∨ r'.pubThread = none
  | reliable => r'.pushThread = r.pushThread ∨ r'.pushThread = none
  | command => r'.repThread = r.repThread ∧ r'.statsLoads = r.statsLoads ∨ r'.repThread = none

theorem Gone.rank {w : Worker} (h : Gone r w) : Worker.rank r w = 0 := by
  cases w <;> simp [Worker.rank, show _ = none from h]

theorem Kept.le {w : Worker} (h : Kept r r' w) :
    rank r' w ≤ rank r w ∧ spare r' w ≤ spare r w ∧ (Gone r w → Gone r' w) := by
  cases w <;> rcases h with h | h <;> simp [rank, spare, Gone, h]

theorem kept_of_eq {w : Worker} (hpub : r'.pubThread = r.pubThread)
    (hpush : r'.pushThread = r.pushThread) (hrep : r'.repThread = r.repThread)
    (hloads : r'.statsLoads = r.statsLoads) : Kept r r' w := by
  cases w
  exacts [.inl hpub, .inl hpush, .inl ⟨hrep, hloads⟩]

theorem kept_shutdownStep (r : ZmqRelay) (p : ShutdownPoint) (w : Worker) :
    Kept r (r.shutdownStep p) w := by
  cases p <;> cases w <;> first | exact .inl rfl | exact .inl ⟨rfl, rfl⟩ | exact .inr rfl

theorem gone_shutdownStep (r : ZmqRelay) (w : Worker) : Gone (r.shutdownStep w.join) w := by
  cases w <;> rfl

theorem ended_of_rank {pc : Type} {rank : pc → Nat} {exited : pc}
    (h : ∀ x, rank x = 0 → x = exited) {thread : Option pc} (hz : (thread.map rank).getD 0 = 0) :
    thread = none ∨ thread = some exited := by
  cases thread with
  | none => exact .inl rfl
  | some x => exact .inr (congrArg some (h x hz))

theorem canShut {r : ZmqRelay} (h : ∀ w, rank r w = 0) (p : ShutdownPoint) :
    System.canShut r p = true := by
  cases p with
  | joinPub => exact decide_eq_true (ended_of_rank (fun x => by cases x <;> simp [PublisherPc.rank])
      (h publisher))
  | joinPush => exact decide_eq_true (ended_of_rank (fun x => by cases x <;> simp [ReliablePc.rank])
      (h reliable))
  | joinRep => exact decide_eq_true (ended_of_rank (fun x => by cases x <;> simp [CommandPc.rank])
      (h command))
  | _ => rfl

theorem spare_le_one (r : ZmqRelay) (w : Worker) : spare r w ≤ 1 := by
  have hthread : ∀ {pc : Type} {spare : pc → Nat}, (∀ x, spare x ≤ 1) →
      ∀ thread : Option pc, (thread.map spare).getD 0 ≤ 1 := by
    intro pc spare h thread
    cases thread with
    | none => exact Nat.zero_le 1
    | some x => exact h x
  cases w with
  | publisher => exact hthread (fun x => by cases x <;> simp [PublisherPc.spare]) r.pubThread
  | reliable => exact hthread (fun x => by cases x <;> simp [ReliablePc.spare]) r.pushThread
  | command => exact hthread (fun x => by cases x <;> simp [CommandPc.spare]) r.repThread

end Worker

/-! ### The owner -/

/-- The statements of `Shutdown` that are left. -/
def OwnerPc.left : OwnerPc → List ShutdownPoint
  | .shuttingDown ps => ps
  | _ => []

/-- `running_` is cleared, and the threads are joined as far as `Shutdown` has come. -/
structure Stopping (s : System) : Prop where
  running : s.relay.running = false
  owner : ∀ ps, s.owner ≠ .initializing ps
  gone : ∀ w, Worker.join w ∉ s.owner.left → w.Gone s.relay

/-- `Shutdown` has returned. -/
structure Stopped (s : System) : Prop extends Stopping s where
  allGone : ∀ w, Worker.Gone s.relay w

variable {env : Env} {s s' : System} {l : Label}

namespace Stopping

theorem owner_step {e : OwnerEvent} (h : Stopping s) (he : e ≠ .beginInitialize)
    (hs : s.ownerStep env e = some s') : Stopping s' ∧ ∀ w, Worker.Kept s.relay s'.relay w := by
  obtain ⟨r, pc, hmove, rfl⟩ := System.ownerStep_move hs
  cases hmove with
  | beginInitialize => exact absurd rfl he
  | init p ps _ ho | initThrows p ps ho | endInitialize ho => exact absurd ho (h.owner _)
  | beginShutdown ho =>
    refine ⟨⟨h.running, by simp, fun w _ => h.gone w ?_⟩,
      fun w => Worker.kept_of_eq rfl rfl rfl rfl⟩
    rw [ho]
    exact List.not_mem_nil
  | shut p ps ho =>
    have hkept := Worker.kept_shutdownStep s.relay p
    refine ⟨⟨?_, by simp, fun w hw => ?_⟩, hkept⟩
    · cases p <;> first | exact h.running | rfl
    · by_cases hp : w.join = p
      · subst hp
        exact Worker.gone_shutdownStep s.relay w
      · refine (hkept w).le.2.2 (h.gone w ?_)
        rw [ho]
        exact fun hm => (List.mem_cons.mp hm).elim hp hw
  | endShutdown ho =>
    refine ⟨⟨h.running, by simp, fun w _ => h.gone w ?_⟩,
      fun w => Worker.kept_of_eq rfl rfl rfl rfl⟩
    rw [ho]
    exact List.not_mem_nil
  | setPacketFilter | setPacketInjector | setPlayerNameProvider =>
    exact ⟨⟨h.running, h.owner, h.gone⟩, fun w => Worker.kept_of_eq rfl rfl rfl rfl⟩

theorem kept (h : Stopping s) (hl : l ≠ .owner .beginInitialize)
    (hs : System.step env s l = some s') {w : Worker} (hw : l.worker? ≠ some w) :
    Worker.Kept s.relay s'.relay w := by
  cases l with
  | caller i e =>
    obtain ⟨_, _, _, hr, -, -⟩ := System.callerStep_frame (System.step_caller hs)
    exact Worker.kept_of_eq (by rw [hr]) (by rw [hr]) (by rw [hr]) (by rw [hr])
  | publisher e =>
    obtain ⟨r, hr, rfl⟩ := System.step_publisher hs
    obtain ⟨_, _, _, _, _, rfl⟩ := ZmqRelay.publisherStep_frame hr
    cases w
    exacts [absurd rfl hw, .inl rfl, .inl ⟨rfl, rfl⟩]
  | reliable e =>
    obtain ⟨r, hr, rfl⟩ := System.step_reliable hs
    obtain ⟨_, _, rfl⟩ := ZmqRelay.reliableStep_frame hr
    cases w
    exacts [.inl rfl, absurd rfl hw, .inl ⟨rfl, rfl⟩]
  | command e =>
    obtain ⟨r, hr, hr', -⟩ := System.step_command hs
    obtain ⟨_, _, _, _, _, rfl⟩ := ZmqRelay.commandStep_frame hr
    rw [hr']
    cases w
    exacts [.inl rfl, .inl rfl, absurd rfl hw]
  | owner e => exact (h.owner_step (fun he => hl (he ▸ rfl)) (System.step_owner hs)).2 w

theorem step (h : Stopping s) (hl : l ≠ .owner .beginInitialize)
    (hs : System.step env s l = some s') : Stopping s' := by
  by_cases hown : ∃ e, l = .owner e
  · obtain ⟨e, rfl⟩ := hown
    exact (h.owner_step (fun he => hl (he ▸ rfl)) (System.step_owner hs)).1
  · obtain ⟨ho, hrun⟩ := System.step_ownerPc hs fun e he => hown ⟨e, he⟩
    refine ⟨hrun.trans h.running, by rw [ho]; exact h.owner, fun w hw => ?_⟩
    rw [ho] at hw
    have hgone := h.gone w hw
    refine (h.kept hl hs fun hl => ?_).le.2.2 hgone
    have hpos := (Worker.turn h.running hl hs).1
    rw [hgone.rank] at hpos
    exact Nat.lt_irrefl _ hpos

/-- What a worker serves is paid for from what it has left. -/
theorem spare_step (h : Stopping s) (hl : l ≠ .owner .beginInitialize)
    (hs : System.step env s l = some s') (w : Worker) :
    (decide (l.serves? = some w)).toNat + w.spare s'.relay ≤ w.spare s.relay := by
  by_cases hw : l.worker? = some w
  · exact (Worker.turn h.running hw hs).2.2
  · have hn : l.serves? ≠ some w := by
      intro hm
      rcases l with _ | e | e | e | _
      case publisher | reliable | command => cases e <;> first | exact hw hm | cases hm
      all_goals cases hm
    rw [decide_eq_false hn, Bool.toNat_false, Nat.zero_add]
    exact (h.kept hl hs hw).le.2.1

end Stopping

/-! ### From the flag to the return -/

theorem shutdown_suffix {tr : List Label} (h : Run (System.step env) {} tr s) :
    ∀ ps, s.owner = .shuttingDown ps → ps <:+ ShutdownPoint.points := by
  refine h.invariant_state
    (I := fun s => ∀ ps, s.owner = .shuttingDown ps → ps <:+ ShutdownPoint.points) (by simp) ?_
  intro s l s' ih hs ps hps
  by_cases hown : ∃ e, l = .owner e
  · obtain ⟨e, rfl⟩ := hown
    obtain ⟨r, pc, hmove, rfl⟩ := System.ownerStep_move (System.step_owner hs)
    cases hmove with
    | beginShutdown => cases hps; exact List.suffix_refl _
    | shut p qs ho => cases hps; exact (List.suffix_cons p _).trans (ih _ ho)
    | setPacketFilter | setPacketInjector | setPlayerNameProvider => exact ih ps hps
    | _ => cases hps
  · exact ih ps ((System.step_ownerPc hs fun e he => hown ⟨e, he⟩).1 ▸ hps)

theorem Stopping.of_clear {tr : List Label} (h : Run (System.step env) {} tr s)
    (hs : System.step env s (.owner (.shut .clearRunning)) = some s') :
    Stopping s' ∧ ∃ ps, s'.owner = .shuttingDown ps := by
  have hsuffix := shutdown_suffix h
  obtain ⟨r, pc, hmove, rfl⟩ := System.ownerStep_move (System.step_owner hs)
  cases hmove with
  | shut p ps ho =>
    obtain ⟨t, ht⟩ := hsuffix _ ho
    have hps : ps = [.joinPub, .joinRep, .joinPush, .resetSockets] := by
      cases t with
      | nil => exact (List.cons.inj ht).2
      | cons q t =>
        have hmem : ShutdownPoint.clearRunning ∈
            [ShutdownPoint.joinPub, .joinRep, .joinPush, .resetSockets] := by
          rw [← (List.cons.inj ht).2]
          simp
        exact absurd hmem (by decide)
    subst hps
    have hall : ∀ w : Worker,
        w.join ∈ [ShutdownPoint.joinPub, .joinRep, .joinPush, .resetSockets] := by
      intro w
      cases w <;> decide
    exact ⟨⟨rfl, by simp, fun w hw => absurd (hall w) hw⟩, _, rfl⟩

theorem Stopped.of_end (h : Stopping s) (hs : System.step env s (.owner .endShutdown) = some s') :
    Stopped s' := by
  have hstop := h.step (by simp) hs
  refine ⟨hstop, fun w => hstop.gone w ?_⟩
  obtain ⟨r, pc, hmove, rfl⟩ := System.ownerStep_move (System.step_owner hs)
  cases hmove
  exact List.not_mem_nil

theorem Stopped.silent (h : Stopped s) (hs : System.step env s l = some s') (w : Worker) :
    l.worker? ≠ some w := by
  intro hl
  have hpos := (Worker.turn h.running hl hs).1
  rw [(h.allGone w).rank] at hpos
  exact Nat.lt_irrefl _ hpos

theorem Stopped.step (h : Stopped s) (hl : l ≠ .owner .beginInitialize)
    (hs : System.step env s l = some s') : Stopped s' :=
  ⟨h.toStopping.step hl hs, fun w => (h.kept hl hs (h.silent hs w)).le.2.2 (h.allGone w)⟩

/-! ### Calls that are turned away -/

/-- No call of thread `i` is past its look at `running_`. -/
def System.Outside (s : System) (i : Nat) : Prop :=
  s.callers i = .idle ∨ ∃ packet, s.callers i = .checkRunning packet

theorem System.Outside.step {i : Nat} (h : s.Outside i) (hrun : s.relay.running = false)
    (hs : System.step env s l = some s') :
    s'.Outside i ∧ ∀ e, l = .caller i e → s'.relay = s.relay := by
  by_cases hl : ∃ e, l = .caller i e
  · obtain ⟨e, rfl⟩ := hl
    obtain ⟨r, pc, hmove, rfl⟩ := System.callerStep_move (System.step_caller hs)
    rw [System.Outside, System.setCaller_callers_self]
    rcases h with hpc | ⟨packet, hpc⟩
    · cases hmove with
      | call packet => exact ⟨.inr ⟨packet, rfl⟩, fun _ _ => rfl⟩
      | readRunning _ hpc' | readSocket _ hpc' | pass _ hpc' | drop _ hpc' | admitPacket _ _ hpc'
      | bypass _ hpc' | enqueue _ hpc' => rw [hpc] at hpc'; cases hpc'
    · cases hmove with
      | readRunning => exact ⟨.inl (by rw [hrun]; rfl), fun _ _ => rfl⟩
      | call _ hpc' | readSocket _ hpc' | pass _ hpc' | drop _ hpc' | admitPacket _ _ hpc'
      | bypass _ hpc' | enqueue _ hpc' => rw [hpc] at hpc'; cases hpc'
  · refine ⟨?_, fun e he => absurd ⟨e, he⟩ hl⟩
    have hc : s'.callers i = s.callers i := by
      cases l with
      | caller j e =>
        exact System.callerStep_callers (System.step_caller hs) fun hij => hl ⟨e, hij ▸ rfl⟩
      | _ => rw [System.step_callers hs (by simp)]
    rwa [System.Outside, hc]

theorem System.outside_of_call {i : Nat} {packet : PacketInfo}
    (hs : System.step env s (.caller i (.call packet)) = some s') : s.Outside i := by
  obtain ⟨r, pc, hmove, -⟩ := System.callerStep_move (System.step_caller hs)
  cases hmove with
  | call _ hpc => exact .inl hpc

end Kpacket
