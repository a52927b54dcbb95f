import Kpacket.Liveness
import Kpacket.Stopping

/-!
# The workers keep up

As long as the relay is up each worker gets done with all that it is given, in every schedule that
is fair to it (`Worker.drains`): every packet pushed to `publish_queue_` is resolved, every packet
admitted to `packet_queue_` is tried on the PUSH socket, every request received is replied to, each
in the order of its arrival. The two queues are channels whose consumers are the threads; a worker
that is up never comes to its end (`Worker.alive_step`).
-/

namespace Kpacket

open Lts

/-- The number of turns until the publisher is done with a packet, if there is one. -/
def PublisherPc.turns : PublisherPc → Nat
  | .exited => 0
  | .counting .. => 1
  | .sending .. => 2
  | .building _ => 3
  | .holding => 4
  | .woken => 5
  | .waiting => 6
  | .loop => 7

def ReliablePc.turns : ReliablePc → Nat
  | .exited => 0
  | .sending _ => 1
  | .holding => 2
  | .locking => 3
  | .loop => 4

/-- The number of turns until the request in hand is replied to, with `left` loads to come. -/
def CommandPc.turns (left : Nat) : CommandPc → Nat
  | .replying .. => 1
  | .processing _ => left + 2
  | _ => 0

/-- The flag is set and the process has not crashed. -/
structure System.Up (s : System) : Prop where
  running : s.relay.running = true
  crashed : s.crashed = false

namespace Worker

variable {env : Env} {r r' : ZmqRelay} {s s' : System} {l : Label} {w : Worker}

def turns (r : ZmqRelay) : Worker → Nat
  | publisher => (r.pubThread.map PublisherPc.turns).getD 0
  | reliable => (r.pushThread.map ReliablePc.turns).getD 0
  | command => (r.repThread.map (CommandPc.turns r.statsLoads.left.length)).getD 0

/-- The thread stands where it stood. -/
def Same (r r' : ZmqRelay) : Worker → Prop
  | publisher => r'.pubThread = r.pubThread
  | reliable => r'.pushThread = r.pushThread
  | command => r'.repThread = r.repThread ∧ r'.statsLoads = r.statsLoads

theorem Same.rank_eq (h : Same r r' w) : rank r' w = rank r w := by
  cases w <;> simp only [Same] at h <;> simp only [rank, h]

theorem Same.turns_eq (h : Same r r' w) : turns r' w = turns r w := by
  cases w <;> simp only [Same] at h <;> simp only [turns, h]

theorem same_of_eq (hpub : r'.pubThread = r.pubThread) (hpush : r'.pushThread = r.pushThread)
    (hrep : r'.repThread = r.repThread) (hloads : r'.statsLoads = r.statsLoads) : Same r r' w := by
  cases w
  exacts [hpub, hpush, ⟨hrep, hloads⟩]

theorem same_of_restarted {pc : Type} {rank : pc → Nat} {exited loop : pc} {old new : Option pc}
    (h : Restarted exited loop old new) (he : rank exited = 0) (hr : 0 < (old.map rank).getD 0) :
    new = old := by
  rcases h with h | ⟨rfl | rfl, -⟩
  · exact h
  · simp at hr
  · simp [he] at hr

theorem same_of_other (hs : System.step env s l = some s') (hl : l.worker? ≠ some w)
    (hr : 0 < rank s.relay w) : Same s.relay s'.relay w := by
  rcases l with ⟨i, e⟩ | e | e | e | e
  case caller =>
    obtain ⟨_, _, _, h, -, -⟩ := System.callerStep_frame (System.step_caller hs)
    exact same_of_eq (by rw [h]) (by rw [h]) (by rw [h]) (by rw [h])
  case publisher =>
    obtain ⟨r, h, rfl⟩ := System.step_publisher hs
    obtain ⟨_, _, _, _, _, rfl⟩ := ZmqRelay.publisherStep_frame h
    cases w
    exacts [absurd rfl hl, rfl, ⟨rfl, rfl⟩]
  case reliable =>
    obtain ⟨r, h, rfl⟩ := System.step_reliable hs
    obtain ⟨_, _, rfl⟩ := ZmqRelay.reliableStep_frame h
    cases w
    exacts [rfl, absurd rfl hl, ⟨rfl, rfl⟩]
  case command =>
    obtain ⟨r, h, h', -⟩ := System.step_command hs
    obtain ⟨_, _, _, _, _, rfl⟩ := ZmqRelay.commandStep_frame h
    rw [h']
    cases w
    exacts [rfl, rfl, absurd rfl hl]
  case owner =>
    obtain ⟨_, _, _, _, _, _, _, _, _, _, _, h, hpub, hrep, hpush⟩ :=
      System.ownerStep_frame (System.step_owner hs)
    rw [h]
    cases w with
    | publisher => exact same_of_restarted hpub rfl hr
    | reliable => exact same_of_restarted hpush rfl hr
    | command => exact ⟨same_of_restarted hrep rfl hr, rfl⟩

/-! ### A worker of a relay that is up -/

theorem publisher_alive {e : PublisherEvent} (hrun : r.running = true)
    (h : r.publisherStep env e = some r') : 0 < rank r' publisher := by
  cases e <;> simp only [ZmqRelay.publisherStep, Option.ite_none_right_eq_some,
    Option.some.injEq] at h <;> obtain ⟨-, rfl⟩ := h <;> simp [rank, hrun, PublisherPc.rank]

theorem reliable_alive {e : ReliableEvent} (hrun : r.running = true)
    (h : r.reliableStep env e = some r') : 0 < rank r' reliable := by
  cases e <;> simp only [ZmqRelay.reliableStep, Option.ite_none_right_eq_some,
    Option.some.injEq] at h <;> obtain ⟨-, rfl⟩ := h <;> simp [rank, hrun, ReliablePc.rank]

theorem command_alive {e : CommandEvent} (hrun : r.running = true)
    (h : r.commandStep env e = some r') : 0 < rank r' command := by
  cases ZmqRelay.commandStep_move h with
  | load _ _ ht | undefinedLookup _ _ ht => simp [rank, ht, CommandPc.rank]
  | _ => simp [rank, hrun, CommandPc.rank]

theorem alive_step (hrun : s.relay.running = true) (hs : System.step env s l = some s')
    (hr : 0 < rank s.relay w) : 0 < rank s'.relay w := by
  by_cases hl : l.worker? = some w
  · rcases l with _ | e | e | e | _
    case publisher =>
      cases hl
      obtain ⟨r, h, rfl⟩ := System.step_publisher hs
      exact publisher_alive hrun h
    case reliable =>
      cases hl
      obtain ⟨r, h, rfl⟩ := System.step_reliable hs
      exact reliable_alive hrun h
    case command =>
      cases hl
      obtain ⟨r, h, h', -⟩ := System.step_command hs
      rw [h']
      exact command_alive hrun h
    all_goals cases hl
  · rw [(same_of_other hs hl hr).rank_eq]
    exact hr

/-- The relay is up and the thread has not come to its end. -/
structure Alive (w : Worker) (s : System) : Prop extends s.Up where
  alive : 0 < rank s.relay w

/-! ### The queues -/

/-- The publish queue with what the publisher has in hand. -/
def pubChannel (s : System) : Channel.State PacketInfo := s.relay.sequencer.channel

def pubChannelEvent? (l : Label) : Option (Channel.Event PacketInfo) :=
  l.pubEvent?.bind Sequencer.Event.channel?

theorem pubChannel_simulation (env : Env) :
    Simulation (System.step env) Channel.step pubChannel pubChannelEvent? :=
  (PubStream.simulation env).comp Sequencer.simulation

theorem pushed_pubChannel (tr : List Label) :
    Channel.pushed (tr.filterMap pubChannelEvent?) = PubStream.pushed tr := by
  rw [← PubStream.pushed_pubEvents, Sequencer.pushed, List.filterMap_filterMap]
  rfl

theorem finished_pubChannel (tr : List Label) :
    Channel.finished (tr.filterMap pubChannelEvent?) = (PubStream.resolved tr).map Prod.fst := by
  rw [← PubStream.resolved_pubEvents, ← Sequencer.finished_eq, List.filterMap_filterMap]
  rfl

theorem publisher_serves {e : PublisherEvent} (hrun : r.running = true)
    (h : r.publisherStep env e = some r') (hheld : r.sequencer.channel.held ≠ []) :
    (∃ x, pubChannelEvent? (.publisher e) = some (.finish x)) ∨
      turns r' publisher < turns r publisher := by
  cases e with
  | count packet | fail packet => exact .inl ⟨packet, rfl⟩
  | loop | wake | check =>
    simp only [ZmqRelay.publisherStep, Option.ite_none_right_eq_some, Option.some.injEq] at h
    obtain ⟨ht, rfl⟩ := h
    exact .inr (by simp [turns, ht, hrun, PublisherPc.turns])
  | empty =>
    simp only [ZmqRelay.publisherStep, Option.ite_none_right_eq_some, Option.some.injEq] at h
    obtain ⟨⟨ht, hq⟩, rfl⟩ := h
    refine absurd ?_ hheld
    simp [Channel.State.held, Sequencer.State.channel, ZmqRelay.sequencer, ht, hq,
      PublisherPc.work, Sequencer.Work.item]
  | pop | assign | send =>
    simp only [ZmqRelay.publisherStep, Option.ite_none_right_eq_some, Option.some.injEq] at h
    obtain ⟨⟨ht, -⟩, rfl⟩ := h
    exact .inr (by simp [turns, ht, PublisherPc.turns])

theorem reliable_serves {e : ReliableEvent} (hrun : r.running = true)
    (h : r.reliableStep env e = some r') (hheld : r.pushChannel.held ≠ []) :
    (∃ x, (Label.reliable e).pushEvent? = some (.finish x)) ∨
      turns r' reliable < turns r reliable := by
  cases e with
  | send packet => exact .inl ⟨packet, rfl⟩
  | loop | lock =>
    simp only [ZmqRelay.reliableStep, Option.ite_none_right_eq_some, Option.some.injEq] at h
    obtain ⟨ht, rfl⟩ := h
    exact .inr (by simp [turns, ht, hrun, ReliablePc.turns])
  | empty =>
    simp only [ZmqRelay.reliableStep, Option.ite_none_right_eq_some, Option.some.injEq] at h
    obtain ⟨⟨ht, hq⟩, rfl⟩ := h
    refine absurd ?_ hheld
    simp [Channel.State.held, ZmqRelay.pushChannel, ZmqRelay.pushInFlight, ht, hq,
      ReliablePc.packet]
  | pop =>
    simp only [ZmqRelay.reliableStep, Option.ite_none_right_eq_some, Option.some.injEq] at h
    obtain ⟨⟨ht, -⟩, rfl⟩ := h
    exact .inr (by simp [turns, ht, ReliablePc.turns])

theorem publisher_consumer (hd : LawfulDump env.json.dump) :
    Channel.Consumer (System.step env) pubChannel pubChannelEvent?
      (fun l => l.worker? = some publisher) (fun s => turns s.relay publisher)
      (Alive publisher) where
  turn s l s' hI hs hl hheld := by
    rcases l with _ | e | _ | _ | _
    case publisher =>
      obtain ⟨r, h, rfl⟩ := System.step_publisher hs
      exact publisher_serves hI.running h hheld
    all_goals cases hl
  other s l s' hI hs hl := Nat.le_of_eq (same_of_other hs hl hI.alive).turns_eq
  ready s hI _ := ready hd hI.crashed hI.alive

theorem reliable_consumer (hd : LawfulDump env.json.dump) :
    Channel.Consumer (System.step env) (fun s => s.relay.pushChannel) Label.pushEvent?
      (fun l => l.worker? = some reliable) (fun s => turns s.relay reliable) (Alive reliable) where
  turn s l s' hI hs hl hheld := by
    rcases l with _ | _ | e | _ | _
    case reliable =>
      obtain ⟨r, h, rfl⟩ := System.step_reliable hs
      exact reliable_serves hI.running h hheld
    all_goals cases hl
  other s l s' hI hs hl := Nat.le_of_eq (same_of_other hs hl hI.alive).turns_eq
  ready s hI _ := ready hd hI.crashed hI.alive

/-! ### Requests -/

theorem pending_of_turns (hz : turns r command = 0) :
    CommandRuns.inHand CommandPc.pending r = [] := by
  cases ht : r.repThread with
  | none => simp [CommandRuns.inHand, ht]
  | some pc =>
    cases pc <;>
      simp [turns, ht, CommandPc.turns, CommandRuns.inHand, CommandPc.pending] at hz ⊢

theorem command_serves {e : CommandEvent} (hs : System.step env s (.command e) = some s')
    (hc : s'.crashed = false) (hpos : 0 < turns s.relay command) :
    turns s'.relay command < turns s.relay command := by
  obtain ⟨r, h, h', -⟩ := System.step_command hs
  rw [h']
  cases ZmqRelay.commandStep_move h with
  | loop ht | receiveNone ht | receive _ ht | count _ _ ht =>
    simp [turns, ht, CommandPc.turns] at hpos
  | load _ _ ht _ hf =>
    obtain ⟨left, hleft⟩ := List.head?_eq_some_iff.mp hf
    simp [turns, ht, hleft, CommandPc.turns]
  | process _ _ _ _ _ ht | reply _ _ ht => simp [turns, ht, CommandPc.turns]
  | undefinedLookup =>
    unfold System.step at hs
    split_ifs at hs
    obtain ⟨_, _, rfl⟩ := Option.map_eq_some_iff.mp hs
    cases hc

/-! ### Schedules -/

/-- What the worker is given by instant `k` it has got done with some instant later. -/
def Drains (c : Schedule (System.step env) {}) : Worker → Prop
  | publisher => ∀ k, ∃ m, k ≤ m ∧ PubStream.pushed (c.labels 0 k) <+:
      (PubStream.resolved (c.labels 0 m)).map Prod.fst
  | reliable => ∀ k, ∃ m, k ≤ m ∧ PushStream.admitted (c.labels 0 k) <+:
      (PushStream.attempts (c.labels 0 m)).map Prod.fst
  | command => ∀ k, ∃ m, k ≤ m ∧ CommandRuns.received (c.labels 0 k) <+:
      (CommandRuns.replied (c.labels 0 m)).map Prod.fst

section

variable {c : Schedule (System.step env) {}} {n : Nat} (hup : ∀ m, n ≤ m → (c.state m).Up)
include hup

theorem alive_from (halive : 0 < rank (c.state n).relay w) : ∀ m, n ≤ m → Alive w (c.state m) := by
  have h : ∀ m, n ≤ m → 0 < rank (c.state m).relay w := by
    refine c.invariant (I := fun s => 0 < rank s.relay w) halive ?_
    intro m l hm hl hr
    exact alive_step (hup m hm).running (c.move m l hl) hr
  exact fun m hm => ⟨hup m hm, h m hm⟩

theorem command_idle (hd : LawfulDump env.json.dump)
    (halive : 0 < rank (c.state n).relay command)
    (hfair : c.Fair fun l => l.worker? = some command) {k : Nat} (hk : n ≤ k) :
    ∃ m, k ≤ m ∧ turns (c.state m).relay command = 0 := by
  have hI := alive_from hup halive
  refine Schedule.eventually (P := fun m => turns (c.state m).relay command = 0)
    (f := fun s => turns s.relay command) hfair ?_ ?_ ?_
  · intro m l hm hl hp
    rcases Nat.eq_zero_or_pos (turns (c.state m).relay command) with hz | hpos
    · exact .inl hz
    · rcases l with _ | _ | _ | e | _
      case command =>
        have hc := (hup (m + 1) (by omega)).crashed
        exact .inr (.inr (command_serves (c.move m _ hl) hc hpos))
      all_goals cases hp
  · intro m l hm hl hp
    exact .inr (.inr (Nat.le_of_eq
      (same_of_other (c.move m l hl) hp (hI m (Nat.le_trans hk hm)).alive).turns_eq))
  · intro m hm
    have hm' := hI m (Nat.le_trans hk hm)
    exact .inr (ready hd hm'.crashed hm'.alive)

/-- A worker that gets its turns gets done with everything, in order, as long as the relay stays
up. -/
theorem drains (hd : LawfulDump env.json.dump) (halive : 0 < rank (c.state n).relay w)
    (hfair : c.Fair fun l => l.worker? = some w) : w.Drains c := by
  have hI := alive_from hup halive
  cases w with
  | publisher =>
    intro k
    obtain ⟨m, hm, hp⟩ := (publisher_consumer hd).serves (pubChannel_simulation env) rfl hfair hI k
    rw [pushed_pubChannel, finished_pubChannel] at hp
    exact ⟨m, hm, hp⟩
  | reliable =>
    intro k
    obtain ⟨m, hm, hp⟩ := (reliable_consumer hd).serves (PushStream.simulation env) rfl hfair hI k
    rw [PushStream.pushed_pushEvents, PushStream.finished_pushEvents] at hp
    exact ⟨m, hm, hp⟩
  | command =>
    intro k
    obtain ⟨m, hm, hz⟩ := command_idle hup hd halive hfair (Nat.le_max_left n k)
    have hkm := Nat.le_trans (Nat.le_max_right n k) hm
    have horder := (CommandRuns.ledger (c.run_start m)).order
    rw [pending_of_turns hz, List.append_nil] at horder
    refine ⟨m, hkm, ?_⟩
    rw [← horder]
    exact (c.labels_prefix hkm).filterMap _

end

end Worker

/-! ### A relay that idles for ever -/

namespace System

variable {env : Env} {s s' : System} {l : Label}

theorem Up.step (h : s.Up) (hs : step env s l = some s') (hl : l ≠ .owner (.shut .clearRunning))
    (hu : ∀ uptime request, l ≠ .command (.undefinedLookup uptime request)) : s'.Up := by
  refine ⟨?_, step_crashed hs hu⟩
  by_cases ho : ∃ e, l = .owner e
  · obtain ⟨e, rfl⟩ := ho
    obtain ⟨r, pc, hmove, rfl⟩ := ownerStep_move (step_owner hs)
    cases hmove with
    | init p => cases p <;> first | exact h.running | rfl
    | shut p =>
      cases p
      case clearRunning => exact absurd rfl hl
      all_goals exact h.running
    | _ => exact h.running
  · rw [(step_ownerPc hs fun e he => ho ⟨e, he⟩).2]
    exact h.running

/-- One look of each worker at its empty queue, or at its socket. -/
def idleEvents : List Label :=
  [.publisher .loop, .publisher .wake, .publisher .check, .publisher .empty, .reliable .loop,
    .reliable .lock, .reliable .empty, .command .loop, .command (.receive none)]

/-- The workers are between two rounds and have nothing to do. -/
structure Settled (s : System) : Prop extends s.Up where
  pubThread : s.relay.pubThread = some .loop
  pushThread : s.relay.pushThread = some .loop
  repThread : s.relay.repThread = some .loop
  publishQueue : s.relay.publishQueue = []
  packetQueue : s.relay.packetQueue = []

theorem Settled.exec_idle (env : Env) (h : s.Settled) : exec (step env) s idleEvents = some s := by
  obtain ⟨r, callers, owner, crashed⟩ := s
  obtain ⟨context, pub, rep, push, running, pubThread, repThread, pushThread, packets, publish,
    filter, injector, name, next, stats, loads⟩ := r
  obtain rfl : running = true := h.running
  obtain rfl : crashed = false := h.crashed
  obtain rfl : pubThread = some .loop := h.pubThread
  obtain rfl : pushThread = some .loop := h.pushThread
  obtain rfl : repThread = some .loop := h.repThread
  obtain rfl : publish = [] := h.publishQueue
  obtain rfl : packets = [] := h.packetQueue
  simp [idleEvents, exec, step, ZmqRelay.publisherStep, ZmqRelay.reliableStep,
    ZmqRelay.commandStep]

theorem Settled.alive (h : s.Settled) (w : Worker) : 0 < w.rank s.relay := by
  cases w with
  | publisher => simp [Worker.rank, h.pubThread, PublisherPc.rank]
  | reliable => simp [Worker.rank, h.pushThread, ReliablePc.rank]
  | command => simp [Worker.rank, h.repThread, CommandPc.rank]

/-- From instant `n` on the workers look at their empty queues for ever. -/
structure Idles (c : Schedule (step env) {}) (n : Nat) : Prop where
  labels : ∀ m l, n ≤ m → c.label m = some l → l ∈ idleEvents
  again : ∀ l ∈ idleEvents, ∀ k, ∃ m, k ≤ m ∧ c.label m = some l

theorem Idles.up {c : Schedule (step env) {}} {n : Nat} (h : Idles c n) (hn : (c.state n).Up) :
    ∀ m, n ≤ m → (c.state m).Up := by
  refine c.invariant hn ?_
  intro m l hm hl hup
  have hmem := h.labels m l hm hl
  refine hup.step (c.move m l hl) (fun he => ?_) fun uptime request he => ?_
  all_goals
    subst he
    simp [idleEvents] at hmem

theorem Idles.fair {c : Schedule (step env) {}} {n : Nat} (h : Idles c n) {party : Label → Prop}
    {l : Label} (hl : l ∈ idleEvents) (hp : party l) : c.Fair party := by
  intro k
  obtain ⟨m, hm, hlabel⟩ := h.again l hl k
  exact ⟨m, hm, .inl ⟨l, hlabel, hp⟩⟩

theorem Idles.fair_worker {c : Schedule (step env) {}} {n : Nat} (h : Idles c n) (w : Worker) :
    c.Fair fun l => l.worker? = some w := by
  cases w with
  | publisher => exact h.fair (l := .publisher .loop) (by simp [idleEvents]) rfl
  | reliable => exact h.fair (l := .reliable .loop) (by simp [idleEvents]) rfl
  | command => exact h.fair (l := .command .loop) (by simp [idleEvents]) rfl

theorem Settled.schedule {tr : List Label} (hr : Run (step env) {} tr s) (h : s.Settled) :
    ∃ c : Schedule (step env) {}, c.labels 0 tr.length = tr ∧ c.state tr.length = s ∧
      Idles c tr.length := by
  have hne : idleEvents ≠ [] := by simp [idleEvents]
  refine ⟨Schedule.after hr.exec_eq (Schedule.cycle idleEvents (h.exec_idle env) hne),
    Schedule.labels_after, ?_, fun m l hm hl => ?_, fun l hl k => ?_⟩
  · rw [← Nat.add_zero tr.length, Schedule.state_after, Schedule.start]
  · obtain ⟨k, rfl⟩ := Nat.exists_eq_add_of_le hm
    exact Schedule.mem_of_label_cycle ((Schedule.label_after k).symm.trans hl)
  · obtain ⟨m, hm, hlabel⟩ : ∃ m, k ≤ m ∧
        (Schedule.cycle idleEvents (h.exec_idle env) hne).label m = some l :=
      Schedule.label_cycle_again hl k
    exact ⟨tr.length + m, by omega, (Schedule.label_after m).trans hlabel⟩

theorem settled_login : ∃ tr s, Run (step (defaultEnv id)) {} tr s ∧ s.Settled ∧
    PubStream.pushed tr = [loginPacket] ∧ PushStream.admitted tr = [loginPacket] := by
  obtain ⟨frames, hm⟩ := message_ok (defaultEnv id) loginPacket 1 (lawfulDump_defaultEnv id)
    (by decide) (by decide) (by decide) (by decide)
  have hr := (Run.of_exec (exec_started id none)).append (Run.of_exec (exec_call (defaultEnv id)
    (s := { relay := startedRelay }) rfl (i := 0) rfl loginPacket rfl rfl))
  have hr := hr.append
    (Run.of_exec (exec_publish (defaultEnv id) loginPacket [] rfl rfl rfl rfl hm))
  have hr := hr.append (Run.of_exec
    (exec_push (defaultEnv id) loginPacket [] rfl rfl rfl rfl
      (show sendable (defaultEnv id) loginPacket .thrown = true from rfl)))
  exact ⟨_, _, hr, ⟨⟨rfl, rfl⟩, rfl, rfl, rfl, rfl, rfl⟩, rfl, rfl⟩

end System

/-- One packet, and then the workers go round for ever. -/
theorem Worker.drains_login : ∃ c : Schedule (System.step (defaultEnv id)) {},
    (∀ w : Worker, w.Drains c) ∧ ∃ k, PubStream.pushed (c.labels 0 k) = [loginPacket] ∧
      PushStream.admitted (c.labels 0 k) = [loginPacket] := by
  obtain ⟨tr, s, hr, hs, hp, ha⟩ := System.settled_login
  obtain ⟨c, hlabels, hstate, hidles⟩ := hs.schedule hr
  refine ⟨c, fun w => ?_, tr.length, by rw [hlabels, hp], by rw [hlabels, ha]⟩
  have hup := hidles.up (by rw [hstate]; exact hs.toUp)
  refine w.drains hup (lawfulDump_defaultEnv id) ?_ (hidles.fair_worker w)
  rw [hstate]
  exact hs.alive w

end Kpacket
