import Kpacket.Rounds
import Kpacket.Sequencer
import Kpacket.WireModes

/-!
# The PUB stream

The publish queue and `PublisherThread` are a sequencer (`simulation`): `PublishPacket` pushes, the
thread takes, numbers, sends and counts. `Accounted` says what has become of every packet in a run
of the whole relay, across any number of restarts, and is read off the sequencer's ledger
(`accounted`). The counters have 64 bits: after 2^64 packets the message ids start over
(`messageIds_wrap`).
-/

namespace Kpacket

open Lts

/-- What the publisher has in hand. -/
def PublisherPc.work : PublisherPc → Sequencer.Work PacketInfo
  | .building packet => .taken packet
  | .sending packet messageId => .stamped packet messageId
  | .counting packet messageId => .emitted packet messageId
  | _ => .idle

def ZmqRelay.sequencer (r : ZmqRelay) : Sequencer.State PacketInfo where
  queue := r.publishQueue
  work := (r.pubThread.map PublisherPc.work).getD .idle
  next := r.nextMessageId
  emitted := r.stats.packetsPublished
  failed := r.stats.pubSendErrors

def Label.pubEvent? : Label → Option (Sequencer.Event PacketInfo)
  | .caller _ (.enqueue packet) => some (.push packet)
  | .publisher (.pop packet) => some (.take packet)
  | .publisher (.assign packet messageId) => some (.stamp packet messageId)
  | .publisher (.send packet messageId _) => some (.emit packet messageId)
  | .publisher (.count packet messageId) => some (.count packet messageId)
  | .publisher (.fail packet messageId) => some (.fail packet messageId)
  | _ => none

namespace PubStream

variable {env : Env} {s s' : System} {r r' : ZmqRelay}

/-! ### The sequencer of a run -/

theorem reliableStep_sequencer {e : ReliableEvent} (h : r.reliableStep env e = some r') :
    r'.sequencer = r.sequencer := by
  obtain ⟨_, _, rfl⟩ := ZmqRelay.reliableStep_frame h
  rfl

theorem commandStep_sequencer {e : CommandEvent} (h : r.commandStep env e = some r') :
    r'.sequencer = r.sequencer := by
  obtain ⟨_, _, _, _, _, rfl⟩ := ZmqRelay.commandStep_frame h
  rfl

theorem ownerStep_sequencer {e : OwnerEvent} (h : s.ownerStep env e = some s') :
    s'.relay.sequencer = s.relay.sequencer := by
  obtain ⟨_, _, _, _, _, pubThread, _, _, _, _, _, hr, hpub, -, -⟩ := System.ownerStep_frame h
  have hwork : (pubThread.map PublisherPc.work).getD .idle =
      (s.relay.pubThread.map PublisherPc.work).getD .idle := by
    rcases hpub with rfl | ⟨hold | hold, rfl | rfl⟩
    · rfl
    all_goals simp [hold, PublisherPc.work]
  simp only [ZmqRelay.sequencer, hr, hwork]

theorem callerStep_sequencer {i : Nat} {e : CallerEvent} (h : s.callerStep env i e = some s') :
    s'.relay.sequencer = { s.relay.sequencer with
      queue := s.relay.sequencer.queue ++ e.enqueued?.toList } := by
  obtain ⟨_, _, _, hr, -, rfl⟩ := System.callerStep_frame h
  simp only [ZmqRelay.sequencer, hr]

theorem publisherStep_sequencer {e : PublisherEvent} (h : r.publisherStep env e = some r') :
    match (Label.publisher e).pubEvent? with
    | some b => Sequencer.step r.sequencer b = some r'.sequencer
    | none => r'.sequencer = r.sequencer := by
  cases e with
  | loop | check =>
    simp only [ZmqRelay.publisherStep, Option.ite_none_right_eq_some, Option.some.injEq] at h
    obtain ⟨ht, rfl⟩ := h
    cases hr : r.running <;> simp [Label.pubEvent?, ZmqRelay.sequencer, ht, PublisherPc.work]
  | wake =>
    simp only [ZmqRelay.publisherStep, Option.ite_none_right_eq_some, Option.some.injEq] at h
    obtain ⟨ht, rfl⟩ := h
    simp [Label.pubEvent?, ZmqRelay.sequencer, ht, PublisherPc.work]
  | empty =>
    simp only [ZmqRelay.publisherStep, Option.ite_none_right_eq_some, Option.some.injEq] at h
    obtain ⟨⟨ht, -⟩, rfl⟩ := h
    simp [Label.pubEvent?, ZmqRelay.sequencer, ht, PublisherPc.work]
  | pop packet | assign packet messageId =>
    simp only [ZmqRelay.publisherStep, Option.ite_none_right_eq_some, Option.some.injEq] at h
    obtain ⟨⟨ht, hq⟩, rfl⟩ := h
    simp [Label.pubEvent?, Sequencer.step, ZmqRelay.sequencer, ht, hq, PublisherPc.work]
  | send packet messageId frames =>
    simp only [ZmqRelay.publisherStep, Option.ite_none_right_eq_some, Option.some.injEq] at h
    obtain ⟨⟨ht, -⟩, rfl⟩ := h
    simp [Label.pubEvent?, Sequencer.step, ZmqRelay.sequencer, ht, PublisherPc.work]
  | count packet messageId | fail packet messageId =>
    simp only [ZmqRelay.publisherStep, Option.ite_none_right_eq_some, Option.some.injEq] at h
    obtain ⟨ht, rfl⟩ := h
    simp [Label.pubEvent?, Sequencer.step, ZmqRelay.sequencer, ht, PublisherPc.work]

/-- Every step of the relay is a step of the sequencer or leaves it alone. -/
theorem step_sequencer {l : Label} (h : System.step env s l = some s') :
    match l.pubEvent? with
    | some b => Sequencer.step s.relay.sequencer b = some s'.relay.sequencer
    | none => s'.relay.sequencer = s.relay.sequencer := by
  cases l with
  | caller i e =>
    have hc := callerStep_sequencer (System.step_caller h)
    cases e with
    | enqueue packet => rw [hc]; rfl
    | _ => rw [hc]; simp [Label.pubEvent?, CallerEvent.enqueued?]
  | publisher e =>
    obtain ⟨r, hr, rfl⟩ := System.step_publisher h
    exact publisherStep_sequencer hr
  | reliable e =>
    obtain ⟨r, hr, rfl⟩ := System.step_reliable h
    exact reliableStep_sequencer hr
  | command e =>
    obtain ⟨r, hr, rfl, -⟩ := System.step_command h
    exact commandStep_sequencer hr
  | owner e => exact ownerStep_sequencer (System.step_owner h)

theorem simulation (env : Env) : Simulation (System.step env) Sequencer.step
    (fun s => s.relay.sequencer) Label.pubEvent? where
  visible s l s' b h hb := by simpa only [hb] using step_sequencer h
  hidden s l s' h hb := by simpa only [hb] using step_sequencer h

end PubStream

/-! ### Callers -/

/-- The packet of a call that has passed the filter and is not enqueued yet. -/
def CallerPc.passed : CallerPc → Option PacketInfo
  | .admitting packet | .enqueueing packet => some packet
  | _ => none

/-- What a step of caller `i` contributes to a history. -/
def Label.by? {β : Type} (i : Nat) (g : CallerEvent → Option β) : Label → Option β
  | .caller j e => if j = i then g e else none
  | _ => none

/-- What passes the filter in a call of caller `i`. -/
def Label.passed? (i : Nat) : Label → Option PacketInfo
  | .caller j e => if j = i then e.passed? else none
  | _ => none

/-- What caller `i` pushes. -/
def Label.enqueued? (i : Nat) : Label → Option PacketInfo
  | .caller j e => if j = i then e.enqueued? else none
  | _ => none

namespace PubStream

variable {env : Env} {s s' : System} {tr : List Label}

theorem callerStep_passed {i : Nat} {e : CallerEvent} (h : s.callerStep env i e = some s') :
    (s.callers i).passed.toList ++ e.passed?.toList =
      e.enqueued?.toList ++ (s'.callers i).passed.toList := by
  obtain ⟨r, pc, hmove, rfl⟩ := System.callerStep_move h
  rw [System.setCaller_callers_self]
  cases hmove with
  | readRunning _ hpc | readSocket _ hpc =>
    rw [hpc]
    split_ifs <;> rfl
  | call _ hpc | pass _ hpc | drop _ hpc | admitPacket _ _ hpc | bypass _ hpc | enqueue _ hpc =>
    rw [hpc]
    rfl

theorem caller_account {β : Type} {f g : CallerEvent → Option β} {inHand : CallerPc → Option β}
    (h0 : inHand .idle = none)
    (hstep : ∀ {s s' : System} {i : Nat} {e : CallerEvent}, s.callerStep env i e = some s' →
      (inHand (s.callers i)).toList ++ (f e).toList =
        (g e).toList ++ (inHand (s'.callers i)).toList)
    (h : Run (System.step env) {} tr s) (i : Nat) :
    tr.filterMap (Label.by? i f) =
      tr.filterMap (Label.by? i g) ++ (inHand (s.callers i)).toList := by
  induction h with
  | nil => simp [h0]
  | @snoc tr s s' l _ hs ih =>
    rw [filterMap_snoc, filterMap_snoc, ih, List.append_assoc, List.append_assoc]
    congr 1
    cases l with
    | caller j e =>
      have hc := System.step_caller hs
      by_cases hj : j = i
      · subst hj
        simpa only [Label.by?, if_true] using hstep hc
      · rw [System.callerStep_callers hc (Ne.symm hj)]
        simp [Label.by?, hj]
    | _ =>
      rw [System.step_callers hs (by simp)]
      simp [Label.by?]

theorem passed_eq (h : Run (System.step env) {} tr s) (i : Nat) :
    tr.filterMap (Label.passed? i) =
      tr.filterMap (Label.enqueued? i) ++ (s.callers i).passed.toList :=
  caller_account rfl callerStep_passed h i

end PubStream

/-! ### The account of a run -/

structure SentMessage where
  packet : PacketInfo
  messageId : UInt64
  frames : List Bytes
deriving DecidableEq

def Label.pushed? : Label → Option PacketInfo
  | .caller _ e => e.enqueued?
  | _ => none

def Label.taken? : Label → Option PacketInfo
  | .publisher (.pop packet) => some packet
  | _ => none

def Label.sent? : Label → Option SentMessage
  | .publisher (.send packet messageId frames) => some ⟨packet, messageId, frames⟩
  | _ => none

/-- The end of the work on a packet: with its id if it was sent, without one if an exception was
caught. -/
def Label.resolved? : Label → Option (PacketInfo × Option UInt64)
  | .publisher (.count packet messageId) => some (packet, some messageId)
  | .publisher (.fail packet _) => some (packet, none)
  | _ => none

namespace PubStream

def pushed (tr : List Label) : List PacketInfo := tr.filterMap Label.pushed?
def taken (tr : List Label) : List PacketInfo := tr.filterMap Label.taken?
def sent (tr : List Label) : List SentMessage := tr.filterMap Label.sent?
def resolved (tr : List Label) : List (PacketInfo × Option UInt64) := tr.filterMap Label.resolved?

def succeeded (tr : List Label) : List (PacketInfo × UInt64) :=
  (resolved tr).filterMap fun r => r.2.map fun messageId => (r.1, messageId)

def failed (tr : List Label) : List PacketInfo :=
  (resolved tr).filterMap fun r => if r.2.isNone then some r.1 else none

end PubStream

/-- The packet that the publisher has taken and not resolved. -/
def ZmqRelay.inFlight (r : ZmqRelay) : Option PacketInfo := r.sequencer.work.item

/-- The packet that is sent and not counted yet. -/
def ZmqRelay.uncounted (r : ZmqRelay) : Option (PacketInfo × UInt64) := r.sequencer.work.emission

/-- What has become of the packets in a run from a new relay. -/
structure Accounted (env : Env) (tr : List Label) (s : System) : Prop where
  callers : ∀ i, tr.filterMap (Label.passed? i) =
    tr.filterMap (Label.enqueued? i) ++ (s.callers i).passed.toList
  queue : PubStream.pushed tr = PubStream.taken tr ++ s.relay.publishQueue
  resolved : PubStream.taken tr =
    (PubStream.resolved tr).map Prod.fst ++ s.relay.inFlight.toList
  sent : (PubStream.sent tr).map (fun m => (m.packet, m.messageId)) =
    PubStream.succeeded tr ++ s.relay.uncounted.toList
  frames : ∀ m ∈ PubStream.sent tr, message env m.packet m.messageId = .ok m.frames
  published : s.relay.stats.packetsPublished = .ofNat (PubStream.succeeded tr).length
  errors : s.relay.stats.pubSendErrors = .ofNat (PubStream.failed tr).length
  increasing : (PubStream.taken tr).length < 2 ^ 64 →
    ((PubStream.sent tr).map SentMessage.messageId).Pairwise (· < ·)
  total : (PubStream.taken tr).length < 2 ^ 64 →
    (PubStream.pushed tr).length =
      s.relay.stats.packetsPublished.toNat + s.relay.stats.pubSendErrors.toNat +
        s.relay.inFlight.toList.length + s.relay.publishQueue.length

namespace PubStream

/-! ### Histories of the relay and of the sequencer -/

variable (tr : List Label)

theorem pushed_pubEvents : Sequencer.pushed (tr.filterMap Label.pubEvent?) = pushed tr := by
  rw [Sequencer.pushed, Channel.pushed, List.filterMap_filterMap, List.filterMap_filterMap, pushed]
  congr 1
  funext l
  cases l <;> first | rfl | (rename_i e; cases e <;> rfl)

theorem taken_pubEvents : Sequencer.taken (tr.filterMap Label.pubEvent?) = taken tr := by
  rw [Sequencer.taken, Channel.taken, List.filterMap_filterMap, List.filterMap_filterMap, taken]
  congr 1
  funext l
  cases l <;> first | rfl | (rename_i e; cases e <;> rfl)

theorem resolved_pubEvents : Sequencer.resolved (tr.filterMap Label.pubEvent?) = resolved tr := by
  rw [Sequencer.resolved, List.filterMap_filterMap, resolved]
  congr 1
  funext l
  cases l <;> first | rfl | (rename_i e; cases e <;> rfl)

theorem emissions_pubEvents : Sequencer.emissions (tr.filterMap Label.pubEvent?) =
    (sent tr).map fun m => (m.packet, m.messageId) := by
  rw [Sequencer.emissions, List.filterMap_filterMap, sent, List.map_filterMap]
  congr 1
  funext l
  cases l <;> first | rfl | (rename_i e; cases e <;> rfl)

theorem succeeded_pubEvents :
    Sequencer.succeeded (tr.filterMap Label.pubEvent?) = succeeded tr := by
  rw [Sequencer.succeeded_eq, resolved_pubEvents, succeeded]

theorem failures_pubEvents : Sequencer.failures (tr.filterMap Label.pubEvent?) = failed tr := by
  rw [Sequencer.failures_eq, resolved_pubEvents, failed]

variable {tr} {env : Env} {s : System}

theorem run_sequencer (h : Run (System.step env) {} tr s) :
    Run Sequencer.step {} (tr.filterMap Label.pubEvent?) s.relay.sequencer :=
  h.simulate (simulation env)

theorem pushed_eq (h : Run (System.step env) {} tr s) :
    pushed tr = taken tr ++ s.relay.publishQueue := by
  have hp := Sequencer.pushed_eq (run_sequencer h)
  rwa [pushed_pubEvents, taken_pubEvents] at hp

theorem taken_eq (h : Run (System.step env) {} tr s) :
    taken tr = (resolved tr).map Prod.fst ++ s.relay.inFlight.toList := by
  have ht := Sequencer.taken_eq (run_sequencer h)
  rwa [taken_pubEvents, resolved_pubEvents] at ht

theorem message_of_sent (h : Run (System.step env) {} tr s) :
    ∀ m ∈ sent tr, message env m.packet m.messageId = .ok m.frames := by
  refine h.invariant
    (I := fun tr _ => ∀ m ∈ sent tr, message env m.packet m.messageId = .ok m.frames)
    (by simp [sent]) fun tr s l s' _ ih hs m hm => ?_
  rw [sent, filterMap_snoc, List.mem_append] at hm
  rcases hm with hm | hm
  · exact ih m hm
  · obtain hl := Option.mem_toList.mp hm
    cases l with
    | publisher e =>
      cases e with
      | send packet messageId frames =>
        cases hl
        obtain ⟨r, hr, -⟩ := System.step_publisher hs
        simp only [ZmqRelay.publisherStep, Option.ite_none_right_eq_some] at hr
        cases hd : message env packet messageId with
        | ok fs => rw [hd] at hr; cases hr.1.2; rfl
        | error what => rw [hd] at hr; cases hr.1.2
      | _ => cases hl
    | _ => cases hl

/-- Every packet that passes the filter is pushed once, by its caller, and taken once, in the order
of the pushes; every packet taken is sent once under its own id or counted as an error, in the same
order; and until 2^64 packets have been taken ids increase and the counters add up to the number of
packets pushed. -/
theorem accounted (h : Run (System.step env) {} tr s) : Accounted env tr s := by
  have hr := run_sequencer h
  have hl := Sequencer.ledger hr
  have hp := pushed_eq h
  have ht := taken_eq h
  have hlen := Sequencer.length_stamps_le hr
  have hcount := Sequencer.length_resolved (tr.filterMap Label.pubEvent?)
  have hem := hl.emissions
  have hpub := hl.emitted
  have herr := hl.failed
  rw [taken_pubEvents] at hlen
  rw [resolved_pubEvents, succeeded_pubEvents, failures_pubEvents] at hcount
  rw [emissions_pubEvents, succeeded_pubEvents] at hem
  rw [succeeded_pubEvents] at hpub
  rw [failures_pubEvents] at herr
  refine ⟨passed_eq h, hp, ht, hem, message_of_sent h, hpub, herr, fun hlt => ?_, fun hlt => ?_⟩
  · have hinc := hl.increasing (Nat.lt_of_le_of_lt hlen hlt)
    rwa [emissions_pubEvents, List.map_map] at hinc
  · have htl := congrArg List.length ht
    have hpl := congrArg List.length hp
    rw [List.length_append, List.length_map] at htl
    rw [List.length_append] at hpl
    have hpub' : s.relay.stats.packetsPublished = .ofNat (succeeded tr).length := hpub
    have herr' : s.relay.stats.pubSendErrors = .ofNat (failed tr).length := herr
    rw [hpub', herr', UInt64.toNat_ofNat_of_lt' (by show _ < 2 ^ 64; omega),
      UInt64.toNat_ofNat_of_lt' (by show _ < 2 ^ 64; omega), hpl, htl, hcount]

/-! ### A long run -/

/-- A relay that only streams. -/
def streamingEnv : Env :=
  { defaultEnv id with config := { enableCommandInterface := false, enableReliableQueue := false } }

/-- Between two packets, `n` of which were published. -/
structure Ready (n : Nat) (s : System) : Prop where
  crashed : s.crashed = false
  caller : s.callers 0 = .idle
  running : s.relay.running = true
  pubSocket : s.relay.pubSocket.isSome = true
  packetFilter : s.relay.packetFilter = none
  pubThread : s.relay.pubThread = some .loop
  pushThread : s.relay.pushThread = none
  publishQueue : s.relay.publishQueue = []
  nextMessageId : s.relay.nextMessageId = .ofNat (n + 1)

theorem ready_startUp : ∃ tr s', Run (System.step streamingEnv) {} tr s' ∧ Ready 0 s' ∧
    sent tr = [] ∧ taken tr = [] := by
  refine ⟨_, _, Run.of_exec
    (System.exec_Initialize streamingEnv rfl rfl ZmqRelay.idle_new rfl (fun _ => false) 2),
    ⟨rfl, rfl, rfl, rfl, rfl, rfl, rfl, rfl, rfl⟩, rfl, rfl⟩

theorem Ready.round {n : Nat} (h : Ready n s) :
    ∃ tr s', Run (System.step streamingEnv) s tr s' ∧ Ready (n + 1) s' ∧
      (sent tr).map SentMessage.messageId = [.ofNat (n + 1)] ∧ taken tr = [loginPacket] := by
  obtain ⟨frames, hm⟩ := message_ok streamingEnv loginPacket s.relay.nextMessageId
    (lawfulDump_defaultEnv id) (by decide) (by decide) (by decide) (by decide)
  have hcall := System.exec_call streamingEnv h.crashed h.caller loginPacket
    (by simp [System.queueMutexFree, h.pushThread]) (by simp [System.publishMutexFree, h.pubThread])
  have hp :
      s.relay.publishPacket streamingEnv.config loginPacket = s.relay.enqueue loginPacket := by
    obtain ⟨socket, hs⟩ := Option.isSome_iff_exists.mp h.pubSocket
    simp [ZmqRelay.publishPacket, ZmqRelay.filtered, h.running, hs, h.packetFilter, streamingEnv]
  rw [hp] at hcall
  have hpublish := System.exec_publish streamingEnv
    (s := { s with relay := s.relay.enqueue loginPacket }) loginPacket [] h.crashed h.pubThread
    h.running (by simp [ZmqRelay.enqueue, h.publishQueue]) hm
  refine ⟨_, _, (Run.of_exec hcall).append (Run.of_exec hpublish),
    ⟨h.crashed, h.caller, h.running, h.pubSocket, h.packetFilter, rfl, h.pushThread, rfl, ?_⟩,
    ?_, ?_⟩
  · show s.relay.nextMessageId + 1 = _
    rw [h.nextMessageId, UInt64.ofNat_add (n + 1) 1]
    rfl
  · rw [sent, List.filterMap_append, filterMap_map_of_none (fun _ => rfl), List.nil_append,
      ← h.nextMessageId]
    rfl
  · rw [taken, List.filterMap_append, filterMap_map_of_none (fun _ => rfl), List.nil_append]
    rfl

theorem ready_rounds (n : Nat) : ∃ tr s, Run (System.step streamingEnv) {} tr s ∧ Ready n s ∧
    ((sent tr).map SentMessage.messageId = (List.range n).map fun k => .ofNat (k + 1)) ∧
    taken tr = List.replicate n loginPacket := by
  induction n with
  | zero =>
    obtain ⟨tr, s, h, hs, he, ht⟩ := ready_startUp
    exact ⟨tr, s, h, hs, by rw [he]; rfl, ht⟩
  | succ n ih =>
    obtain ⟨tr, s, h, hs, he, ht⟩ := ih
    obtain ⟨tr', s', h', hs', he', ht'⟩ := hs.round
    refine ⟨_, _, h.append h', hs', ?_, ?_⟩
    · rw [sent, List.filterMap_append, List.map_append, ← sent, ← sent, he, he', List.range_succ,
        List.map_append]
      rfl
    · rw [taken, List.filterMap_append, ← taken, ← taken, ht, ht', List.replicate_succ']

/-- Three packets, from the calls to the counter. -/
theorem accounted_login : ∃ tr s, Accounted streamingEnv tr s ∧
    (sent tr).map SentMessage.messageId = [1, 2, 3] := by
  obtain ⟨tr, s, h, -, he, -⟩ := ready_rounds 3
  exact ⟨tr, s, accounted h, he⟩

/-- After 2^64 packets the message ids start over. -/
theorem messageIds_wrap : ∃ tr s, Run (System.step streamingEnv) {} tr s ∧
    ¬ ((sent tr).map SentMessage.messageId).Pairwise (· < ·) := by
  obtain ⟨N, hN⟩ : ∃ N : Nat, N = 2 ^ 64 := ⟨_, rfl⟩
  obtain ⟨tr, s, h, -, he, -⟩ := ready_rounds N
  refine ⟨tr, s, h, fun hinc => ?_⟩
  rw [he, List.pairwise_map, List.pairwise_iff_getElem] at hinc
  have h0 : 0 < (List.range N).length := by rw [List.length_range]; omega
  have hlast : N - 1 < (List.range N).length := by rw [List.length_range]; omega
  have hlt := hinc 0 (N - 1) h0 hlast (by omega)
  rw [List.getElem_range, List.getElem_range, Nat.sub_add_cancel (by omega), hN] at hlt
  exact absurd hlt (by decide)

end PubStream

end Kpacket
