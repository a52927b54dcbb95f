import Kpacket.Channel
import Kpacket.Rounds
import Kpacket.WireModes

/-!
# The PUSH stream

The reliable queue and `ReliableQueueThread` are a channel (`simulation`) that finishes a packet
with the first attempt to send it, whatever comes of it. So what was admitted is what was tried, the
packet in flight and the queue (`admitted_eq`), and what was tried is what was accepted only if no
attempt is refused or throws (`admitted_iff`).
-/

namespace Kpacket

open Lts

def ReliablePc.packet : ReliablePc → Option PacketInfo
  | .sending packet => some packet
  | _ => none

/-- The packet that `ReliableQueueThread` has taken and not tried to send. -/
def ZmqRelay.pushInFlight (r : ZmqRelay) : Option PacketInfo := r.pushThread.bind ReliablePc.packet

def ZmqRelay.pushChannel (r : ZmqRelay) : Channel.State PacketInfo where
  queue := r.packetQueue
  slot := r.pushInFlight

def Label.pushEvent? : Label → Option (Channel.Event PacketInfo)
  | .caller _ (.admitPacket packet true) => some (.push packet)
  | .reliable (.pop packet) => some (.take packet)
  | .reliable (.send packet _) => some (.finish packet)
  | _ => none

def Label.admitted? : Label → Option PacketInfo
  | .caller _ e => e.admitted?
  | _ => none

def Label.popped? : Label → Option PacketInfo
  | .reliable (.pop packet) => some packet
  | _ => none

def Label.attempt? : Label → Option (PacketInfo × SendOutcome)
  | .reliable (.send packet outcome) => some (packet, outcome)
  | _ => none

def SendOutcome.isAccepted : SendOutcome → Bool
  | .accepted _ => true
  | _ => false

namespace PushStream

def admitted (tr : List Label) : List PacketInfo := tr.filterMap Label.admitted?

def taken (tr : List Label) : List PacketInfo := tr.filterMap Label.popped?

def attempts (tr : List Label) : List (PacketInfo × SendOutcome) := tr.filterMap Label.attempt?

/-- The packets whose message the PUSH socket accepted. -/
def accepted (tr : List Label) : List PacketInfo :=
  ((attempts tr).filter fun a => a.2.isAccepted).map Prod.fst

variable {env : Env} {s s' : System} {r r' : ZmqRelay} {tr : List Label}

/-! ### The channel of a run -/

theorem publisherStep_channel {e : PublisherEvent} (h : r.publisherStep env e = some r') :
    r'.pushChannel = r.pushChannel := by
  obtain ⟨_, _, _, _, _, rfl⟩ := ZmqRelay.publisherStep_frame h
  rfl

theorem commandStep_channel {e : CommandEvent} (h : r.commandStep env e = some r') :
    r'.pushChannel = r.pushChannel := by
  obtain ⟨_, _, _, _, _, rfl⟩ := ZmqRelay.commandStep_frame h
  rfl

theorem ownerStep_channel {e : OwnerEvent} (h : s.ownerStep env e = some s') :
    s'.relay.pushChannel = s.relay.pushChannel := by
  obtain ⟨_, _, _, _, _, _, _, pushThread, _, _, _, hr, -, -, hpush⟩ := System.ownerStep_frame h
  have hslot : pushThread.bind ReliablePc.packet = s.relay.pushThread.bind ReliablePc.packet := by
    rcases hpush with rfl | ⟨hold | hold, rfl | rfl⟩
    · rfl
    all_goals simp [hold, ReliablePc.packet]
  simp only [ZmqRelay.pushChannel, ZmqRelay.pushInFlight, hr, hslot]

theorem callerStep_channel {i : Nat} {e : CallerEvent} (h : s.callerStep env i e = some s') :
    s'.relay.pushChannel = { s.relay.pushChannel with
      queue := s.relay.pushChannel.queue ++ e.admitted?.toList } := by
  obtain ⟨_, _, _, hr, rfl, -⟩ := System.callerStep_frame h
  simp only [ZmqRelay.pushChannel, ZmqRelay.pushInFlight, hr]

theorem reliableStep_channel {e : ReliableEvent} (h : r.reliableStep env e = some r') :
    match (Label.reliable e).pushEvent? with
    | some b => Channel.step r.pushChannel b = some r'.pushChannel
    | none => r'.pushChannel = r.pushChannel := by
  cases e with
  | loop =>
    simp only [ZmqRelay.reliableStep, Option.ite_none_right_eq_some, Option.some.injEq] at h
    obtain ⟨ht, rfl⟩ := h
    cases hr : r.running <;>
      simp [Label.pushEvent?, ZmqRelay.pushChannel, ZmqRelay.pushInFlight, ht, ReliablePc.packet]
  | lock | empty =>
    simp only [ZmqRelay.reliableStep, Option.ite_none_right_eq_some, Option.some.injEq] at h
    obtain ⟨ht, rfl⟩ := h
    simp [Label.pushEvent?, ZmqRelay.pushChannel, ZmqRelay.pushInFlight, ht, ReliablePc.packet]
  | pop packet =>
    simp only [ZmqRelay.reliableStep, Option.ite_none_right_eq_some, Option.some.injEq] at h
    obtain ⟨⟨ht, hq⟩, rfl⟩ := h
    simp [Label.pushEvent?, Channel.step, ZmqRelay.pushChannel, ZmqRelay.pushInFlight, ht, hq,
      ReliablePc.packet]
  | send packet outcome =>
    simp only [ZmqRelay.reliableStep, Option.ite_none_right_eq_some, Option.some.injEq] at h
    obtain ⟨⟨ht, -⟩, rfl⟩ := h
    simp [Label.pushEvent?, Channel.step, ZmqRelay.pushChannel, ZmqRelay.pushInFlight, ht,
      ReliablePc.packet]

theorem step_channel {l : Label} (h : System.step env s l = some s') :
    match l.pushEvent? with
    | some b => Channel.step s.relay.pushChannel b = some s'.relay.pushChannel
    | none => s'.relay.pushChannel = s.relay.pushChannel := by
  cases l with
  | caller i e =>
    have hc := callerStep_channel (System.step_caller h)
    cases e with
    | admitPacket packet admitted =>
      cases admitted <;> simp [hc, Label.pushEvent?, CallerEvent.admitted?, Channel.step]
    | _ => simp [hc, Label.pushEvent?, CallerEvent.admitted?]
  | publisher e =>
    obtain ⟨r, hr, rfl⟩ := System.step_publisher h
    exact publisherStep_channel hr
  | reliable e =>
    obtain ⟨r, hr, rfl⟩ := System.step_reliable h
    exact reliableStep_channel hr
  | command e =>
    obtain ⟨r, hr, rfl, -⟩ := System.step_command h
    exact commandStep_channel hr
  | owner e => exact ownerStep_channel (System.step_owner h)

theorem simulation (env : Env) : Simulation (System.step env) Channel.step
    (fun s => s.relay.pushChannel) Label.pushEvent? where
  visible s l s' b h hb := by simpa only [hb] using step_channel h
  hidden s l s' h hb := by simpa only [hb] using step_channel h

variable (tr) in
theorem pushed_pushEvents : Channel.pushed (tr.filterMap Label.pushEvent?) = admitted tr := by
  rw [Channel.pushed, List.filterMap_filterMap, admitted]
  congr 1
  funext l
  rcases l with ⟨i, e⟩ | e | e | e | e
  · rcases e with _ | _ | _ | _ | ⟨_, _ | _⟩ | _ <;> rfl
  all_goals cases e <;> rfl

variable (tr) in
theorem finished_pushEvents :
    Channel.finished (tr.filterMap Label.pushEvent?) = (attempts tr).map Prod.fst := by
  rw [Channel.finished, List.filterMap_filterMap, attempts, List.map_filterMap]
  congr 1
  funext l
  rcases l with ⟨i, e⟩ | e | e | e | e
  · rcases e with _ | _ | _ | _ | ⟨_, _ | _⟩ | _ <;> rfl
  all_goals cases e <;> rfl

/-! ### What becomes of an admitted packet -/

/-- A packet that was admitted was tried once, is in flight, or is in the queue, in the order of the
admissions. -/
theorem admitted_eq (h : Run (System.step env) {} tr s) :
    admitted tr = (attempts tr).map Prod.fst ++ s.relay.pushInFlight.toList ++
      s.relay.packetQueue := by
  have hr : Run Channel.step {} (tr.filterMap Label.pushEvent?) s.relay.pushChannel :=
    h.simulate (simulation env)
  have hc := Channel.conserve hr
  rw [pushed_pushEvents, finished_pushEvents] at hc
  rw [List.append_assoc]
  exact hc

variable (tr) in
theorem taken_pushEvents : Channel.taken (tr.filterMap Label.pushEvent?) = taken tr := by
  rw [Channel.taken, List.filterMap_filterMap, taken]
  congr 1
  funext l
  rcases l with ⟨i, e⟩ | e | e | e | e
  · rcases e with _ | _ | _ | _ | ⟨_, _ | _⟩ | _ <;> rfl
  all_goals cases e <;> rfl

theorem admitted_eq_taken (h : Run (System.step env) {} tr s) :
    admitted tr = taken tr ++ s.relay.packetQueue := by
  have ht := Channel.taken_eq (h.simulate (simulation env)) rfl
  rw [taken_pushEvents, finished_pushEvents] at ht
  rw [admitted_eq h, ht]
  rfl

theorem text_of_accepted (h : Run (System.step env) {} tr s) {packet : PacketInfo} {text : Bytes}
    (ha : (packet, .accepted text) ∈ attempts tr) :
    env.json.dump (toJson packet) = .ok text := by
  have hall : ∀ a ∈ attempts tr, sendable env a.1 a.2 = true := by
    refine h.invariant (I := fun tr _ => ∀ a ∈ attempts tr, sendable env a.1 a.2 = true)
      (by simp [attempts]) fun tr s l s' _ ih hs a ha => ?_
    rw [attempts, filterMap_snoc, List.mem_append] at ha
    rcases ha with ha | ha
    · exact ih a ha
    · obtain hl := Option.mem_toList.mp ha
      rcases l with _ | _ | e | _ | _
      case reliable =>
        cases e with
        | send packet outcome =>
          cases hl
          obtain ⟨r, hr, -⟩ := System.step_reliable hs
          simp only [ZmqRelay.reliableStep, Option.ite_none_right_eq_some] at hr
          exact hr.1.2
        | _ => cases hl
      all_goals cases hl
  have hs := of_decide_eq_true (hall _ ha)
  cases hd : env.json.dump (toJson packet) with
  | ok text' => rw [hd] at hs; cases hs; rfl
  | error what => rw [hd] at hs; cases hs

theorem accepted_eq_iff : accepted tr = (attempts tr).map Prod.fst ↔
    ∀ a ∈ attempts tr, a.2.isAccepted = true := by
  constructor
  · intro h
    have hl := congrArg List.length h
    rw [accepted, List.length_map, List.length_map] at hl
    exact List.length_filter_eq_length_iff.mp hl
  · intro h
    rw [accepted, List.filter_eq_self.mpr h]

/-- The packets admitted are those accepted, the one in flight and the queue exactly if the socket
accepts every message it is offered. -/
theorem admitted_iff (h : Run (System.step env) {} tr s) :
    admitted tr = accepted tr ++ s.relay.pushInFlight.toList ++ s.relay.packetQueue ↔
      ∀ a ∈ attempts tr, a.2.isAccepted = true := by
  rw [admitted_eq h, ← accepted_eq_iff, List.append_left_inj, List.append_left_inj, eq_comm]

/-! ### One packet -/

theorem exists_attempt (outcome : SendOutcome)
    (ho : sendable (defaultEnv id) loginPacket outcome = true) :
    ∃ tr s, Run (System.step (defaultEnv id)) {} tr s ∧ admitted tr = [loginPacket] ∧
      attempts tr = [(loginPacket, outcome)] ∧ s.relay.pushInFlight = none ∧
      s.relay.packetQueue = [] := by
  obtain ⟨start, hstart⟩ := System.run_started id
  have hcall := System.exec_call (defaultEnv id) (s := { relay := System.startedRelay }) rfl
    (i := 0) rfl loginPacket rfl rfl
  have hpush := System.exec_push (defaultEnv id)
    (s := { relay := System.startedRelay.publishPacket {} loginPacket }) loginPacket [] rfl rfl rfl
    rfl ho
  refine ⟨_, _, (hstart.append (Run.of_exec hcall)).append (Run.of_exec hpush), ?_, ?_, rfl, rfl⟩
  · rw [admitted, List.filterMap_append, List.filterMap_append, filterMap_map_of_none fun _ => rfl]
    rfl
  · rw [attempts, List.filterMap_append, List.filterMap_append, filterMap_map_of_none fun _ => rfl]
    rfl

theorem exists_text :
    ∃ text, (defaultEnv id).json.dump (toJson loginPacket) = .ok text :=
  (lawfulDump_defaultEnv id).ok (plain_toJson loginPacket) (utf8_toJson (by decide) (by decide))

/-- A packet whose message is accepted. -/
theorem admitted_login : ∃ tr s, Run (System.step (defaultEnv id)) {} tr s ∧
    admitted tr = [loginPacket] ∧
      admitted tr = accepted tr ++ s.relay.pushInFlight.toList ++ s.relay.packetQueue := by
  obtain ⟨text, ht⟩ := exists_text
  obtain ⟨tr, s, h, had, hat, -⟩ := exists_attempt (.accepted text)
    (decide_eq_true (by rw [ht]; rfl))
  exact ⟨tr, s, h, had, (admitted_iff h).mpr (by rw [hat]; simp [SendOutcome.isAccepted])⟩

/-- A packet for which there is no peer is lost. -/
theorem admitted_lost : ∃ tr s, Run (System.step (defaultEnv id)) {} tr s ∧
    admitted tr = [loginPacket] ∧ accepted tr = [] ∧
      ¬ admitted tr = accepted tr ++ s.relay.pushInFlight.toList ++ s.relay.packetQueue := by
  obtain ⟨text, ht⟩ := exists_text
  obtain ⟨tr, s, h, had, hat, hf, hq⟩ := exists_attempt .again
    (by rw [sendable, ht]; rfl)
  have hac : accepted tr = [] := by rw [accepted, hat]; rfl
  exact ⟨tr, s, h, had, hac, by rw [had, hac, hf, hq]; simp⟩

end PushStream

end Kpacket
