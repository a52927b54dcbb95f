import Kpacket.Feeding
import Kpacket.PushStream

/-!
# How long the queues get

A packet is admitted to the reliable queue only if there is room (`packetQueue_le`). The publish
queue is pushed to without a look at its length and outgrows any bound (`publishQueue_unbounded`),
unless nothing is pushed to it at all, because packet streaming is off (`queues_le_iff`).
-/

namespace Kpacket

open Lts

namespace QueueBounds

variable {env : Env} {s s' : System} {tr : List Label}

/-! ### The reliable queue -/

theorem length_lt_of_admitted {i : Nat} {packet : PacketInfo}
    (h : s.callerStep env i (.admitPacket packet true) = some s') :
    s.relay.packetQueue.length < env.config.maxQueueSize := by
  obtain ⟨r, pc, hmove, -⟩ := System.callerStep_move h
  cases hmove with
  | admitPacket _ _ _ _ _ ha => exact of_decide_eq_true ha.symm

theorem push_lt {l : Label} {packet : PacketInfo} (h : System.step env s l = some s')
    (hl : l.pushEvent? = some (.push packet)) :
    s.relay.packetQueue.length < env.config.maxQueueSize := by
  rcases l with ⟨i, e⟩ | e | e | e | e
  · rcases e with _ | _ | _ | _ | ⟨packet', _ | _⟩ | _
    case admitPacket.true => exact length_lt_of_admitted (System.step_caller h)
    all_goals cases hl
  all_goals cases e <;> cases hl

theorem packetQueue_le (h : Run (System.step env) {} tr s) :
    Throughout (System.step env) (fun s => s.relay.packetQueue.length ≤ env.config.maxQueueSize)
      {} tr :=
  (Channel.bounded_iff (PushStream.simulation env) (Nat.zero_le _) h).mpr
    (.of_forall (fun _ _ _ _ _ hs _ hl => push_lt hs hl) h)

/-! ### Without packet streaming -/

/-- No PUB socket is opened, and nobody gets past the look at it. -/
structure Unfed (s : System) : Prop where
  socket : s.relay.pubSocket = none
  owner : ∀ ps, s.owner = .initializing ps → .newPub ∉ ps
  callers : ∀ i packet, s.callers i ≠ .filtering packet ∧ s.callers i ≠ .admitting packet ∧
    s.callers i ≠ .enqueueing packet
  queue : s.relay.publishQueue = []

theorem newPub_notMem {config : Config} (h : config.enablePacketStreaming = false) :
    .newPub ∉ InitPoint.points config := by
  unfold InitPoint.points
  rw [h]
  cases config.enableCommandInterface <;> cases config.enableReliableQueue <;> decide

theorem Unfed.setCaller {i : Nat} {pc : CallerPc} (h : Unfed s)
    (hpc : ∀ packet, pc ≠ .filtering packet ∧ pc ≠ .admitting packet ∧ pc ≠ .enqueueing packet) :
    Unfed (s.setCaller i pc) := by
  refine ⟨h.socket, h.owner, fun j packet => ?_, h.queue⟩
  by_cases hj : j = i
  · subst hj
    rw [System.setCaller_callers_self]
    exact hpc packet
  · rw [System.setCaller_callers_ne hj]
    exact h.callers j packet

theorem Unfed.caller_step {i : Nat} {e : CallerEvent} (h : Unfed s)
    (hs : s.callerStep env i e = some s') : Unfed s' := by
  obtain ⟨r, pc, hmove, rfl⟩ := System.callerStep_move hs
  cases hmove with
  | call packet => exact h.setCaller (by simp)
  | readRunning packet => exact h.setCaller (by split_ifs <;> simp)
  | readSocket packet => exact h.setCaller (by simp [h.socket])
  | pass packet hpc | drop packet hpc => exact absurd hpc (h.callers i packet).1
  | admitPacket packet _ hpc | bypass packet hpc => exact absurd hpc (h.callers i packet).2.1
  | enqueue packet hpc => exact absurd hpc (h.callers i packet).2.2

theorem Unfed.owner_step {e : OwnerEvent} (h : Unfed s)
    (hoff : env.config.enablePacketStreaming = false) (hs : s.ownerStep env e = some s') :
    Unfed s' := by
  obtain ⟨r, pc, hmove, rfl⟩ := System.ownerStep_move hs
  cases hmove with
  | beginInitialize =>
    refine ⟨h.socket, ?_, h.callers, h.queue⟩
    rintro ps ⟨⟩
    exact newPub_notMem hoff
  | init p ps n ho =>
    have hps := h.owner _ ho
    refine ⟨?_, ?_, h.callers, ?_⟩
    · cases p
      case newPub => exact absurd (List.mem_cons_self ..) hps
      case bindPub | applySocketOptions => exact congrArg (Option.map _) h.socket
      all_goals exact h.socket
    · rintro ps' ⟨⟩ hm
      exact hps (List.mem_cons_of_mem _ hm)
    · cases p <;> exact h.queue
  | shut p ps ho =>
    refine ⟨?_, by simp, h.callers, ?_⟩
    · cases p <;> first | exact h.socket | rfl
    · cases p <;> exact h.queue
  | setPacketFilter | setPacketInjector | setPlayerNameProvider =>
    exact ⟨h.socket, h.owner, h.callers, h.queue⟩
  | initThrows | endInitialize | beginShutdown | endShutdown =>
    exact ⟨h.socket, by simp, h.callers, h.queue⟩

theorem Unfed.step {l : Label} (h : Unfed s) (hoff : env.config.enablePacketStreaming = false)
    (hs : System.step env s l = some s') : Unfed s' := by
  cases l with
  | caller i e => exact h.caller_step (System.step_caller hs)
  | owner e => exact h.owner_step hoff (System.step_owner hs)
  | publisher e =>
    obtain ⟨r, hr, rfl⟩ := System.step_publisher hs
    have hq := ZmqRelay.publisherStep_queue hr
    rw [h.queue, List.suffix_nil] at hq
    obtain ⟨_, _, _, _, _, rfl⟩ := ZmqRelay.publisherStep_frame hr
    exact ⟨h.socket, h.owner, h.callers, hq⟩
  | reliable e =>
    obtain ⟨r, hr, rfl⟩ := System.step_reliable hs
    obtain ⟨_, _, rfl⟩ := ZmqRelay.reliableStep_frame hr
    exact ⟨h.socket, h.owner, h.callers, h.queue⟩
  | command e =>
    obtain ⟨r, hr, hr', hcallers, howner⟩ := System.step_command hs
    obtain ⟨_, _, _, _, _, hframe⟩ := ZmqRelay.commandStep_frame hr
    refine ⟨?_, by rw [howner]; exact h.owner, by rw [hcallers]; exact h.callers, ?_⟩
    · rw [hr', hframe]
      exact h.socket
    · rw [hr', hframe]
      exact h.queue

theorem unfed (hoff : env.config.enablePacketStreaming = false)
    (h : Run (System.step env) {} tr s) : Unfed s :=
  h.invariant_state ⟨rfl, by simp, by simp, rfl⟩ fun _ _ _ hu hs => hu.step hoff hs

/-! ### With packet streaming -/

/-- A running relay that takes a packet at any time. -/
structure Takes (r : ZmqRelay) : Prop where
  running : r.running = true
  socket : r.pubSocket.isSome = true
  filter : r.packetFilter = none
  queueMutex : System.queueMutexFree r = true
  publishMutex : System.publishMutexFree r = true

theorem takes_Initialize {config : Config} (h : config.enablePacketStreaming = true) :
    Takes (({} : ZmqRelay).Initialize config (fun _ => false) 4).2 := by
  unfold ZmqRelay.Initialize InitPoint.points
  rw [h]
  cases config.enableCommandInterface <;> cases config.enableReliableQueue <;>
    exact ⟨rfl, rfl, rfl, rfl, rfl⟩

theorem publishQueue_Initialize (config : Config) (n : Nat) (ps : List InitPoint) (r : ZmqRelay) :
    (r.initSteps config (fun _ => false) n ps).2.publishQueue = r.publishQueue := by
  induction ps generalizing r with
  | nil => rfl
  | cons p ps ih =>
    rw [ZmqRelay.initSteps, Bool.and_false, if_neg Bool.false_ne_true, ih]
    cases p <;> rfl

/-- Callers publish while the workers do not get to run. -/
theorem exists_overload (hon : env.config.enablePacketStreaming = true) (n : Nat) :
    ∃ tr r, Run (System.step env) {} tr { relay := r } ∧ Takes r ∧ r.publishQueue.length = n := by
  induction n with
  | zero =>
    refine ⟨_, _, Run.of_exec (System.exec_Initialize env (s := {}) rfl rfl ZmqRelay.idle_new rfl
      (fun _ => false) 4), takes_Initialize hon, ?_⟩
    exact congrArg List.length (publishQueue_Initialize ..)
  | succ n ih =>
    obtain ⟨tr, r, h, ht, hn⟩ := ih
    have hfilter : r.filtered loginPacket = false := by rw [ZmqRelay.filtered, ht.filter]
    obtain ⟨packets, hadd⟩ := System.publishPacket_passes loginPacket ht.running ht.socket hfilter
      env.config
    have hcall := System.exec_call env (s := { relay := r }) rfl (i := 0) rfl loginPacket
      ht.queueMutex ht.publishMutex
    rw [show ({ relay := r } : System).relay = r from rfl, hadd] at hcall
    refine ⟨_, _, h.append (Run.of_exec hcall),
      ⟨ht.running, ht.socket, ht.filter, ht.queueMutex, ht.publishMutex⟩, ?_⟩
    rw [List.length_append, hn, List.length_singleton]

theorem publishQueue_unbounded (hon : env.config.enablePacketStreaming = true) (n : Nat) :
    ∃ tr s, Run (System.step env) {} tr s ∧ s.relay.publishQueue.length = n := by
  obtain ⟨tr, r, h, -, hn⟩ := exists_overload hon n
  exact ⟨tr, _, h, hn⟩

/-! ### Configurations -/

/-- Both queues stay within `max_queue_size` in every run exactly if packet streaming is off. -/
theorem queues_le_iff (env : Env) :
    (∀ tr s, Run (System.step env) {} tr s →
        s.relay.packetQueue.length ≤ env.config.maxQueueSize ∧
          s.relay.publishQueue.length ≤ env.config.maxQueueSize) ↔
      env.config.enablePacketStreaming = false := by
  constructor
  · intro hall
    by_contra hon
    obtain ⟨tr, s, h, hn⟩ := publishQueue_unbounded (eq_true_of_ne_false hon)
      (env.config.maxQueueSize + 1)
    have hle := (hall tr s h).2
    omega
  · intro hoff tr s h
    refine ⟨packetQueue_le h tr [] s (List.append_nil tr).symm h, ?_⟩
    rw [(unfed hoff h).queue]
    exact Nat.zero_le _

/-- With the default configuration 10001 packets outgrow the publish queue. -/
theorem queues_le_overload : ∃ tr s, Run (System.step (defaultEnv id)) {} tr s ∧
    ¬ s.relay.publishQueue.length ≤ (defaultEnv id).config.maxQueueSize := by
  obtain ⟨tr, s, h, hn⟩ := @publishQueue_unbounded (defaultEnv id) rfl 10001
  exact ⟨tr, s, h, by rw [hn]; decide⟩

end QueueBounds

end Kpacket
