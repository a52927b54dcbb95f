import Kpacket.Relay

/-!
# Failed start-ups

What `Initialize` leaves behind when a statement throws. Its `catch` block cleans nothing up, so
the relay is idle again only if no socket existed yet (`Initialize_clean_iff`); the plugin keeps the
relay, and its callbacks go on publishing through it if `running_` was already set.
-/

namespace Kpacket

/-! ### The plugin -/

/-- The members of `plugin` that the packet callbacks read. -/
structure Plugin where
  zmqRelay : Option ZmqRelay := none

namespace Plugin

/-- The `Config` that `plugin::Initialize` builds. -/
def config : Config where
  pubEndpoint := lit "tcp://*:5555"
  repEndpoint := lit "tcp://*:5556"
  pushEndpoint := lit "tcp://*:5557"

/-- `plugin::Initialize`; the injector it sets logs and returns `false`, `name` is what its player
name provider answers. -/
def Initialize (throws : InitPoint → Bool) (n : Nat) (name : PlayerName) : Bool × Plugin :=
  let relay : ZmqRelay :=
    { packetInjector := some fun _ _ => .ok false, playerNameProvider := some name }
  let result := relay.Initialize config throws n
  (result.1, { zmqRelay := some result.2 })

/-- The first half of the two packet callbacks. -/
def relayPacket (config : Config) (plugin : Plugin) (packet : Option PacketInfo) : Option Plugin :=
  match plugin.zmqRelay with
  | some r =>
    if r.running then
      packet.map fun packet => { plugin with zmqRelay := some (r.publishPacket config packet) }
    else some plugin
  | none => some plugin

variable (config : Config) (plugin : Plugin) (junk : PacketInfo) (junkHeader : Fin 28 → UInt8)
  (now : Int64) (id : UInt16) (size : UInt32) (data modified : Bytes) (sizeChunk : UInt32)
  (dataChunk : Option Bytes) (injected blocked : Bool)

/-- Whether the packet is blocked, the modified packet and the plugin afterwards. -/
def handleIncomingPacket : Option (Bool × Bytes × Plugin) := do
  let plugin ← relayPacket config plugin (PacketParser.createPacketInfo junk junkHeader now id size
    data .incoming injected blocked sizeChunk dataChunk)
  if id = 0x005A then
    let b ← modified[0x10]?
    let modified := if b = 0x1D then modified.set 0x10 0x08 else modified
    let b ← modified[0x10]?
    return (b = 0x0C, modified, plugin)
  return (false, modified, plugin)

def handleOutgoingPacket : Option (Bool × Bytes × Plugin) := do
  let plugin ← relayPacket config plugin (PacketParser.createPacketInfo junk junkHeader now id size
    data .outgoing injected blocked sizeChunk dataChunk)
  if id = 0x005D then
    let b ← modified[0x0A]?
    let modified := if b = 0x18 then modified.set 0x0A 0x08 else modified
    return (false, modified, plugin)
  return (false, modified, plugin)

/-- Neither callback changes anything about the relay, whatever the packet. -/
def RelaysNothing (config : Config) (plugin : Plugin) : Prop :=
  ∀ junk junkHeader now id size data modified sizeChunk dataChunk injected blocked result,
    (handleIncomingPacket config plugin junk junkHeader now id size data modified sizeChunk
        dataChunk injected blocked = some result ∨
      handleOutgoingPacket config plugin junk junkHeader now id size data modified sizeChunk
        dataChunk injected blocked = some result) →
    result.2.2 = plugin

end Plugin

/-! ### What a failed start-up leaves -/

namespace ZmqRelay

variable {config : Config} {throws : InitPoint → Bool} {n : Nat} {r : ZmqRelay}

def hasSocket (r : ZmqRelay) : Bool :=
  r.pubSocket.isSome || r.repSocket.isSome || r.pushSocket.isSome

theorem Idle.hasSocket (h : Idle r) : r.hasSocket = false := by
  rw [ZmqRelay.hasSocket, h.pubSocket, h.repSocket, h.pushSocket]
  rfl

theorem hasSocket_initStep (p : InitPoint) (h : r.hasSocket = true) :
    (initStep config n r p).hasSocket = true := by
  simp only [hasSocket, Bool.or_eq_true] at h ⊢
  cases p <;>
    simp only [initStep, applySocketOptions, setOptions, Option.isSome_map, Option.isSome_some,
      true_or, or_true] <;> exact h

theorem hasSocket_initSteps (ps : List InitPoint) (h : r.hasSocket = true) :
    (initSteps config throws n ps r).2.hasSocket = true := by
  induction ps generalizing r with
  | nil => exact h
  | cons p ps ih =>
    unfold initSteps
    split_ifs
    · exact h
    · exact ih (hasSocket_initStep p h)

/-- The first statement that throws. -/
def firstThrow (throws : InitPoint → Bool) (ps : List InitPoint) : Option InitPoint :=
  ps.find? fun p => p.canThrow && throws p

theorem initSteps_eq_false_iff (ps : List InitPoint) :
    (initSteps config throws n ps r).1 = false ↔ ∃ p, firstThrow throws ps = some p := by
  induction ps generalizing r with
  | nil => simp [initSteps, firstThrow]
  | cons p ps ih =>
    unfold initSteps firstThrow
    rw [List.find?_cons]
    cases hp : p.canThrow && throws p with
    | true => simp
    | false => simpa [firstThrow] using ih

/-- The statements before which no socket exists yet. -/
def beforeSockets (config : Config) : InitPoint → Bool
  | .newContext | .newPub => true
  | .newRep => !config.enablePacketStreaming
  | .newPush => !config.enablePacketStreaming && !config.enableCommandInterface
  | _ => false

theorem idle_initSteps_iff (ps : List InitPoint) (h : r.hasSocket = true)
    (hps : ∀ p ∈ ps, beforeSockets config p = false) :
    ((initSteps config throws n ps r).1 = false → Idle (initSteps config throws n ps r).2) ↔
      ∀ p, firstThrow throws ps = some p → beforeSockets config p = true := by
  rw [initSteps_eq_false_iff]
  refine ⟨fun hi p hp => ?_, fun hp ⟨p, hq⟩ => ?_⟩
  · have := (hi ⟨p, hp⟩).hasSocket
    rw [hasSocket_initSteps ps h] at this
    cases this
  · have hb := hps p (List.mem_of_find?_eq_some hq)
    rw [hp p hq] at hb
    cases hb

/-- What is claimed of the statements `ps` run from `r`. -/
def CleanFailure (config : Config) (throws : InitPoint → Bool) (n : Nat) (ps : List InitPoint)
    (r : ZmqRelay) : Prop :=
  (initSteps config throws n ps r).1 = false → Idle (initSteps config throws n ps r).2

theorem cleanFailure_cons {p : InitPoint} {ps : List InitPoint} (hr : Idle r)
    (hb : beforeSockets config p = true)
    (hps : CleanFailure config throws n ps (initStep config n r p) ↔
      ∀ q, firstThrow throws ps = some q → beforeSockets config q = true) :
    CleanFailure config throws n (p :: ps) r ↔
      ∀ q, firstThrow throws (p :: ps) = some q → beforeSockets config q = true := by
  unfold CleanFailure firstThrow at *
  rw [initSteps, List.find?_cons]
  cases hp : p.canThrow && throws p with
  | true => simp [hr, hb]
  | false => simpa using hps

theorem cleanFailure_of_no_throw {ps : List InitPoint} (h : ∀ p ∈ ps, p.canThrow = false) :
    CleanFailure config throws n ps r ↔
      ∀ q, firstThrow throws ps = some q → beforeSockets config q = true := by
  have hn : ∀ q, firstThrow throws ps ≠ some q := by
    intro q hq
    have hc := List.find?_some hq
    rw [h q (List.mem_of_find?_eq_some hq)] at hc
    cases hc
  refine ⟨fun _ q hq => absurd hq (hn q), fun _ hf => ?_⟩
  obtain ⟨q, hq⟩ := (initSteps_eq_false_iff ps).mp hf
  exact absurd hq (hn q)

theorem cleanFailure_first {p : InitPoint} {ps : List InitPoint} (hr : Idle r)
    (hb : beforeSockets config p = true)
    (hs : (initStep config n (initStep config n r .newContext) p).hasSocket = true)
    (hps : ∀ q ∈ ps, beforeSockets config q = false) :
    CleanFailure config throws n (.newContext :: p :: ps) r ↔
      ∀ q, firstThrow throws (.newContext :: p :: ps) = some q → beforeSockets config q = true := by
  have hctx : Idle (initStep config n r .newContext) :=
    ⟨hr.running, hr.pubSocket, hr.repSocket, hr.pushSocket, hr.pubThread, hr.repThread,
      hr.pushThread⟩
  exact cleanFailure_cons hr rfl (cleanFailure_cons hctx hb (idle_initSteps_iff ps hs hps))

/-- A failed `Initialize` leaves the relay idle exactly if the statement that threw creates the
context or the first socket. -/
theorem cleanFailure_points (hr : Idle r) :
    CleanFailure config throws n (InitPoint.points config) r ↔
      ∀ p, firstThrow throws (InitPoint.points config) = some p →
        beforeSockets config p = true := by
  unfold InitPoint.points
  cases hs : config.enablePacketStreaming <;> cases hc : config.enableCommandInterface <;>
    cases hq : config.enableReliableQueue
  case false.false.false =>
    exact cleanFailure_cons hr rfl (cleanFailure_of_no_throw (by decide))
  all_goals
    refine cleanFailure_first hr (by simp [beforeSockets, hs, hc])
      (by simp [hasSocket, initStep]) ?_
    simp [beforeSockets, hs, hc]

end ZmqRelay

open ZmqRelay

theorem Plugin.relaysNothing_of_idle {r : ZmqRelay} (h : Idle r) (config : Config) :
    RelaysNothing config ⟨some r⟩ := by
  have hr : ∀ packet, relayPacket config ⟨some r⟩ packet = some ⟨some r⟩ := fun packet => by
    simp only [relayPacket, h.running, Bool.false_eq_true, if_false]
  intro junk junkHeader now id size data modified sizeChunk dataChunk injected blocked result hres
  rcases hres with hres | hres
  · simp only [handleIncomingPacket, hr, Option.bind_eq_bind, Option.bind_some] at hres
    split_ifs at hres
    · obtain ⟨b, -, hres⟩ := Option.bind_eq_some_iff.mp hres
      obtain ⟨b', -, hres⟩ := Option.bind_eq_some_iff.mp hres
      cases hres; rfl
    · cases hres; rfl
  · simp only [handleOutgoingPacket, hr, Option.bind_eq_bind, Option.bind_some] at hres
    split_ifs at hres
    · obtain ⟨b, -, hres⟩ := Option.bind_eq_some_iff.mp hres
      cases hres; rfl
    · cases hres; rfl

/-- Start-up that fails leaves nothing behind, and the callbacks relay nothing afterwards, exactly
if the statement that threw creates the context or the first socket. -/
theorem Initialize_clean_iff (config : Config) (throws : InitPoint → Bool) (n : Nat) :
    (∀ r, Idle r →
      (((r.Initialize config throws n).1 = false →
          Idle (r.Initialize config throws n).2 ∧
            Plugin.RelaysNothing config ⟨some (r.Initialize config throws n).2⟩) ↔
        ∀ p, firstThrow throws (InitPoint.points config) = some p →
          beforeSockets config p = true)) ∧
      ∀ name,
        (((Plugin.Initialize throws n name).1 = false →
            (∃ r, (Plugin.Initialize throws n name).2.zmqRelay = some r ∧ Idle r) ∧
              Plugin.RelaysNothing Plugin.config (Plugin.Initialize throws n name).2) ↔
          ∀ p, firstThrow throws (InitPoint.points Plugin.config) = some p →
            beforeSockets Plugin.config p = true) := by
  refine ⟨fun r hr => ?_, fun name => ?_⟩
  · rw [← cleanFailure_points (n := n) hr]
    exact ⟨fun h hf => (h hf).1, fun h hf => ⟨h hf, Plugin.relaysNothing_of_idle (h hf) config⟩⟩
  · have hr :
        Idle { packetInjector := some fun _ _ => .ok false, playerNameProvider := some name } :=
      ⟨rfl, rfl, rfl, rfl, rfl, rfl, rfl⟩
    rw [← cleanFailure_points (n := n) hr]
    refine ⟨fun h hf => ?_, fun h hf => ⟨⟨_, rfl, h hf⟩, Plugin.relaysNothing_of_idle (h hf) _⟩⟩
    obtain ⟨⟨r, hr', hi⟩, -⟩ := h hf
    cases hr'
    exact hi

/-- A context that cannot be created leaves a new relay as it was. -/
theorem Initialize_no_context :
    (ZmqRelay.Initialize {} (· == .newContext) 0 {}).1 = false ∧
      Idle (ZmqRelay.Initialize {} (· == .newContext) 0 {}).2 ∧
        Plugin.RelaysNothing {} ⟨some (ZmqRelay.Initialize {} (· == .newContext) 0 {}).2⟩ :=
  ⟨rfl, ((Initialize_clean_iff {} (· == .newContext) 0).1 {} idle_new).mpr
    (by rintro _ ⟨⟩; rfl) rfl⟩

/-- With the PUB port in use the socket stays open; if the command thread cannot be started the
relay is left running, with a live publisher, and the plugin goes on publishing. -/
theorem Initialize_leaves :
    (∃ r, ZmqRelay.Initialize {} (· == .bindPub) 0 {} = (false, r) ∧ r.pubSocket = some {}) ∧
      ∃ plugin r, Plugin.Initialize (· == .startRep) 0 (.ok none) = (false, plugin) ∧
        plugin.zmqRelay = some r ∧ r.running = true ∧ r.pubThread = some .loop ∧
          ∀ packet, ∃ r', Plugin.relayPacket Plugin.config plugin (some packet) = some ⟨some r'⟩ ∧
            r'.publishQueue = [packet] :=
  ⟨⟨_, rfl, rfl⟩, _, _, rfl, rfl, rfl, rfl, fun _ => ⟨_, rfl, rfl⟩⟩

end Kpacket
