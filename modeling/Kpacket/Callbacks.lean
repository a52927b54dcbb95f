import Kpacket.Startup

/-!
# The packet callbacks and the game

Which bytes `HandleIncomingPacket` and `HandleOutgoingPacket` need of their buffers
(`callbacks_inBounds_iff`), and when the game gets its packets as if the plugin were not there
(`passive_iff`). The relaying half of a callback never touches the packet; the two rewrites behind
it are keyed on one id and one byte each.
-/

namespace Kpacket

namespace PacketParser

open PacketClassifier

/-- Everything that `CreatePacketInfo` reads is there. -/
structure Readable (id : UInt16) (size : UInt32) (data : Bytes) (chunkSize : UInt32)
    (chunkData : Option Bytes) : Prop where
  size_le : size.toNat ≤ data.length
  header : isWorldPacket id = true → 4 ≤ data.length
  chunk : ∀ p ∈ chunkData, chunkSize.toNat ≤ p.length

theorem readBytes_isSome {p : Bytes} {n : UInt32} :
    (readBytes p n).isSome = true ↔ n.toNat ≤ p.length := by
  unfold readBytes
  split_ifs with h <;> simp [h]

theorem parseHeader_world_isSome {junk : Fin 28 → UInt8} {data : Bytes} {type : PacketType}
    (h : type = .worldClientToServer ∨ type = .worldServerToClient) :
    (parseHeader junk data type).isSome = true ↔ 4 ≤ data.length := by
  constructor
  · intro hs
    match data with
    | _ :: _ :: _ :: _ :: _ => simp only [List.length_cons]; omega
    | [] | [_] | [_, _] | [_, _, _] => simp [parseHeader, h] at hs
  · intro hd
    obtain ⟨header, hh, -⟩ := parseHeader_world junk h hd
    rw [hh]; rfl

theorem storeSync_isSome {junkHeader : Fin 28 → UInt8} {data : Bytes} {info : PacketInfo}
    (ht : info.type = classifyPacket info.id info.direction) :
    (storeSync junkHeader data info).isSome = true ↔
      (isWorldPacket info.id = true → 4 ≤ data.length) := by
  unfold storeSync
  split_ifs with hw
  · have htype := (@classifyPacket_world_iff info.id info.direction).mpr hw
    rw [Option.isSome_map, ht, parseHeader_world_isSome htype]
    exact ⟨fun h _ => h, fun h => h hw⟩
  · exact ⟨fun _ h => absurd h hw, fun _ => rfl⟩

theorem storeChunk_isSome {chunkSize : UInt32} {chunkData : Option Bytes} {info : PacketInfo} :
    (storeChunk chunkSize chunkData info).isSome = true ↔
      ∀ p ∈ chunkData, chunkSize.toNat ≤ p.length := by
  cases chunkData with
  | none => simp [storeChunk]
  | some p =>
    simp only [storeChunk, Option.mem_some_iff, forall_eq']
    split_ifs with h0
    · rw [Option.isSome_map, readBytes_isSome]
    · have h0' : chunkSize.toNat = 0 := by simpa [UInt32.lt_iff_toNat_lt] using h0
      simp [h0']

theorem createPacketInfo_isSome_iff (junk : PacketInfo) (junkHeader : Fin 28 → UInt8) (now : Int64)
    (id : UInt16) (size : UInt32) (data : Bytes) (direction : Direction) (injected blocked : Bool)
    (chunkSize : UInt32) (chunkData : Option Bytes) :
    (createPacketInfo junk junkHeader now id size data direction injected blocked chunkSize
      chunkData).isSome = true ↔ Readable id size data chunkSize chunkData := by
  simp only [createPacketInfo, Option.bind_eq_bind]
  by_cases hsize : size.toNat ≤ data.length
  · rw [readBytes_of_le hsize, Option.bind_some]
    have hsync := @storeSync_isSome junkHeader data
      { junk with
        name := getPacketName id (classifyPacket id direction)
        data := data.take size.toNat, sessionId := [], chunkData := []
        timestamp := now.toUInt64, direction := direction, id := id, size := size
        type := classifyPacket id direction
        injected := injected, blocked := blocked, chunkSize := chunkSize } rfl
    rcases hs : storeSync junkHeader data _ with _ | info
    · rw [hs] at hsync
      simp only [Option.bind_none, Option.isSome_none, Bool.false_eq_true, false_iff] at hsync ⊢
      exact fun h => hsync h.header
    · rw [hs] at hsync
      rw [Option.bind_some]
      have hchunk := @storeChunk_isSome chunkSize chunkData info
      have hh := hsync.mp rfl
      rcases hc : storeChunk chunkSize chunkData info with _ | info'
      · rw [hc] at hchunk
        simp only [Option.bind_none, Option.isSome_none, Bool.false_eq_true, false_iff] at hchunk ⊢
        exact fun h => hchunk h.chunk
      · rw [hc] at hchunk
        exact ⟨fun _ => ⟨hsize, hh, hchunk.mp rfl⟩, fun _ => rfl⟩
  · have hn : readBytes data size = none := if_neg hsize
    rw [hn]
    simp only [Option.bind_none, Option.isSome_none, Bool.false_eq_true, false_iff]
    exact fun h => hsize h.size_le

end PacketParser

namespace Plugin

open PacketParser PacketClassifier

/-- `zmq_relay_ && zmq_relay_->IsRunning()` -/
def relays (plugin : Plugin) : Bool :=
  match plugin.zmqRelay with
  | some r => r.running
  | none => false

/-- The second half of `HandleIncomingPacket`: whether the packet is blocked, and what becomes of
`modified`. -/
def rewriteIncoming (id : UInt16) (modified : Bytes) : Option (Bool × Bytes) := do
  if id = 0x005A then
    let b ← modified[0x10]?
    let modified := if b = 0x1D then modified.set 0x10 0x08 else modified
    let b ← modified[0x10]?
    return (b = 0x0C, modified)
  return (false, modified)

/-- The second half of `HandleOutgoingPacket`. -/
def rewriteOutgoing (id : UInt16) (modified : Bytes) : Option (Bool × Bytes) := do
  if id = 0x005D then
    let b ← modified[0x0A]?
    return (false, if b = 0x18 then modified.set 0x0A 0x08 else modified)
  return (false, modified)

theorem relayPacket_isSome (config : Config) (plugin : Plugin) (packet : Option PacketInfo) :
    (relayPacket config plugin packet).isSome = true ↔
      (plugin.relays = true → packet.isSome = true) := by
  unfold relayPacket relays
  rcases plugin.zmqRelay with _ | r
  · simp
  · cases hr : r.running <;> simp [hr]

theorem rewriteIncoming_isSome {id : UInt16} {modified : Bytes} :
    (rewriteIncoming id modified).isSome = true ↔ (id = 0x005A → 0x10 < modified.length) := by
  unfold rewriteIncoming
  by_cases hid : id = 0x005A
  · by_cases hl : 0x10 < modified.length
    · have hset : 0x10 < (modified.set 0x10 0x08).length := by rwa [List.length_set]
      rw [if_pos hid, List.getElem?_eq_getElem hl]
      simp only [Option.bind_eq_bind, Option.bind_some]
      split_ifs
      · rw [List.getElem?_eq_getElem hset]; simp [hl]
      · rw [List.getElem?_eq_getElem hl]; simp [hl]
    · rw [if_pos hid, List.getElem?_eq_none (by omega)]
      simp [hid, hl]
  · simp [hid]

theorem rewriteOutgoing_isSome {id : UInt16} {modified : Bytes} :
    (rewriteOutgoing id modified).isSome = true ↔ (id = 0x005D → 0x0A < modified.length) := by
  unfold rewriteOutgoing
  by_cases hid : id = 0x005D
  · by_cases hl : 0x0A < modified.length
    · rw [if_pos hid, List.getElem?_eq_getElem hl]; simp [hl]
    · rw [if_pos hid, List.getElem?_eq_none (by omega)]
      simp [hid, hl]
  · simp [hid]

section Callbacks

variable (config : Config) (plugin : Plugin) (junk : PacketInfo) (junkHeader : Fin 28 → UInt8)
  (now : Int64) (id : UInt16) (size : UInt32) (data modified : Bytes) (sizeChunk : UInt32)
  (dataChunk : Option Bytes) (injected blocked : Bool)

theorem handleIncomingPacket_eq :
    handleIncomingPacket config plugin junk junkHeader now id size data modified sizeChunk
        dataChunk injected blocked =
      (relayPacket config plugin (createPacketInfo junk junkHeader now id size data .incoming
        injected blocked sizeChunk dataChunk)).bind fun plugin =>
          (rewriteIncoming id modified).map fun p => (p.1, p.2, plugin) := by
  unfold handleIncomingPacket rewriteIncoming
  simp only [Option.bind_eq_bind, Option.pure_def]
  congr 1
  funext plugin
  split_ifs
  · simp only [Option.map_bind, Function.comp_def, Option.map_some]
  · rfl

theorem handleOutgoingPacket_eq :
    handleOutgoingPacket config plugin junk junkHeader now id size data modified sizeChunk
        dataChunk injected blocked =
      (relayPacket config plugin (createPacketInfo junk junkHeader now id size data .outgoing
        injected blocked sizeChunk dataChunk)).bind fun plugin =>
          (rewriteOutgoing id modified).map fun p => (p.1, p.2, plugin) := by
  unfold handleOutgoingPacket rewriteOutgoing
  simp only [Option.bind_eq_bind, Option.pure_def]
  congr 1
  funext plugin
  split_ifs
  · simp only [Option.map_bind, Function.comp_def, Option.map_some]
  · rfl

variable {id size data modified sizeChunk dataChunk}

/-- With buffers of `size` bytes a callback stays inside them exactly if world packets that are
relayed have a header, and the packet that is looked at for a rewrite has the byte in question. -/
theorem callbacks_inBounds_iff (hd : data.length = size.toNat) (hm : modified.length = size.toNat)
    (hc : ∀ p ∈ dataChunk, sizeChunk.toNat ≤ p.length) :
    ((handleIncomingPacket config plugin junk junkHeader now id size data modified sizeChunk
        dataChunk injected blocked).isSome = true ↔
      (plugin.relays = true → isWorldPacket id = true → 4 ≤ size.toNat) ∧
        (id = 0x005A → 0x10 < size.toNat)) ∧
    ((handleOutgoingPacket config plugin junk junkHeader now id size data modified sizeChunk
        dataChunk injected blocked).isSome = true ↔
      (plugin.relays = true → isWorldPacket id = true → 4 ≤ size.toNat) ∧
        (id = 0x005D → 0x0A < size.toNat)) := by
  have hread : ∀ direction, (relayPacket config plugin (createPacketInfo junk junkHeader now id size
      data direction injected blocked sizeChunk dataChunk)).isSome = true ↔
        (plugin.relays = true → isWorldPacket id = true → 4 ≤ size.toNat) := by
    intro direction
    rw [relayPacket_isSome, createPacketInfo_isSome_iff, ← hd]
    exact ⟨fun h hr => (h hr).header, fun h hr => ⟨Nat.le_of_eq hd.symm, h hr, hc⟩⟩
  constructor
  · rw [handleIncomingPacket_eq, Option.isSome_bind, ← hread .incoming, ← hm,
      ← rewriteIncoming_isSome]
    cases relayPacket config plugin _ <;> simp
  · rw [handleOutgoingPacket_eq, Option.isSome_bind, ← hread .outgoing, ← hm,
      ← rewriteOutgoing_isSome]
    cases relayPacket config plugin _ <;> simp

end Callbacks

/-- A running relay, as the callbacks see it. -/
def running : Plugin := { zmqRelay := some { running := true } }

/-- A whole packet is read inside its buffer. -/
theorem callbacks_inBounds_login :
    (handleOutgoingPacket Plugin.config running loginPacket (fun _ => 0) 1000 0x000A 4
      [0x0A, 0x02, 0x39, 0x30] [0x0A, 0x02, 0x39, 0x30] 0 none false false).isSome = true := by
  refine (callbacks_inBounds_iff Plugin.config running loginPacket (fun _ => 0) 1000 false false
    rfl rfl ?_).2.mpr ⟨fun _ _ => Nat.le_refl 4, fun h => ?_⟩
  · intro p hp; cases hp
  · cases h

/-- An empty packet is read behind its end by `ParseHeader` if a relay runs, and short packets of
two ids by the rewrites even if none does. -/
theorem callbacks_outOfBounds :
    (handleIncomingPacket Plugin.config running loginPacket (fun _ => 0) 1000 0x000A 0 [] [] 0 none
        false false).isSome = false ∧
      (handleIncomingPacket Plugin.config {} loginPacket (fun _ => 0) 1000 0x005A 4
        [0x5A, 0x02, 0, 0] [0x5A, 0x02, 0, 0] 0 none false false).isSome = false ∧
      (handleOutgoingPacket Plugin.config {} loginPacket (fun _ => 0) 1000 0x005D 4
        [0x5D, 0x02, 0, 0] [0x5D, 0x02, 0, 0] 0 none false false).isSome = false :=
  ⟨rfl, rfl, rfl⟩

end Plugin

/-! ### The game behind the plugin -/

/-- One callback: its arguments, what it finds in uninitialised memory and on the clock, and, if
the relay code throws, the relay as it leaves it. -/
structure PacketCallback where
  direction : Direction
  id : UInt16
  size : UInt32
  data : Bytes
  modified : Bytes
  sizeChunk : UInt32
  dataChunk : Option Bytes
  injected : Bool
  blocked : Bool
  junk : PacketInfo
  junkHeader : Fin 28 → UInt8
  now : Int64
  thrown : Option ZmqRelay

namespace Plugin

open PacketParser PacketClassifier

/-- The `try` block of a callback; its handler logs the exception and goes on. -/
def tryRelay (config : Config) (plugin : Plugin) (packet : Option PacketInfo) :
    Option ZmqRelay → Option Plugin
  | none => relayPacket config plugin packet
  | some r =>
    if plugin.relays then packet.map fun _ => { plugin with zmqRelay := some r } else some plugin

def rewrite (id : UInt16) (modified : Bytes) : Direction → Option (Bool × Bytes)
  | .incoming => rewriteIncoming id modified
  | .outgoing => rewriteOutgoing id modified

/-- `HandleIncomingPacket` or `HandleOutgoingPacket`. -/
def handlePacket (config : Config) (plugin : Plugin) (c : PacketCallback) :
    Option (Bool × Bytes × Plugin) :=
  (tryRelay config plugin (createPacketInfo c.junk c.junkHeader c.now c.id c.size c.data c.direction
    c.injected c.blocked c.sizeChunk c.dataChunk) c.thrown).bind fun plugin =>
      (rewrite c.id c.modified c.direction).map fun p => (p.1, p.2, plugin)

/-- Without an exception these are the two callbacks. -/
theorem handlePacket_eq {config : Config} {plugin : Plugin} {c : PacketCallback}
    (h : c.thrown = none) :
    handlePacket config plugin c =
      match c.direction with
      | .incoming => handleIncomingPacket config plugin c.junk c.junkHeader c.now c.id c.size c.data
          c.modified c.sizeChunk c.dataChunk c.injected c.blocked
      | .outgoing => handleOutgoingPacket config plugin c.junk c.junkHeader c.now c.id c.size c.data
          c.modified c.sizeChunk c.dataChunk c.injected c.blocked := by
  unfold handlePacket
  rw [h]
  cases c.direction with
  | incoming => exact (handleIncomingPacket_eq ..).symm
  | outgoing => exact (handleOutgoingPacket_eq ..).symm

end Plugin

namespace PacketCallback

open PacketParser PacketClassifier

/-- Everything that the callback reads is there. -/
def InBounds (plugin : Plugin) (c : PacketCallback) : Prop :=
  (plugin.relays = true → Readable c.id c.size c.data c.sizeChunk c.dataChunk) ∧
    match c.direction with
    | .incoming => c.id = 0x005A → 0x10 < c.modified.length
    | .outgoing => c.id = 0x005D → 0x0A < c.modified.length

/-- The packets that the callbacks change or block. -/
def Rewritten (c : PacketCallback) : Prop :=
  match c.direction with
  | .incoming => c.id = 0x005A ∧ (c.modified[0x10]? = some 0x1D ∨ c.modified[0x10]? = some 0x0C)
  | .outgoing => c.id = 0x005D ∧ c.modified[0x0A]? = some 0x18

end PacketCallback

namespace Plugin

open PacketParser

theorem tryRelay_isSome (config : Config) (plugin : Plugin) (packet : Option PacketInfo)
    (thrown : Option ZmqRelay) :
    (tryRelay config plugin packet thrown).isSome = true ↔
      (plugin.relays = true → packet.isSome = true) := by
  cases thrown with
  | none => exact relayPacket_isSome ..
  | some r =>
    unfold tryRelay
    split_ifs with h <;> simp [h]

theorem rewriteIncoming_eq_iff {id : UInt16} {modified : Bytes} :
    rewriteIncoming id modified = some (false, modified) ↔
      (id = 0x005A → 0x10 < modified.length) ∧
        ¬ (id = 0x005A ∧ (modified[0x10]? = some 0x1D ∨ modified[0x10]? = some 0x0C)) := by
  unfold rewriteIncoming
  by_cases hid : id = 0x005A
  · rcases hb : modified[0x10]? with _ | b
    · have hl := List.getElem?_eq_none_iff.mp hb
      simp [hid]; omega
    · obtain ⟨hl, hget⟩ := List.getElem?_eq_some_iff.mp hb
      by_cases h1 : b = 0x1D
      · -- the new byte is another one
        have hne : modified.set 0x10 0x08 ≠ modified := by
          intro he
          have := congrArg (·[0x10]?) he
          simp [hl, hget, h1] at this
        simp [hid, h1, hl, hne]
      · simp [hid, h1, hl, hget]
  · simp [hid]

theorem rewriteOutgoing_eq_iff {id : UInt16} {modified : Bytes} :
    rewriteOutgoing id modified = some (false, modified) ↔
      (id = 0x005D → 0x0A < modified.length) ∧ ¬ (id = 0x005D ∧ modified[0x0A]? = some 0x18) := by
  unfold rewriteOutgoing
  by_cases hid : id = 0x005D
  · rcases hb : modified[0x0A]? with _ | b
    · have hl := List.getElem?_eq_none_iff.mp hb
      simp [hid]; omega
    · obtain ⟨hl, hget⟩ := List.getElem?_eq_some_iff.mp hb
      by_cases h1 : b = 0x18
      · have hne : modified.set 0x0A 0x08 ≠ modified := by
          intro he
          have := congrArg (·[0x0A]?) he
          simp [hl, hget, h1] at this
        simp [hid, h1, hl, hne]
      · simp [hid, h1, hl]
  · simp [hid]

/-- The game gets every packet unblocked and with all its bytes. -/
def Passive (config : Config) (calls : List (Plugin × PacketCallback)) : Prop :=
  ∀ c ∈ calls, ∃ plugin, handlePacket config c.1 c.2 = some (false, c.2.modified, plugin)

/-- In a sequence of callbacks, each with the relay in any state, the plugin is a passive observer
exactly if no packet is read out of bounds and none is of the kinds that are rewritten. -/
theorem passive_iff (config : Config) (calls : List (Plugin × PacketCallback)) :
    Passive config calls ↔ ∀ c ∈ calls, c.2.InBounds c.1 ∧ ¬ c.2.Rewritten := by
  unfold Passive
  refine forall₂_congr fun ⟨plugin, c⟩ _ => ?_
  have hrelay := tryRelay_isSome config plugin (createPacketInfo c.junk c.junkHeader c.now c.id
    c.size c.data c.direction c.injected c.blocked c.sizeChunk c.dataChunk) c.thrown
  rw [createPacketInfo_isSome_iff] at hrelay
  have hsplit : (∃ plugin', handlePacket config plugin c = some (false, c.modified, plugin')) ↔
      (plugin.relays = true → Readable c.id c.size c.data c.sizeChunk c.dataChunk) ∧
        rewrite c.id c.modified c.direction = some (false, c.modified) := by
    rw [← hrelay]
    unfold handlePacket
    rcases tryRelay config plugin _ c.thrown with _ | plugin'
    · simp
    · rcases rewrite c.id c.modified c.direction with _ | ⟨b, m⟩ <;> simp
  rw [hsplit]
  unfold PacketCallback.InBounds PacketCallback.Rewritten
  cases c.direction with
  | incoming => exact (and_congr_right fun _ => rewriteIncoming_eq_iff).trans and_assoc.symm
  | outgoing => exact (and_congr_right fun _ => rewriteOutgoing_eq_iff).trans and_assoc.symm

/-- A motion message of 20 bytes whose byte `0x10` is `b`. -/
def motionMessage (b : UInt8) : PacketCallback where
  direction := .incoming
  id := 0x005A
  size := 20
  data := [0x5A, 0x0A, 1, 0, 0, 0, 0, 0, 0, 0, 0, 0, 0, 0, 0, 0, b, 0, 0, 0]
  modified := [0x5A, 0x0A, 1, 0, 0, 0, 0, 0, 0, 0, 0, 0, 0, 0, 0, 0, b, 0, 0, 0]
  sizeChunk := 0
  dataChunk := none
  injected := false
  blocked := false
  junk := loginPacket
  junkHeader := fun _ => 0
  now := 1000
  thrown := none

/-- The plugin blocks one motion and changes another, with or without a relay. -/
theorem not_passive_motion :
    ¬ Passive Plugin.config [({}, motionMessage 0x0C)] ∧
      (handlePacket Plugin.config {} (motionMessage 0x0C)).map Prod.fst = some true ∧
      ¬ Passive Plugin.config [(running, motionMessage 0x1D)] ∧
      (handlePacket Plugin.config running (motionMessage 0x1D)).map (·.2.1) =
        some (motionMessage 0x08).modified := by
  refine ⟨fun h => ?_, rfl, fun h => ?_, rfl⟩
  · obtain ⟨plugin, hp⟩ := h _ (List.mem_singleton.mpr rfl)
    cases hp
  · obtain ⟨plugin, hp⟩ := h _ (List.mem_singleton.mpr rfl)
    cases hp

end Plugin

end Kpacket
