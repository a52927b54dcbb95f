import Kpacket.Topics

/-!
# Families of ids

The range of the world packets is tested first and covers the whole table of the lobby packets
(`isWorldPacket_of_isLobbyPacket`), so that no id is ever classified as a lobby packet. Type and
predicates agree about a packet exactly if its id is not in that table (`classified_iff`).
-/

namespace Kpacket

/-- The header layout that was stored. -/
def HeaderUnion.layout : HeaderUnion → Option Family
  | .uninit _ => none
  | .world _ => some .world
  | .lobby _ => some .lobby

namespace PacketParser

open PacketClassifier

/-- The header whose world fields `CreatePacketInfo` reads, if it reads any. -/
def headerRead (junkHeader : Fin 28 → UInt8) (data : Bytes) (info : PacketInfo) :
    Option PacketHeader :=
  if isWorldPacket info.id then parseHeader junkHeader data info.type else none

theorem storeSync_eq_headerRead (junkHeader : Fin 28 → UInt8) (data : Bytes) (info : PacketInfo) :
    storeSync junkHeader data info =
      if isWorldPacket info.id then
        (headerRead junkHeader data info).map fun header =>
          { info with syncCount := header.worldSync }
      else some info := by
  unfold storeSync headerRead
  split_ifs <;> rfl

theorem parseHeader_eq_some {junk : Fin 28 → UInt8} {data : Bytes} {type : PacketType}
    {header : PacketHeader} (h : parseHeader junk data type = some header) :
    header.type = type ∧ (type.family = .world ↔ header.content.layout = some .world) ∧
      (type.family = .lobby ↔ header.content.layout = some .lobby) := by
  unfold parseHeader at h
  split_ifs at h with hw hl
  · split at h
    · cases h
      rcases hw with rfl | rfl <;> simp [PacketType.family, HeaderUnion.layout]
    · cases h
  · split at h
    · split_ifs at h
      cases h
      rcases hl with rfl | rfl <;> simp [PacketType.family, HeaderUnion.layout]
    · cases h
  · cases h
    refine ⟨rfl, ?_⟩
    rcases type <;> simp_all [PacketType.family, HeaderUnion.layout]

end PacketParser

namespace PacketClassifier

/-- The table of the lobby packets lies in the range of the world packets. -/
theorem isWorldPacket_of_isLobbyPacket {id : UInt16} (h : isLobbyPacket id = true) :
    isWorldPacket id = true := by
  have hall : lobbyPackets.all (fun e => isWorldPacket e.1) = true := rfl
  obtain ⟨name, hn⟩ := Option.isSome_iff_exists.mp h
  exact List.all_eq_true.mp hall (id, name) (KeyMap.mem_of_lookup hn)

theorem family_classifyPacket (id : UInt16) (direction : Direction) :
    (classifyPacket id direction).family =
      if isWorldPacket id then .world
      else if isLobbyPacket id then .lobby
      else if isPatchPacket id then .patch
      else .unknown := by
  have hp : isPatchPacket id = true ↔ 0x0001 ≤ id ∧ id ≤ 0x0008 := by simp [isPatchPacket]
  simp only [classifyPacket, isWorldPacket_iff, hp, isLobbyPacket]
  rcases direction with _ | _ <;> split_ifs <;> rfl

theorem family_ne_lobby (id : UInt16) (direction : Direction) :
    (classifyPacket id direction).family ≠ .lobby := by
  rw [family_classifyPacket]
  split_ifs with hw hl
  · exact nofun
  · exact absurd (isWorldPacket_of_isLobbyPacket hl) hw
  all_goals exact nofun

end PacketClassifier

open PacketParser PacketClassifier

/-- The type of a packet, and what is made of it, agree with the predicates on its id. -/
structure Classified (config : Config) (junkHeader : Fin 28 → UInt8) (data : Bytes) (id : UInt16)
    (packet : PacketInfo) : Prop where
  lobby : packet.type.family = .lobby ↔ isLobbyPacket id = true
  world : packet.type.family = .world ↔ isWorldPacket id = true ∧ isLobbyPacket id = false
  patch : packet.type.family = .patch → isPatchPacket id = true
  unknown : packet.type.family = .unknown →
    isWorldPacket id = false ∧ isLobbyPacket id = false ∧ isPatchPacket id = false
  /-- World fields are read of a header of a world type. -/
  header : ∀ header, headerRead junkHeader data packet = some header →
    header.type = packet.type ∧ header.type.family = .world ∧
      header.content.layout = some .world
  topic : ∃ t, parseTopic (topicForPacket config packet) = some t ∧
    t.family = packet.type.family ∧
      (toJson packet).lookup (lit "packet_type") = some (.string t.packetTypeName)
  name : packet.name = getPacketName id packet.type

/-- Type and predicates agree about a packet exactly if its id is not in the table of the lobby
packets. -/
theorem classified_iff (config : Config) {junk : PacketInfo} {junkHeader : Fin 28 → UInt8}
    {now : Int64} {id : UInt16} {size : UInt32} {data : Bytes} {direction : Direction}
    {injected blocked : Bool} {chunkSize : UInt32} {chunkData : Option Bytes} {packet : PacketInfo}
    (h : createPacketInfo junk junkHeader now id size data direction injected blocked chunkSize
      chunkData = some packet) :
    Classified config junkHeader data id packet ↔ isLobbyPacket id = false := by
  have hc : Created packet := ⟨_, _, _, _, _, _, _, _, _, _, _, h⟩
  have htype : packet.type = classifyPacket id direction ∧ packet.id = id ∧
      packet.name = getPacketName id packet.type := by
    obtain ⟨-, -, syncCount, rfl⟩ := createPacketInfo_eq_some h
    exact ⟨rfl, rfl, rfl⟩
  obtain ⟨ht, hid, hname⟩ := htype
  have hfamily := family_classifyPacket id direction
  rw [← ht] at hfamily
  constructor
  · intro hall
    rw [Bool.eq_false_iff]
    intro hl
    exact family_ne_lobby id direction (ht ▸ hall.lobby.mpr hl)
  · intro hl
    rw [hl, if_neg Bool.false_ne_true] at hfamily
    refine ⟨?_, ?_, ?_, ?_, ?_, ?_, hname⟩
    · rw [hfamily, hl]
      split_ifs <;> simp
    · rw [hfamily, hl]
      split_ifs with hw hp <;> simp [hw]
    · intro hf
      rw [hfamily] at hf
      split_ifs at hf with hw hp
      exact hp
    · intro hf
      rw [hfamily] at hf
      split_ifs at hf with hw hp
      exact ⟨Bool.eq_false_iff.mpr hw, hl, Bool.eq_false_iff.mpr hp⟩
    · intro header hh
      obtain ⟨hw, hh⟩ := Option.ite_none_right_eq_some.mp hh
      obtain ⟨htype, hlayout, -⟩ := parseHeader_eq_some hh
      have hworld : packet.type.family = .world := by rw [hfamily, ← hid, if_pos hw]
      exact ⟨htype, htype ▸ hworld, hlayout.mp hworld⟩
    · refine ⟨packet.topic, parseTopic_topicForPacket config packet, rfl, ?_⟩
      rw [lookup_toJson, if_neg (fun h => absurd h.1 (by decide)), ← packetTypeName_topic hc]
      rfl

/-- A login packet is what the predicates say. -/
theorem classified_login : Classified {} (fun _ => 0) [0x0A, 0x02, 0x39, 0x30] 0x000A loginPacket :=
  have hc : createPacketInfo loginPacket (fun _ => 0) 1000 0x000A 4 [0x0A, 0x02, 0x39, 0x30]
      .outgoing false false 2 (some [1, 2]) = some loginPacket := rfl
  (classified_iff {} hc).mpr rfl

/-- The packet `RequestSelectChr` of the lobby becomes a world packet without a name, in both
directions. -/
theorem not_classified_selectChr : isLobbyPacket 0x0007 = true ∧ ∃ p q,
    createPacketInfo loginPacket (fun _ => 0) 1000 0x0007 4 [7, 2, 1, 0] .incoming false false 0
        none = some p ∧
      createPacketInfo loginPacket (fun _ => 0) 1000 0x0007 4 [7, 2, 1, 0] .outgoing false false 0
        none = some q ∧
      (p.type, p.name) = (.worldServerToClient, lit "UNKNOWN_WORLD_SERVER") ∧
      (q.type, q.name) = (.worldClientToServer, lit "UNKNOWN_WORLD_CLIENT") ∧
      ¬ Classified {} (fun _ => 0) [7, 2, 1, 0] 0x0007 p ∧
      ¬ Classified {} (fun _ => 0) [7, 2, 1, 0] 0x0007 q := by
  refine ⟨rfl, _, _, rfl, rfl, rfl, rfl, fun h => ?_, fun h => ?_⟩
  · cases h.lobby.mpr rfl
  · cases h.lobby.mpr rfl

end Kpacket
