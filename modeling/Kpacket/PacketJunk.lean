import Kpacket.Wire

/-!
# Stale memory in published packets

Two runs of `CreatePacketInfo` that differ only in what its locals held before. For world ids
`to_json` writes the same message in both; for all others `metadata.sync_count` is what was found
in memory (`syncCountOf_toJson`).
-/

namespace Kpacket

open PacketClassifier PacketParser

/-- `metadata.sync_count` of a message. -/
def syncCountOf (j : Json) : Option Json :=
  (j.lookup (lit "metadata")).bind fun md => md.lookup (lit "sync_count")

theorem syncCountOf_toJson (packet : PacketInfo) :
    syncCountOf (toJson packet) = some (.integer packet.syncCount.toNat) := by
  have hm : (toJson packet).lookup (lit "metadata") =
      some (Json.obj (metadataFields packet)) := by
    unfold toJson
    split_ifs
    · rw [Json.lookup_set (Json.isObject_obj _), Json.lookup_obj]; rfl
    · rw [Json.lookup_obj]; rfl
  rw [syncCountOf, hm, Option.bind_some, Json.lookup_obj]
  rfl

/-- A packet all of whose bytes are zero but for the sync counter. -/
def blankPacket (syncCount : UInt16) : PacketInfo where
  timestamp := 0
  direction := .incoming
  type := .unknown
  id := 0
  name := []
  size := 0
  data := []
  injected := false
  blocked := false
  chunkSize := 0
  sessionId := []
  syncCount := syncCount
  chunkData := []

/-- The published JSON depends on the arguments alone exactly for the ids of the world range. -/
theorem toJson_createPacketInfo_iff (now : Int64) (id : UInt16) {size : UInt32} {data : Bytes}
    (direction : Direction) (injected blocked : Bool) {chunkSize : UInt32}
    {chunkData : Option Bytes} (hsize : size.toNat ≤ data.length) (hfour : 4 ≤ data.length)
    (hchunk : ∀ p ∈ chunkData, chunkSize.toNat ≤ p.length) :
    (∀ junk junk' junkHeader junkHeader', ∃ packet packet',
      createPacketInfo junk junkHeader now id size data direction injected blocked chunkSize
          chunkData = some packet ∧
        createPacketInfo junk' junkHeader' now id size data direction injected blocked chunkSize
            chunkData = some packet' ∧
          toJson packet = toJson packet') ↔
      isWorldPacket id = true := by
  have hc := fun junk junkHeader => createPacketInfo_eq junk junkHeader now id direction injected
    blocked hsize hfour hchunk
  refine ⟨fun h => ?_, fun hw junk junk' junkHeader junkHeader' => ?_⟩
  · -- two stale counters, told apart in the message
    by_contra hw
    obtain ⟨packet, packet', hp, hp', hj⟩ :=
      h (blankPacket 0) (blankPacket 1) (fun _ => 0) fun _ => 0
    have hs : packet.syncCount = 0 := by
      rw [hc] at hp; cases hp; exact if_neg hw
    have hs' : packet'.syncCount = 1 := by
      rw [hc] at hp'; cases hp'; exact if_neg hw
    have := congrArg syncCountOf hj
    rw [syncCountOf_toJson, syncCountOf_toJson, hs, hs'] at this
    cases this
  · refine ⟨_, _, hc junk junkHeader, hc junk' junkHeader', ?_⟩
    rw [if_pos hw, if_pos hw]

/-- A login packet with a chunk is published alike whatever counter memory held. -/
theorem login_toJson_eq :
    ∃ packet packet',
      createPacketInfo (blankPacket 0) (fun _ => 0) 1000 0x000A 4 [0x0A, 0x02, 0x39, 0x30] .outgoing
          false false 2 (some [1, 2]) = some packet ∧
        createPacketInfo (blankPacket 0xBEEF) (fun _ => 1) 1000 0x000A 4 [0x0A, 0x02, 0x39, 0x30]
            .outgoing false false 2 (some [1, 2]) = some packet' ∧
          toJson packet = toJson packet' :=
  (toJson_createPacketInfo_iff 1000 0x000A .outgoing false false (by decide) (by decide)
    (by rintro _ ⟨⟩; decide)).mpr (by decide) _ _ _ _

/-- A patch packet with id 1 is published with the counter found in memory. -/
theorem patch_toJson_ne :
    ∃ packet packet',
      createPacketInfo (blankPacket 0) (fun _ => 0) 1000 0x0001 4 [1, 0, 0, 0] .incoming false false
          0 none = some packet ∧
        createPacketInfo (blankPacket 0xBEEF) (fun _ => 0) 1000 0x0001 4 [1, 0, 0, 0] .incoming
            false false 0 none = some packet' ∧
          toJson packet ≠ toJson packet' := by
  have hc := fun junk => createPacketInfo_eq junk (fun _ => 0) 1000 0x0001 .incoming false
    false (show (4 : UInt32).toNat ≤ ([1, 0, 0, 0] : Bytes).length by decide) (by decide)
    (show ∀ p ∈ (none : Option Bytes), (0 : UInt32).toNat ≤ p.length by simp)
  refine ⟨_, _, hc _, hc _, fun h => ?_⟩
  have := congrArg syncCountOf h
  rw [syncCountOf_toJson, syncCountOf_toJson] at this
  exact absurd (Json.integer.inj (Option.some.inj this)) (by decide)

end Kpacket
