import Kpacket.WireModes

/-!
# Announced lengths

A message announces the length of its data and of its chunk. `receive` takes the frames of either
mode apart; what it finds are the fields of the packet (`receive_message`), so that the lengths
agree exactly if no chunk size came without a chunk (`lengthsMatch_iff`).
-/

namespace Kpacket

/-- What a receiver finds in the frames of a message: the fields, the data, and the chunk if there
is one. -/
structure Carried where
  fields : Json
  data : Bytes
  chunk : Option Bytes

namespace Carried

def size (c : Carried) : Option Nat := getNat c.fields (lit "size")

def chunkSize (c : Carried) : Option Nat :=
  (c.fields.lookup (lit "metadata")).bind fun md => getNat md (lit "chunk_size")

end Carried

/-- Two frames are a JSON-only message, three or four a raw one. -/
def receive : List Bytes → Option Carried
  | [_, text] => do
    let j ← JsonText.read text
    let data ← Base64.decode (← getText j (lit "data"))
    match j.lookup (lit "chunk_data") with
    | none => return ⟨j, data, none⟩
    | some x =>
      match x with
      | .string chunk => return ⟨j, data, some (← Base64.decode chunk)⟩
      | _ => none
  | [_, text, data] => (JsonText.read text).map fun j => ⟨j, data, none⟩
  | [_, text, data, chunk] => (JsonText.read text).map fun j => ⟨j, data, some chunk⟩
  | _ => none

/-- The lengths announced are those of the data and the chunk, and 0 is announced exactly for a
missing chunk. -/
structure LengthsMatch (c : Carried) : Prop where
  data : c.size = some c.data.length
  chunk : c.chunkSize = some (c.chunk.getD []).length
  absent : c.chunkSize = some 0 ↔ c.chunk = none

theorem PacketParser.length_chunkBytes_iff {chunkSize : UInt32} {chunkData : Option Bytes}
    (h : ∀ p ∈ chunkData, chunkSize.toNat ≤ p.length) :
    (chunkBytes chunkSize chunkData).length = chunkSize.toNat ↔
      (chunkData = none → chunkSize = 0) := by
  unfold chunkBytes
  rcases chunkData with _ | p
  · rw [Option.getD_none, List.take_nil, List.length_nil, eq_comm]
    exact ⟨fun h0 _ => UInt32.toNat_inj.mp h0, fun h0 => by rw [h0 rfl]; rfl⟩
  · rw [Option.getD_some, List.length_take, Nat.min_eq_left (h p rfl)]
    exact iff_of_true rfl nofun

variable {env : Env} {packet : PacketInfo} {messageId : UInt64} {frames : List Bytes}

theorem receive_json {topic text : Bytes}
    (h : JsonText.read text = some (jsonMsg env packet messageId)) :
    receive [topic, text] =
      some ⟨jsonMsg env packet messageId, packet.data, chunkFrame packet⟩ := by
  simp only [receive, h, getText, lookup_data, lookup_chunkData, chunkFrame, base64Encode_eq,
    Base64.decode_encode, Option.bind_eq_bind, Option.bind_some, Option.pure_def]
  split_ifs with hc
  · simp only [Base64.decode_encode, Option.bind_some]
  · rfl

theorem receive_raw {topic text : Bytes}
    (h : JsonText.read text = some (metaOf (jsonMsg env packet messageId))) :
    receive ([topic, text, packet.data] ++ (chunkFrame packet).toList) =
      some ⟨metaOf (jsonMsg env packet messageId), packet.data, chunkFrame packet⟩ := by
  rcases chunkFrame packet with _ | chunk
  · simp only [Option.toList_none, List.append_nil, receive, h, Option.map_some]
  · simp only [Option.toList_some, List.cons_append, List.nil_append, receive, h, Option.map_some]

/-- What a receiver finds in a message, whichever mode it was sent in. -/
structure Carries (env : Env) (packet : PacketInfo) (c : Carried) : Prop where
  data : c.data = packet.data
  chunk : c.chunk = chunkFrame packet
  fields : ∀ k, k ∉ framingKeys → c.fields.lookup k = KeyMap.lookup k (packetFields packet)
  sessionUuid : c.fields.lookup (lit "session_uuid") = some (.string env.sessionUuid)

theorem receive_message (hd : LawfulDump env.json.dump)
    (h : message env packet messageId = .ok frames) :
    ∃ c, receive frames = some c ∧ Carries env packet c := by
  have hp := plain_jsonMsg env packet messageId
  rcases framed_of_message h with ⟨-, ht⟩ | ⟨-, ht⟩
  · exact ⟨_, receive_json (hd.read hp ht), rfl, rfl,
      fun k hk => lookup_jsonMsg env packet messageId hk, lookup_sessionUuid env packet messageId⟩
  · refine ⟨_, receive_raw (hd.read ((hp.erase _).erase _) ht), rfl, rfl,
      fun k hk => lookup_metaOf env packet messageId hk, ?_⟩
    rw [lookup_metaOf_of_ne (by decide) (by decide), lookup_sessionUuid]

theorem Carries.size {c : Carried} (h : Carries env packet c) :
    c.size = some packet.size.toNat := by
  rw [Carried.size, getNat, h.fields (lit "size") (by decide)]
  rfl

theorem Carries.chunkSize {c : Carried} (h : Carries env packet c) :
    c.chunkSize = some packet.chunkSize.toNat := by
  rw [Carried.chunkSize, h.fields (lit "metadata") (by decide)]
  rfl

open PacketParser

/-- The lengths that the message of a packet announces are those of what it carries, in either mode,
exactly if the packet was not captured with a chunk size and without a chunk. -/
theorem lengthsMatch_iff (hd : LawfulDump env.json.dump) {junk : PacketInfo}
    {junkHeader : Fin 28 → UInt8} {now : Int64} {id : UInt16} {size : UInt32} {data : Bytes}
    {direction : Direction} {injected blocked : Bool} {chunkSize : UInt32}
    {chunkData : Option Bytes}
    (hc : createPacketInfo junk junkHeader now id size data direction injected blocked chunkSize
      chunkData = some packet) (h : message env packet messageId = .ok frames) :
    (∃ c, receive frames = some c ∧ LengthsMatch c) ↔ (chunkData = none → chunkSize = 0) := by
  obtain ⟨hsize, hchunk, syncCount, rfl⟩ := createPacketInfo_eq_some hc
  obtain ⟨c, hr, hm⟩ := receive_message hd h
  have hcs := hm.chunkSize
  rw [← length_chunkBytes_iff hchunk]
  have hlen : (c.chunk.getD []).length = (chunkBytes chunkSize chunkData).length := by
    rw [hm.chunk, chunkFrame]
    split_ifs with h0
    · rfl
    · rw [not_not] at h0
      exact congrArg List.length h0.symm
  have hnone : c.chunk = none ↔ (chunkBytes chunkSize chunkData).length = 0 := by
    rw [hm.chunk, chunkFrame, List.length_eq_zero_iff]
    split_ifs with h0
    · exact iff_of_false nofun h0
    · exact iff_of_true rfl (not_not.mp h0)
  constructor
  · rintro ⟨c', hr', hmatch⟩
    obtain rfl := Option.some.inj (hr.symm.trans hr')
    have hchunk := hmatch.chunk
    rw [hcs, hlen] at hchunk
    exact (Option.some.inj hchunk).symm
  · intro hl
    refine ⟨c, hr, ?_, ?_, ?_⟩
    · rw [hm.size, hm.data, List.length_take, Nat.min_eq_left hsize]
    · rw [hcs, hlen, hl]
    · rw [hcs, hnone, hl, Option.some.injEq]

/-- A login packet with a chunk of two bytes announces both lengths. -/
theorem lengthsMatch_login : ∃ frames, message (defaultEnv id) loginPacket 7 = .ok frames ∧
    ∃ c, receive frames = some c ∧ LengthsMatch c := by
  obtain ⟨frames, h⟩ := message_ok (defaultEnv id) loginPacket 7 (lawfulDump_defaultEnv id)
    (by decide) (by decide) (by decide) (by decide)
  have hc : createPacketInfo loginPacket (fun _ => 0) 1000 0x000A 4 [0x0A, 0x02, 0x39, 0x30]
      .outgoing false false 2 (some [1, 2]) = some loginPacket := rfl
  exact ⟨frames, h, (lengthsMatch_iff (lawfulDump_defaultEnv id) hc h).mpr nofun⟩

/-- The same packet captured with the chunk size 256 and without a chunk. -/
def chunklessPacket : PacketInfo := { loginPacket with chunkSize := 256, chunkData := [] }

/-- In both modes 256 bytes are announced that do not come. -/
theorem not_lengthsMatch_chunkless :
    createPacketInfo loginPacket (fun _ => 0) 1000 0x000A 4 [0x0A, 0x02, 0x39, 0x30] .outgoing false
        false 256 none = some chunklessPacket ∧
      (∃ frames c, message ((defaultEnv id).withRaw true) chunklessPacket 7 = .ok frames ∧
        receive frames = some c ∧ c.chunkSize = some 256 ∧ c.chunk = none ∧
          ¬ ∃ c, receive frames = some c ∧ LengthsMatch c) ∧
      ∃ frames c, message ((defaultEnv id).withRaw false) chunklessPacket 7 = .ok frames ∧
        receive frames = some c ∧ c.chunkSize = some 256 ∧ c.chunk = none ∧
          ¬ ∃ c, receive frames = some c ∧ LengthsMatch c := by
  have key : ∀ raw, ∃ frames c,
      message ((defaultEnv id).withRaw raw) chunklessPacket 7 = .ok frames ∧
        receive frames = some c ∧ c.chunkSize = some 256 ∧ c.chunk = none ∧
          ¬ ∃ c, receive frames = some c ∧ LengthsMatch c := by
    intro raw
    have hd : LawfulDump ((defaultEnv id).withRaw raw).json.dump := lawfulDump_defaultEnv id
    obtain ⟨frames, h⟩ := message_ok ((defaultEnv id).withRaw raw) chunklessPacket 7 hd
      (by decide) (by decide) (show IsUtf8 (lit "v1") by decide)
      (show IsUtf8 (lit "1700000000000") by decide)
    obtain ⟨c, hr, hm⟩ := receive_message hd h
    refine ⟨frames, c, h, hr, hm.chunkSize, hm.chunk, ?_⟩
    rintro ⟨c', hr', hmatch⟩
    obtain rfl := Option.some.inj (hr.symm.trans hr')
    have hchunk := hmatch.chunk
    rw [hm.chunkSize, hm.chunk] at hchunk
    cases hchunk
  exact ⟨rfl, key true, key false⟩

end Kpacket
