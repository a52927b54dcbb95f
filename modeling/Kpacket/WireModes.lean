import Kpacket.Wire

/-!
# Both modes of the PUB stream carry the same message

The message of the JSON-only mode is the text of the raw mode with the payload put back
(`restore_metaOf`), and `decodeMeta` reads every field from either (`decodeMeta_eq`).
-/

namespace Kpacket

/-! ### Shape of a message -/

theorem plain_metadataFields (packet : PacketInfo) : (Json.obj (metadataFields packet)).Plain :=
  .obj_of_fields (by simp [metadataFields, Json.PlainFields, Json.Plain])

theorem plain_packetFields (packet : PacketInfo) : (Json.obj (packetFields packet)).Plain :=
  .obj_of_fields (by
    simp [packetFields, Json.PlainFields, Json.Plain, plain_metadataFields])

theorem plain_toJson (packet : PacketInfo) : (toJson packet).Plain := by
  unfold toJson
  split_ifs
  · exact (plain_packetFields packet).set _ (Json.plain_string _)
  · exact plain_packetFields packet

theorem isObject_toJson (packet : PacketInfo) : (toJson packet).isObject = true := by
  unfold toJson
  split_ifs
  · rw [Json.isObject_set, Json.isObject_obj]
  · exact Json.isObject_obj _

variable (env : Env) (packet : PacketInfo) (messageId : UInt64)

theorem plain_jsonMsg : (jsonMsg env packet messageId).Plain :=
  (((plain_toJson packet).set _ (Json.plain_string _)).set _ (Json.plain_string _)).set _
    (Json.plain_integer _)

theorem isObject_jsonMsg : (jsonMsg env packet messageId).isObject = true := by
  simp only [jsonMsg, Json.isObject_set, isObject_toJson]

theorem lookup_toJson (k : Bytes) :
    (toJson packet).lookup k =
      if k = lit "chunk_data" ∧ packet.chunkData ≠ [] then
        some (.string (base64Encode packet.chunkData))
      else KeyMap.lookup k (packetFields packet) := by
  unfold toJson
  by_cases h : packet.chunkData = []
  · simp [h, Json.lookup_obj]
  · simp [h, Json.lookup_set (Json.isObject_obj _), Json.lookup_obj]

/-- The keys that are added to the fields of the packet, and the two payloads. -/
def framingKeys : List Bytes :=
  [lit "message_id", lit "session_uuid", lit "version", lit "chunk_data", lit "data"]

theorem lookup_jsonMsg {k : Bytes} (hk : k ∉ framingKeys) :
    (jsonMsg env packet messageId).lookup k = KeyMap.lookup k (packetFields packet) := by
  simp only [framingKeys, List.mem_cons, List.not_mem_nil, or_false, not_or] at hk
  obtain ⟨h1, h2, h3, h4, -⟩ := hk
  simp only [jsonMsg, Json.lookup_set, Json.isObject_set, isObject_toJson, lookup_toJson, h1, h2,
    h3, h4, if_false, false_and]

theorem lookup_data :
    (jsonMsg env packet messageId).lookup (lit "data") =
      some (.string (base64Encode packet.data)) := by
  simp only [jsonMsg, Json.lookup_set, Json.isObject_set, isObject_toJson, lookup_toJson]
  rfl

theorem lookup_chunkData :
    (jsonMsg env packet messageId).lookup (lit "chunk_data") =
      if packet.chunkData ≠ [] then some (.string (base64Encode packet.chunkData)) else none := by
  simp only [jsonMsg, Json.lookup_set, Json.isObject_set, isObject_toJson, lookup_toJson]
  by_cases h : packet.chunkData = []
  · rw [h]; rfl
  · simp [h]; rfl

theorem lookup_version : (jsonMsg env packet messageId).lookup (lit "version") =
    some (.string env.config.protocolVersion) := by
  simp only [jsonMsg, Json.lookup_set, Json.isObject_set, isObject_toJson]
  rfl

theorem lookup_sessionUuid : (jsonMsg env packet messageId).lookup (lit "session_uuid") =
    some (.string env.sessionUuid) := by
  simp only [jsonMsg, Json.lookup_set, Json.isObject_set, isObject_toJson]
  rfl

theorem lookup_messageId : (jsonMsg env packet messageId).lookup (lit "message_id") =
    some (.integer messageId.toNat) := by
  simp only [jsonMsg, Json.lookup_set, Json.isObject_set, isObject_toJson]
  rfl

theorem lookup_metaOf_of_ne {j : Json} {k : Bytes} (hd : k ≠ lit "data")
    (hc : k ≠ lit "chunk_data") : (metaOf j).lookup k = j.lookup k := by
  rw [metaOf, Json.lookup_erase, Json.lookup_erase, if_neg hc, if_neg hd]

theorem lookup_metaOf {k : Bytes} (hk : k ∉ framingKeys) :
    (metaOf (jsonMsg env packet messageId)).lookup k = KeyMap.lookup k (packetFields packet) := by
  rw [lookup_metaOf_of_ne, lookup_jsonMsg _ _ _ hk]
  · rintro rfl; exact hk (by decide)
  · rintro rfl; exact hk (by decide)

/-- The optional frame behind the raw packet data. -/
def chunkFrame : Option Bytes := if packet.chunkData ≠ [] then some packet.chunkData else none

theorem toList_chunkFrame : (chunkFrame packet).toList =
    if packet.chunkData ≠ [] then [packet.chunkData] else [] := by
  unfold chunkFrame; split_ifs <;> rfl

/-- Erasing the payload and putting it back is the identity on messages. -/
theorem restore_metaOf :
    restore (metaOf (jsonMsg env packet messageId)) packet.data (chunkFrame packet) =
      jsonMsg env packet messageId := by
  have hp := plain_jsonMsg env packet messageId
  have ho := isObject_jsonMsg env packet messageId
  have hd := lookup_data env packet messageId
  have hc := lookup_chunkData env packet messageId
  have hm : (metaOf (jsonMsg env packet messageId)).Plain := (hp.erase _).erase _
  have hne : lit "data" ≠ lit "chunk_data" := by decide
  have hom : (metaOf (jsonMsg env packet messageId)).isObject = true := by
    simp only [metaOf, Json.isObject_erase, ho]
  have hl : ∀ k, (metaOf (jsonMsg env packet messageId)).lookup k =
      if k = lit "data" ∨ k = lit "chunk_data" then none
      else (jsonMsg env packet messageId).lookup k := by
    intro k
    simp only [metaOf, Json.lookup_erase]
    split_ifs <;> simp_all
  generalize metaOf (jsonMsg env packet messageId) = m at *
  generalize jsonMsg env packet messageId = j at *
  unfold restore chunkFrame
  split_ifs at hc ⊢ with h
  · refine ((hm.set _ (Json.plain_string _)).set _ (Json.plain_string _)).ext hp ?_ ho fun k => ?_
    · simp only [Json.isObject_set, hom]
    · simp only [Json.lookup_set, Json.isObject_set, hom, hl]
      split_ifs <;> simp_all
  · refine (hm.set _ (Json.plain_string _)).ext hp ?_ ho fun k => ?_
    · simp only [Json.isObject_set, hom]
    · simp only [Json.lookup_set, hom, hl]
      split_ifs <;> simp_all

/-! ### Reading a message -/

theorem find_packetType (t : PacketType) :
    packetTypes.find? (fun u => packetTypeName u = packetTypeName t) = some t := by
  cases t <;> rfl

theorem directionName_incoming_iff (d : Direction) :
    directionName d = lit "incoming" ↔ d = .incoming := by
  cases d <;> decide

variable {env packet messageId}

/-- A receiver reads all fields from any object that has the keys of a message. -/
theorem decodeMeta_eq {j : Json}
    (hj : ∀ k, k ∉ framingKeys → j.lookup k = KeyMap.lookup k (packetFields packet))
    (hv : j.lookup (lit "version") = some (.string env.config.protocolVersion))
    (hs : j.lookup (lit "session_uuid") = some (.string env.sessionUuid))
    (hi : j.lookup (lit "message_id") = some (.integer messageId.toNat)) (topic : Bytes) :
    decodeMeta topic j packet.data packet.chunkData =
      some ⟨topic, env.config.protocolVersion, env.sessionUuid, messageId, packet⟩ := by
  have hk : ∀ {k x}, k ∉ framingKeys → KeyMap.lookup k (packetFields packet) = some x →
      j.lookup k = some x := fun h hx => (hj _ h).trans hx
  have hm : ∀ {k x}, KeyMap.lookup k (metadataFields packet) = some x →
      (Json.obj (metadataFields packet)).lookup k = some x :=
    fun hx => (Json.lookup_obj ..).trans hx
  have hmd := hk (k := lit "metadata") (by decide) rfl
  have hdir := hk (k := lit "direction") (by decide) rfl
  have htype := hk (k := lit "packet_type") (by decide) rfl
  have htime := hk (k := lit "timestamp") (by decide) rfl
  have hid := hk (k := lit "packet_id") (by decide) rfl
  have hname := hk (k := lit "packet_name") (by decide) rfl
  have hsize := hk (k := lit "size") (by decide) rfl
  have hinj := hm (k := lit "injected") rfl
  have hblk := hm (k := lit "blocked") rfl
  have hcs := hm (k := lit "chunk_size") rfl
  have hsid := hm (k := lit "session_id") rfl
  have hsc := hm (k := lit "sync_count") rfl
  have hd : (if packet.direction = .incoming then Direction.incoming else .outgoing) =
      packet.direction := by
    cases packet.direction <;> rfl
  simp only [decodeMeta, getText, getNat, getFlag, hv, hs, hi, hmd, hdir, htype, htime, hid, hname,
    hsize, hinj, hblk, hcs, hsid, hsc, Option.bind_eq_bind, Option.bind_some, Option.pure_def,
    find_packetType, directionName_incoming_iff, hd, Int.toNat_natCast, UInt64.ofNat_toNat,
    UInt32.ofNat_toNat, UInt16.ofNat_toNat]

variable (env packet messageId)

theorem decodeMeta_jsonMsg (topic : Bytes) :
    decodeMeta topic (jsonMsg env packet messageId) packet.data packet.chunkData =
      some ⟨topic, env.config.protocolVersion, env.sessionUuid, messageId, packet⟩ := by
  exact decodeMeta_eq (fun k hk => lookup_jsonMsg env packet messageId hk)
    (lookup_version env packet messageId) (lookup_sessionUuid env packet messageId)
    (lookup_messageId env packet messageId) topic

theorem decodeMeta_metaOf (topic : Bytes) :
    decodeMeta topic (metaOf (jsonMsg env packet messageId)) packet.data packet.chunkData =
      some ⟨topic, env.config.protocolVersion, env.sessionUuid, messageId, packet⟩ := by
  refine decodeMeta_eq (fun k hk => lookup_metaOf env packet messageId hk) ?_ ?_ ?_ topic
  · rw [lookup_metaOf_of_ne (by decide) (by decide), lookup_version]
  · rw [lookup_metaOf_of_ne (by decide) (by decide), lookup_sessionUuid]
  · rw [lookup_metaOf_of_ne (by decide) (by decide), lookup_messageId]

/-! ### Which messages can be dumped -/

theorem isUtf8_base64Encode (data : Bytes) : IsUtf8 (base64Encode data) := by
  have ha : ∀ c ∈ Base64.alphabet, c < 0x80 := fun c hc => of_decide_eq_true
    (List.all_eq_true.mp (rfl : Base64.alphabet.all (fun c => decide (c < 0x80)) = true) c hc)
  obtain ⟨body, hb, he⟩ := Base64.encode_shape data
  rw [base64Encode_eq, he]
  refine IsUtf8.of_ascii fun c hc => ?_
  rcases List.mem_append.mp hc with hc | hc
  · exact ha c (hb c hc)
  · rw [(List.mem_replicate.mp hc).2]; decide

theorem utf8_restore {m : Json} (h : m.Utf8) (data : Bytes) (chunk : Option Bytes) :
    (restore m data chunk).Utf8 := by
  have hm := h.set (k := lit "data") (by decide) (x := .string (base64Encode data))
    (isUtf8_base64Encode data)
  cases chunk with
  | none => exact hm
  | some chunk => exact hm.set (by decide) (x := .string _) (isUtf8_base64Encode chunk)

theorem utf8_metaOf_iff :
    (metaOf (jsonMsg env packet messageId)).Utf8 ↔ (jsonMsg env packet messageId).Utf8 := by
  refine ⟨fun h => ?_, fun h => (h.erase _).erase _⟩
  rw [← restore_metaOf]
  exact utf8_restore h _ _

theorem utf8_toJson {packet : PacketInfo} (hn : IsUtf8 packet.name)
    (hs : IsUtf8 packet.sessionId) : (toJson packet).Utf8 := by
  have hm : (Json.obj (metadataFields packet)).Utf8 := .obj fun e he => by
    simp only [metadataFields, List.mem_cons, List.not_mem_nil, or_false] at he
    rcases he with rfl | rfl | rfl | rfl | rfl
    case inr.inr.inr.inl => exact ⟨rfl, hs⟩
    all_goals exact ⟨rfl, trivial⟩
  have hd : IsUtf8 (directionName packet.direction) := by cases packet.direction <;> decide
  have ht : IsUtf8 (packetTypeName packet.type) := by cases packet.type <;> decide
  have hf : (Json.obj (packetFields packet)).Utf8 := .obj fun e he => by
    simp only [packetFields, List.mem_cons, List.not_mem_nil, or_false] at he
    rcases he with rfl | rfl | rfl | rfl | rfl | rfl | rfl | rfl
    exacts [⟨rfl, trivial⟩, ⟨rfl, hd⟩, ⟨rfl, ht⟩, ⟨rfl, trivial⟩,
      ⟨rfl, hn⟩, ⟨rfl, trivial⟩, ⟨rfl, isUtf8_base64Encode _⟩, ⟨rfl, hm⟩]
  unfold toJson
  split_ifs
  · exact hf.set (by decide) (x := .string _) (isUtf8_base64Encode _)
  · exact hf

theorem utf8_jsonMsg {env : Env} {packet : PacketInfo} (hn : IsUtf8 packet.name)
    (hs : IsUtf8 packet.sessionId) (hv : IsUtf8 env.config.protocolVersion)
    (hu : IsUtf8 env.sessionUuid) (messageId : UInt64) : (jsonMsg env packet messageId).Utf8 :=
  (((utf8_toJson hn hs).set (by decide) (x := .string _) hv).set (by decide) (x := .string _)
    hu).set (by decide) (x := .integer _) trivial

/-- The texts of the packet and of the relay are UTF-8. -/
structure TextsUtf8 (env : Env) (packet : PacketInfo) : Prop where
  name : IsUtf8 packet.name
  sessionId : IsUtf8 packet.sessionId
  protocolVersion : IsUtf8 env.config.protocolVersion
  sessionUuid : IsUtf8 env.sessionUuid

theorem utf8_jsonMsg_iff :
    (jsonMsg env packet messageId).Utf8 ↔ TextsUtf8 env packet := by
  refine ⟨fun h => ?_, fun h =>
    utf8_jsonMsg h.name h.sessionId h.protocolVersion h.sessionUuid messageId⟩
  have hk : ∀ {k x}, k ∉ framingKeys → KeyMap.lookup k (packetFields packet) = some x → x.Utf8 :=
    fun hk hx => h.lookup ((lookup_jsonMsg env packet messageId hk).trans hx)
  have hname := hk (k := lit "packet_name") (by decide) rfl
  have hmetadata := hk (k := lit "metadata") (by decide) rfl
  have hsession := hmetadata.lookup (k := lit "session_id") (x := .string packet.sessionId)
    ((Json.lookup_obj ..).trans rfl)
  exact ⟨hname, hsession, h.lookup (lookup_version env packet messageId),
    h.lookup (lookup_sessionUuid env packet messageId)⟩

/-- Frames exist whenever the texts of the packet and of the relay are UTF-8. -/
theorem message_ok (h : LawfulDump env.json.dump) (hn : IsUtf8 packet.name)
    (hs : IsUtf8 packet.sessionId) (hv : IsUtf8 env.config.protocolVersion)
    (hu : IsUtf8 env.sessionUuid) :
    ∃ frames, message env packet messageId = .ok frames := by
  have hp := plain_jsonMsg env packet messageId
  have hm := utf8_jsonMsg hn hs hv hu messageId
  cases hr : env.config.pubUseMultipartRaw with
  | true =>
    obtain ⟨text, ht⟩ := h.ok ((hp.erase _).erase _) ((utf8_metaOf_iff env packet messageId).mpr hm)
    exact ⟨_, by simp only [message, hr, metaOf, ht, if_true]; rfl⟩
  | false =>
    obtain ⟨text, ht⟩ := h.ok hp hm
    exact ⟨_, by simp only [message, hr, ht, Bool.false_eq_true, if_false]; rfl⟩

/-! ### The two modes -/

/-- The same relay, streaming in the mode asked for. -/
def Env.withRaw (env : Env) (raw : Bool) : Env :=
  { env with config := { env.config with pubUseMultipartRaw := raw } }

theorem decodeFrames_raw {topic text : Bytes}
    (h : JsonText.read text = some (metaOf (jsonMsg env packet messageId))) :
    decodeFrames ([topic, text, packet.data] ++ (chunkFrame packet).toList) =
      some ⟨topic, env.config.protocolVersion, env.sessionUuid, messageId, packet⟩ := by
  have hd := decodeMeta_metaOf env packet messageId topic
  unfold chunkFrame
  split_ifs with hc
  · simpa only [Option.toList_some, List.cons_append, List.nil_append, decodeFrames, h,
      Option.bind_eq_bind, Option.bind_some] using hd
  · rw [not_not] at hc
    rw [hc] at hd
    simpa only [Option.toList_none, List.append_nil, decodeFrames, h, Option.bind_eq_bind,
      Option.bind_some] using hd

theorem decodeFrames_json {topic text : Bytes}
    (h : JsonText.read text = some (jsonMsg env packet messageId)) :
    decodeFrames [topic, text] =
      some ⟨topic, env.config.protocolVersion, env.sessionUuid, messageId, packet⟩ := by
  have hdata : getText (jsonMsg env packet messageId) (lit "data") =
      some (base64Encode packet.data) := by
    rw [getText, lookup_data]
  have hchunk :
      Base64.decode ((getText (jsonMsg env packet messageId) (lit "chunk_data")).getD []) =
        some packet.chunkData := by
    rw [getText, lookup_chunkData]
    split_ifs with hc
    · exact (congrArg Base64.decode (base64Encode_eq _)).trans (Base64.decode_encode _)
    · rw [not_not.mp hc]; rfl
  simp only [decodeFrames, h, Option.bind_eq_bind, Option.bind_some, hdata, hchunk,
    base64Encode_eq, Base64.decode_encode]
  exact decodeMeta_jsonMsg env packet messageId topic

theorem rebuild_raw {topic text : Bytes}
    (h : JsonText.read text = some (metaOf (jsonMsg env packet messageId))) :
    rebuild ([topic, text, packet.data] ++ (chunkFrame packet).toList) =
      some (jsonMsg env packet messageId) := by
  have hr := restore_metaOf env packet messageId
  cases hc : chunkFrame packet with
  | none =>
    rw [hc] at hr
    simp only [Option.toList_none, List.append_nil, rebuild, h, Option.map_some, hr]
  | some chunk =>
    have hc' : chunk = packet.chunkData := by
      unfold chunkFrame at hc; split_ifs at hc; exact (Option.some.inj hc).symm
    rw [hc] at hr
    simp only [Option.toList_some, List.cons_append, List.nil_append, rebuild, h, Option.map_some,
      hr]

theorem message_raw {d : Except Bytes Bytes}
    (h : env.json.dump (metaOf (jsonMsg env packet messageId)) = d) :
    message (env.withRaw true) packet messageId = d.map fun text =>
      [topicForPacket env.config packet, text, packet.data] ++
        (if packet.chunkData ≠ [] then [packet.chunkData] else []) := by
  subst h
  show (env.json.dump (metaOf (jsonMsg env packet messageId)) >>= _) = _
  cases env.json.dump (metaOf (jsonMsg env packet messageId)) <;> rfl

theorem message_json {d : Except Bytes Bytes}
    (h : env.json.dump (jsonMsg env packet messageId) = d) :
    message (env.withRaw false) packet messageId = d.map fun text =>
      [topicForPacket env.config packet, text] := by
  subst h
  show (env.json.dump (jsonMsg env packet messageId) >>= _) = _
  cases env.json.dump (jsonMsg env packet messageId) <;> rfl

inductive Framed (env : Env) (packet : PacketInfo) (messageId : UInt64) : List Bytes → Prop
  | json {text : Bytes} (hraw : env.config.pubUseMultipartRaw = false)
    (ht : env.json.dump (jsonMsg env packet messageId) = .ok text) :
    Framed env packet messageId [topicForPacket env.config packet, text]
  | raw {text : Bytes} (hraw : env.config.pubUseMultipartRaw = true)
    (ht : env.json.dump (metaOf (jsonMsg env packet messageId)) = .ok text) :
    Framed env packet messageId
      ([topicForPacket env.config packet, text, packet.data] ++ (chunkFrame packet).toList)

variable {env packet messageId} in
theorem framed_of_message {frames : List Bytes} (h : message env packet messageId = .ok frames) :
    Framed env packet messageId frames := by
  unfold message at h
  rcases hraw : env.config.pubUseMultipartRaw with _ | _
  · rw [hraw, if_neg Bool.false_ne_true] at h
    rcases ht : env.json.dump (jsonMsg env packet messageId) with what | text
    · rw [ht] at h
      cases h
    · rw [ht] at h
      cases h
      exact .json hraw ht
  · rw [hraw, if_pos rfl] at h
    rcases ht : env.json.dump (metaOf (jsonMsg env packet messageId)) with what | text
    · rw [ht] at h
      cases h
    · rw [ht, ← toList_chunkFrame] at h
      cases h
      exact .raw hraw ht

/-- The two modes carry the same message. Each of them throws exactly if a text of the packet or of
the relay is not UTF-8. Otherwise the raw frames are the topic, the text without the payload, the
data and, if the packet has one, the chunk; the message of the JSON-only mode is rebuilt from them
and its text is what is dumped, and without the payload it is their text; and one decoder reads
topic, version, session, id and the whole packet from both. -/
theorem message_modes {env : Env} (h : LawfulDump env.json.dump) (packet : PacketInfo)
    (messageId : UInt64) :
    (∀ raw, (∃ what, message (env.withRaw raw) packet messageId = .error what) ↔
        ¬ TextsUtf8 env packet) ∧
      (TextsUtf8 env packet → ∃ head text m j frames,
        frames = [topicForPacket env.config packet, head, packet.data] ++
            (if packet.chunkData ≠ [] then [packet.chunkData] else []) ∧
          message (env.withRaw true) packet messageId = .ok frames ∧
          message (env.withRaw false) packet messageId =
            .ok [topicForPacket env.config packet, text] ∧
          JsonText.read head = some m ∧ JsonText.read text = some j ∧
          rebuild frames = some j ∧ env.json.dump j = .ok text ∧
          (j.erase (lit "data")).erase (lit "chunk_data") = m ∧
          decodeFrames frames = decodeFrames [topicForPacket env.config packet, text] ∧
          decodeFrames frames = some ⟨topicForPacket env.config packet, env.config.protocolVersion,
            env.sessionUuid, messageId, packet⟩) := by
  have hp := plain_jsonMsg env packet messageId
  have hpm : (metaOf (jsonMsg env packet messageId)).Plain := (hp.erase _).erase _
  refine ⟨fun raw => ⟨?_, fun ht => ?_⟩, fun ht => ?_⟩
  · rintro ⟨what, he⟩ ht
    obtain ⟨frames, hok⟩ := message_ok (env.withRaw raw) packet messageId h ht.name ht.sessionId
      ht.protocolVersion ht.sessionUuid
    rw [hok] at he
    cases he
  · have hu := mt (utf8_jsonMsg_iff env packet messageId).mp ht
    rcases raw with _ | _
    · rcases hd : env.json.dump (jsonMsg env packet messageId) with what | text
      · exact ⟨what, message_json env packet messageId hd⟩
      · exact absurd (h.utf8 hp hd) hu
    · rcases hd : env.json.dump (metaOf (jsonMsg env packet messageId)) with what | text
      · exact ⟨what, message_raw env packet messageId hd⟩
      · exact absurd ((utf8_metaOf_iff env packet messageId).mp (h.utf8 hpm hd)) hu
  · have hu := (utf8_jsonMsg_iff env packet messageId).mpr ht
    obtain ⟨text, htext⟩ := h.ok hp hu
    obtain ⟨head, hhead⟩ := h.ok hpm ((utf8_metaOf_iff env packet messageId).mpr hu)
    have hrm := h.read hpm hhead
    have hrt := h.read hp htext
    have hf := (toList_chunkFrame packet).symm
    refine ⟨head, text, _, _, _, rfl, message_raw env packet messageId hhead,
      message_json env packet messageId htext, hrm, hrt, ?_, htext, rfl, ?_, ?_⟩
    · rw [hf]
      exact rebuild_raw env packet messageId hrm
    · rw [hf, decodeFrames_raw env packet messageId hrm, decodeFrames_json env packet messageId hrt]
    · rw [hf]
      exact decodeFrames_raw env packet messageId hrm

/-- A login packet with a chunk, read back from its four frames. -/
theorem message_modes_login : ∃ head text,
    message ((defaultEnv id).withRaw true) loginPacket 7 =
        .ok [lit "kpacket.v1.world.c2s.0x000A", head, loginPacket.data, loginPacket.chunkData] ∧
      message ((defaultEnv id).withRaw false) loginPacket 7 =
        .ok [lit "kpacket.v1.world.c2s.0x000A", text] ∧
      decodeFrames [lit "kpacket.v1.world.c2s.0x000A", head, loginPacket.data,
          loginPacket.chunkData] =
        some ⟨lit "kpacket.v1.world.c2s.0x000A", lit "v1", lit "1700000000000", 7,
          loginPacket⟩ := by
  obtain ⟨head, text, m, j, _, rfl, hraw, hjson, -, -, -, -, -, -, hdecode⟩ :=
    (message_modes (lawfulDump_defaultEnv id) loginPacket 7).2
      ⟨by decide, by decide, by decide, by decide⟩
  have htopic : topicForPacket (defaultEnv id).config loginPacket =
      lit "kpacket.v1.world.c2s.0x000A" := by decide
  rw [htopic] at hraw hjson hdecode
  exact ⟨head, text, hraw, hjson, hdecode⟩

end Kpacket
