import Kpacket.WireModes

/-!
# Topics

A topic is the version followed by words that end in dots and an id of fixed length, so that one is
a prefix of another only if they are equal (`topics_select`). It is read back from its end, as the
version may contain dots itself (`parseTopic_topicForPacket`).
-/

theorem prefix_word_iff {α : Type*} {c : α} {a b x y : List α} (ha : c ∉ a) (hb : c ∉ b) :
    a ++ c :: x <+: b ++ c :: y ↔ a = b ∧ x <+: y := by
  induction a generalizing b with
  | nil =>
    cases b with
    | nil => simp
    | cons d b =>
      have hd : c ≠ d := fun h => hb (h ▸ List.mem_cons_self ..)
      simp [hd]
  | cons d a ih =>
    cases b with
    | nil =>
      have hd : d ≠ c := fun h => ha (h ▸ List.mem_cons_self ..)
      simp [hd]
    | cons e b =>
      rw [List.cons_append, List.cons_append, List.cons_prefix_cons,
        ih (List.not_mem_of_not_mem_cons ha) (List.not_mem_of_not_mem_cons hb), List.cons.injEq,
        and_assoc]

namespace Kpacket

inductive Family
  | world
  | lobby
  | patch
  | unknown
deriving DecidableEq

def PacketType.family : PacketType → Family
  | .worldClientToServer | .worldServerToClient => .world
  | .lobbyClientToServer | .lobbyServerToClient => .lobby
  | .patchClientToServer | .patchServerToClient => .patch
  | .unknown => .unknown

/-- What a topic says about its packets. -/
structure Topic where
  family : Family
  direction : Direction
  id : UInt16
deriving DecidableEq

namespace Topic

def familyWord : Family → Bytes
  | .world => lit "world"
  | .lobby => lit "lobby"
  | .patch => lit "patch"
  | .unknown => lit "unknown"

def directionWord : Direction → Bytes
  | .incoming => lit "s2c"
  | .outgoing => lit "c2s"

def families : List Family := [.world, .lobby, .patch, .unknown]

/-- The `packet_type` of the packets with this topic. -/
def packetTypeName (t : Topic) : Bytes :=
  if t.family = .unknown then lit "unknown"
  else familyWord t.family ++ lit "_" ++ directionWord t.direction

/-- The part of a topic behind the version. -/
def words (t : Topic) : Bytes :=
  familyWord t.family ++ 46 :: (directionWord t.direction ++ 46 :: 48 :: 120 :: hex4 t.id.toNat)

end Topic

def PacketInfo.topic (packet : PacketInfo) : Topic :=
  ⟨packet.type.family, packet.direction, packet.id⟩

/-- Read from the end: four digits, `0x`, the direction and the word before it. -/
def parseTopic (topic : Bytes) : Option Topic :=
  match topic.reverse with
  | d₀ :: d₁ :: d₂ :: d₃ :: 120 :: 48 :: 46 :: c₀ :: c₁ :: c₂ :: 46 :: rest => do
    let n₃ ← JsonText.hexDigit d₃
    let n₂ ← JsonText.hexDigit d₂
    let n₁ ← JsonText.hexDigit d₁
    let n₀ ← JsonText.hexDigit d₀
    let direction ← [.incoming, .outgoing].find? fun d => Topic.directionWord d = [c₂, c₁, c₀]
    let word := (rest.takeWhile (· ≠ 46)).reverse
    let family ← Topic.families.find? fun f => Topic.familyWord f = word
    return ⟨family, direction, .ofNat (n₃ * 4096 + n₂ * 256 + n₁ * 16 + n₀)⟩
  | _ => none

/-! ### Ids -/

def hexUpper (d : Nat) : UInt8 := if d < 10 then .ofNat (48 + d) else .ofNat (55 + d)

theorem hexDigit_hexUpper : ∀ d < 16, JsonText.hexDigit (hexUpper d) = some d := by decide

theorem hex4_eq (n : Nat) : hex4 n =
    [hexUpper (n / 4096 % 16), hexUpper (n / 256 % 16), hexUpper (n / 16 % 16),
      hexUpper (n % 16)] :=
  rfl

theorem hex4_injective {m n : Nat} (hm : m < 65536) (hn : n < 65536) (h : hex4 m = hex4 n) :
    m = n := by
  have key : ∀ {a b : Nat}, hexUpper (a % 16) = hexUpper (b % 16) → a % 16 = b % 16 := by
    intro a b h
    have ha := hexDigit_hexUpper (a % 16) (Nat.mod_lt _ (by omega))
    have hb := hexDigit_hexUpper (b % 16) (Nat.mod_lt _ (by omega))
    rw [h, hb] at ha
    exact (Option.some.inj ha).symm
  simp only [hex4_eq, List.cons.injEq, and_true] at h
  obtain ⟨h3, h2, h1, h0⟩ := h
  have := key h3
  have := key h2
  have := key h1
  have := key h0
  omega

/-! ### Prefixes -/

theorem Topic.words_prefix_iff {t t' : Topic} : t.words <+: t'.words ↔ t = t' := by
  constructor
  · intro h
    have hf : ∀ f, (46 : UInt8) ∉ familyWord f := by intro f; cases f <;> decide
    have hd : ∀ d, (46 : UInt8) ∉ directionWord d := by intro d; cases d <;> decide
    obtain ⟨h1, h⟩ := (prefix_word_iff (hf _) (hf _)).mp h
    obtain ⟨h2, h⟩ := (prefix_word_iff (hd _) (hd _)).mp h
    -- what is left are two ids of the same length
    have h3 := List.IsPrefix.eq_of_length h rfl
    have hid := hex4_injective (UInt16.toNat_lt _) (UInt16.toNat_lt _)
      (List.cons.inj (List.cons.inj h3).2).2
    obtain ⟨f, d, i⟩ := t
    obtain ⟨f', d', i'⟩ := t'
    have hf' : f = f' := by cases f <;> cases f' <;> first | rfl | cases h1
    have hd' : d = d' := by cases d <;> cases d' <;> first | rfl | cases h2
    have hi' : i = i' := UInt16.toNat_inj.mp hid
    rw [hf', hd', hi']
  · rintro rfl; exact List.prefix_rfl

theorem topicForPacket_eq (config : Config) (packet : PacketInfo) :
    topicForPacket config packet =
      lit "kpacket." ++ config.protocolVersion ++ lit "." ++ packet.topic.words := by
  obtain ⟨-, direction, type, id, -⟩ := packet
  simp only [topicForPacket, PacketInfo.topic, Topic.words, List.append_assoc]
  cases type <;> cases direction <;> rfl

/-! ### Reading a topic -/

theorem parseTopic_words (v : Bytes) (t : Topic) :
    parseTopic (v ++ lit "." ++ t.words) = some t := by
  obtain ⟨f, d, i⟩ := t
  obtain ⟨c₂, c₁, c₀, hc⟩ : ∃ c₂ c₁ c₀, Topic.directionWord d = [c₂, c₁, c₀] := by
    cases d <;> exact ⟨_, _, _, rfl⟩
  have hdirection : [Direction.incoming, .outgoing].find?
      (fun e => Topic.directionWord e = [c₂, c₁, c₀]) = some d := by
    rw [← hc]; cases d <;> rfl
  have hword : (((Topic.familyWord f).reverse ++ 46 :: v.reverse).takeWhile (· ≠ 46)).reverse =
      Topic.familyWord f := by
    cases f <;> rfl
  have hfamily :
      Topic.families.find? (fun g => Topic.familyWord g = Topic.familyWord f) = some f := by
    cases f <;> rfl
  have hdigit : ∀ n, JsonText.hexDigit (hexUpper (n % 16)) = some (n % 16) :=
    fun n => hexDigit_hexUpper _ (Nat.mod_lt _ (by omega))
  have hid : i.toNat / 4096 % 16 * 4096 + i.toNat / 256 % 16 * 256 + i.toNat / 16 % 16 * 16 +
      i.toNat % 16 = i.toNat := by
    have := i.toNat_lt
    omega
  have hrev : (v ++ lit "." ++ Topic.words ⟨f, d, i⟩).reverse =
      hexUpper (i.toNat % 16) :: hexUpper (i.toNat / 16 % 16) :: hexUpper (i.toNat / 256 % 16) ::
        hexUpper (i.toNat / 4096 % 16) :: 120 :: 48 :: 46 :: c₀ :: c₁ :: c₂ :: 46 ::
          ((Topic.familyWord f).reverse ++ 46 :: v.reverse) := by
    have hdot : lit "." = [46] := rfl
    simp [Topic.words, hex4_eq, hc, hdot]
  simp only [parseTopic, hrev, hdigit, Option.bind_eq_bind, Option.bind_some, hdirection, hword,
    hfamily, hid, UInt16.ofNat_toNat, Option.pure_def]

theorem parseTopic_topicForPacket (config : Config) (packet : PacketInfo) :
    parseTopic (topicForPacket config packet) = some packet.topic := by
  rw [topicForPacket_eq, parseTopic_words]

/-! ### Packets of the callbacks -/

namespace PacketParser

open PacketClassifier

/-- What `CreatePacketInfo` returns for some arguments. -/
def Created (packet : PacketInfo) : Prop :=
  ∃ junk junkHeader now id size data direction injected blocked chunkSize chunkData,
    createPacketInfo junk junkHeader now id size data direction injected blocked chunkSize
      chunkData = some packet

theorem Created.type_eq {packet : PacketInfo} (h : Created packet) :
    packet.type = classifyPacket packet.id packet.direction := by
  obtain ⟨junk, junkHeader, now, id, size, data, direction, injected, blocked, chunkSize, chunkData,
    h⟩ := h
  obtain ⟨-, -, syncCount, rfl⟩ := createPacketInfo_eq_some h
  rfl

end PacketParser

open PacketParser PacketClassifier

theorem packetTypeName_topic {packet : PacketInfo} (h : Created packet) :
    packetTypeName packet.type = packet.topic.packetTypeName := by
  rw [PacketInfo.topic, h.type_eq]
  unfold classifyPacket
  cases packet.direction
  · simp only [if_true]
    split_ifs <;> rfl
  · simp only [reduceCtorEq, if_false]
    split_ifs <;> rfl

/-- A topic is a prefix of another exactly if family, direction and id agree; it is read back, and
agrees with the JSON of its packet. -/
theorem topics_select (config : Config) {p q : PacketInfo} (hp : Created p) (hq : Created q) :
    (topicForPacket config p <+: topicForPacket config q ↔
        p.type.family = q.type.family ∧ p.direction = q.direction ∧ p.id = q.id) ∧
      ∀ packet ∈ [p, q], ∃ t, parseTopic (topicForPacket config packet) = some t ∧
        t.family = packet.type.family ∧ t.direction = packet.direction ∧ t.id = packet.id ∧
        (toJson packet).lookup (lit "packet_type") = some (.string t.packetTypeName) ∧
        (toJson packet).lookup (lit "direction") = some (.string (directionName t.direction)) ∧
        (toJson packet).lookup (lit "packet_id") = some (.integer t.id.toNat) := by
  refine ⟨?_, fun packet hm => ?_⟩
  · rw [topicForPacket_eq, topicForPacket_eq, List.prefix_append_right_inj, Topic.words_prefix_iff,
      PacketInfo.topic, PacketInfo.topic, Topic.mk.injEq]
  · have hc : Created packet := by
      rcases List.mem_cons.mp hm with rfl | hm
      · exact hp
      · rw [List.mem_singleton.mp hm]; exact hq
    refine ⟨packet.topic, parseTopic_topicForPacket config packet, rfl, rfl, rfl, ?_, ?_, ?_⟩
    · rw [lookup_toJson, if_neg (fun h => absurd h.1 (by decide)), ← packetTypeName_topic hc]
      rfl
    · rw [lookup_toJson, if_neg (fun h => absurd h.1 (by decide))]
      rfl
    · rw [lookup_toJson, if_neg (fun h => absurd h.1 (by decide))]
      rfl

theorem created_loginPacket : Created loginPacket :=
  ⟨loginPacket, fun _ => 0, 1000, 0x000A, 4, [0x0A, 0x02, 0x39, 0x30], .outgoing, false, false, 2,
    some [1, 2], rfl⟩

/-- Who subscribes to the topic of a login packet gets no packet of the id `0x00AA`, even if the
version contains dots. -/
theorem topics_select_login : ∃ packet, Created packet ∧ packet.id = 0x00AA ∧
    ¬ topicForPacket { protocolVersion := lit "v1.world.c2s" } loginPacket <+:
      topicForPacket { protocolVersion := lit "v1.world.c2s" } packet := by
  have hc : Created { loginPacket with
      id := 0x00AA, name := lit "UNKNOWN_WORLD_CLIENT", data := [0xAA, 0x02, 0x39, 0x30] } :=
    ⟨loginPacket, fun _ => 0, 1000, 0x00AA, 4, [0xAA, 0x02, 0x39, 0x30], .outgoing, false, false, 2,
      some [1, 2], rfl⟩
  refine ⟨_, hc, rfl, fun h => ?_⟩
  have hid := ((topics_select _ created_loginPacket hc).1.mp h).2.2
  exact absurd hid (by decide)

end Kpacket
