import Kpacket.Storing
import Kpacket.WireModes

/-!
# `from_json`

What `from_json` reads back of a packet. It stores ten of the thirteen fields and never touches
the type and the two payloads, whatever the document (`fromJson_frame`); for the document of a
packet it stores exactly what was written (`fromJson_toJson`). So it undoes `to_json` exactly on
targets that already agree with the packet in the other three (`fromJson_toJson_iff`).
-/

namespace Kpacket

/-! ### Lookups and conversions -/

/-- The library with the two further conversions of doubles. -/
structure JsonConversions extends JsonLibrary where
  doubleToUInt32 : Rat → UInt32
  doubleToUInt64 : Rat → UInt64

def referenceConversions (parseError : Bytes → Bytes) : JsonConversions where
  toJsonLibrary := referenceJson parseError
  doubleToUInt32 q := .ofInt (q.num.tdiv q.den)
  doubleToUInt64 q := .ofInt (q.num.tdiv q.den)

/-- `j.at(k)` -/
def atKey (j : Json) (k : Bytes) : Outcome Json :=
  match j with
  | .object m =>
    match KeyMap.lookup k m with
    | some x => .done x
    | none =>
      .raised (lit "[json.exception.out_of_range.403] key '" ++ k ++ lit "' not found")
  | _ => .raised (typeError 304 (lit "cannot use at() with ") j)

def JsonConversions.getUInt32 (lib : JsonConversions) : Json → Outcome UInt32
  | .integer n => .done (UInt32.ofInt n)
  | .float q => .done (lib.doubleToUInt32 q)
  | .boolean b => .done (if b then 1 else 0)
  | j => .raised (typeError 302 (lit "type must be number, but is ") j)

def getBool : Json → Outcome Bool
  | .boolean b => .done b
  | j => .raised (typeError 302 (lit "type must be boolean, but is ") j)

/-- `j == "…"` -/
def equalsText (j : Json) (s : Bytes) : Bool :=
  match j with
  | .string t => t = s
  | _ => false

/-! ### `from_json` -/

open Storing

/-- `from_json(j, packet)`; the lines that would decode `data` are commented out in the source. -/
def fromJson (lib : JsonConversions) (j : Json) : Storing PacketInfo Unit := do
  let timestamp ← getUInt64 lib.doubleToUInt64 (← atKey j (lit "timestamp"))
  store fun packet => { packet with timestamp := timestamp }
  let direction ← atKey j (lit "direction")
  store fun packet => { packet with
    direction := if equalsText direction (lit "incoming") then .incoming else .outgoing }
  let id ← lib.getUInt16 (← atKey j (lit "packet_id"))
  store fun packet => { packet with id := id }
  let name ← getString (← atKey j (lit "packet_name"))
  store fun packet => { packet with name := name }
  let size ← lib.getUInt32 (← atKey j (lit "size"))
  store fun packet => { packet with size := size }
  let metadata ← atKey j (lit "metadata")
  let injected ← getBool (← atKey metadata (lit "injected"))
  store fun packet => { packet with injected := injected }
  let blocked ← getBool (← atKey metadata (lit "blocked"))
  store fun packet => { packet with blocked := blocked }
  let chunkSize ← lib.getUInt32 (← atKey metadata (lit "chunk_size"))
  store fun packet => { packet with chunkSize := chunkSize }
  let sessionId ← getString (← atKey metadata (lit "session_id"))
  store fun packet => { packet with sessionId := sessionId }
  let syncCount ← lib.getUInt16 (← atKey metadata (lit "sync_count"))
  store fun packet => { packet with syncCount := syncCount }

theorem atKey_of_lookup {j x : Json} {k : Bytes} (h : j.lookup k = some x) :
    atKey j k = .done x := by
  cases j with
  | object m => rw [atKey, show KeyMap.lookup k m = some x from h]
  | _ => cases h

/-- What `from_json` leaves alone, also if it throws on the way. -/
def Unread (packet : PacketInfo) : PacketType × Bytes × Bytes :=
  (packet.type, packet.data, packet.chunkData)

theorem fromJson_frame (lib : JsonConversions) (j : Json) : Keeps Unread (fromJson lib j) := by
  unfold fromJson
  repeat
    first
    | exact Keeps.store fun _ => rfl
    | refine Keeps.bind (Keeps.store fun _ => rfl) fun _ => ?_
    | refine Keeps.bind (Keeps.lift _) fun _ => ?_

theorem equalsText_directionName (d : Direction) :
    (if equalsText (.string (directionName d)) (lit "incoming") then Direction.incoming
      else .outgoing) = d := by
  cases d <;> rfl

theorem JsonConversions.getUInt32_toNat (lib : JsonConversions) (n : UInt32) :
    lib.getUInt32 (.integer n.toNat) = .done n := by
  have := n.toNat_lt
  have hn : ((n.toNat : Int) % 2 ^ 32).toNat = n.toNat := by omega
  rw [getUInt32, UInt32.ofInt, hn, UInt32.ofNat_toNat]

/-- Read from its own document a packet is complete but for what `from_json` leaves alone. -/
theorem fromJson_toJson (lib : JsonConversions) (p q : PacketInfo) :
    fromJson lib (toJson p) q =
      (.done (), { p with type := q.type, data := q.data, chunkData := q.chunkData }) := by
  have hk : ∀ {k x}, k ≠ lit "chunk_data" → KeyMap.lookup k (packetFields p) = some x →
      atKey (toJson p) k = .done x := by
    intro k x hne hx
    refine atKey_of_lookup ?_
    rw [lookup_toJson, if_neg (fun h => hne h.1), hx]
  have hm : ∀ {k x}, KeyMap.lookup k (metadataFields p) = some x →
      atKey (Json.obj (metadataFields p)) k = .done x :=
    fun hx => atKey_of_lookup ((Json.lookup_obj ..).trans hx)
  have htime := hk (k := lit "timestamp") (by decide) rfl
  have hdir := hk (k := lit "direction") (by decide) rfl
  have hid := hk (k := lit "packet_id") (by decide) rfl
  have hname := hk (k := lit "packet_name") (by decide) rfl
  have hsize := hk (k := lit "size") (by decide) rfl
  have hmd := hk (k := lit "metadata") (by decide) rfl
  have hinj := hm (k := lit "injected") rfl
  have hblk := hm (k := lit "blocked") rfl
  have hcs := hm (k := lit "chunk_size") rfl
  have hsid := hm (k := lit "session_id") rfl
  have hsc := hm (k := lit "sync_count") rfl
  simp only [fromJson, htime, hdir, hid, hname, hsize, hmd, hinj, hblk, hcs, hsid, hsc,
    lift_bind_done, store_bind_apply, store_apply, getUInt64_toNat,
    JsonConversions.getUInt32_toNat, JsonLibrary.getUInt16_toNat, getString, getBool,
    equalsText_directionName]

theorem toJson_injective : Function.Injective toJson := by
  intro p q h
  have hj : jsonMsg (defaultEnv id) p 0 = jsonMsg (defaultEnv id) q 0 := by
    unfold jsonMsg; rw [h]
  have hdata : p.data = q.data := by
    have hl := lookup_data (defaultEnv id) p 0
    rw [hj, lookup_data, base64Encode_eq, base64Encode_eq] at hl
    exact (Base64.encode_injective (Json.string.inj (Option.some.inj hl))).symm
  have hchunk : p.chunkData = q.chunkData := by
    have hl := lookup_chunkData (defaultEnv id) p 0
    rw [hj, lookup_chunkData, base64Encode_eq, base64Encode_eq] at hl
    split_ifs at hl with hp hq hq
    · exact (Base64.encode_injective (Json.string.inj (Option.some.inj hl))).symm
    · rw [not_not.mp hp, not_not.mp hq]
  have hr := decodeMeta_jsonMsg (defaultEnv id) p 0 []
  rw [hj, hdata, hchunk, decodeMeta_jsonMsg] at hr
  exact (Received.mk.inj (Option.some.inj hr)).2.2.2.2.symm

/-- `from_json` undoes `to_json` exactly on targets that agree with the packet in the type, the
data and the chunk, and so does the document written after it. -/
theorem fromJson_toJson_iff (lib : JsonConversions) (p q : PacketInfo) :
    (fromJson lib (toJson p) q = (.done (), p) ↔
        q.type = p.type ∧ q.data = p.data ∧ q.chunkData = p.chunkData) ∧
      (toJson (fromJson lib (toJson p) q).2 = toJson p ↔
        q.type = p.type ∧ q.data = p.data ∧ q.chunkData = p.chunkData) := by
  have key : { p with type := q.type, data := q.data, chunkData := q.chunkData } = p ↔
      q.type = p.type ∧ q.data = p.data ∧ q.chunkData = p.chunkData := by
    constructor
    · intro h
      exact ⟨congrArg (·.type) h, congrArg (·.data) h, congrArg (·.chunkData) h⟩
    · rintro ⟨h1, h2, h3⟩
      rw [h1, h2, h3]
  rw [fromJson_toJson]
  refine ⟨?_, ?_⟩
  · rw [← key, Prod.mk.injEq, eq_self_iff_true, true_and]
  · rw [← key, toJson_injective.eq_iff]

/-- A login packet without its type, its four bytes and its chunk. -/
def emptiedLogin : PacketInfo := { loginPacket with type := .unknown, data := [], chunkData := [] }

/-- Read into such a packet its document does not bring them back. -/
theorem fromJson_login :
    fromJson (referenceConversions id) (toJson loginPacket) emptiedLogin =
        (.done (), emptiedLogin) ∧
      emptiedLogin ≠ loginPacket ∧ toJson emptiedLogin ≠ toJson loginPacket := by
  have hne : emptiedLogin ≠ loginPacket := fun h => absurd (congrArg (·.type) h) (by decide)
  exact ⟨fromJson_toJson _ _ _, hne, fun h => hne (toJson_injective h)⟩

end Kpacket
