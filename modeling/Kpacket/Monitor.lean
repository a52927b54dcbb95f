import Kpacket.Histories
import Kpacket.PubAttempts
import Kpacket.Storing

/-!
# The packet monitor

`SubscriberThread` of the example monitor, which keeps the last message id it has seen and marks a
row where the next one is not its successor. `delivered` is any in-order delivery of a subset of the
messages of a run; `gap_iff_missing` says that a mark stands exactly where packets taken by the
publisher in between have not arrived, and how many they are.
-/

namespace Kpacket

open Lts

/-! ### `SubscriberThread` -/

/-- What the monitor uses of its JSON library; `parse` is `none` for a discarded text. -/
structure MonitorLibrary where
  parse : Bytes → Option Json
  doubleToInt32 : Rat → Int32
  doubleToUInt64 : Rat → UInt64

/-- The conversion to `int`. -/
def MonitorLibrary.getInt32 (lib : MonitorLibrary) : Json → Outcome Int32
  | .integer n => .done (Int32.ofInt n)
  | .float q => .done (lib.doubleToInt32 q)
  | .boolean b => .done (if b then 1 else 0)
  | j => .raised (typeError 302 (lit "type must be number, but is ") j)

structure PacketRow where
  topic : Bytes
  id : UInt16
  name : Bytes
  dir : Bytes
  size : UInt32
  localSeq : UInt64
  remoteMsgId : UInt64
  gap : Bool
deriving DecidableEq

/-- `isConnected` is stored by two threads, `lastHealthOkMs` by the other one. -/
structure MonitorModel where
  rows : List PacketRow := []
  isConnected : Bool := false
  lastHealthOkMs : Int := 0
  totalPackets : UInt64 := 0
  localSeqCounter : UInt64 := 0
  lastRemoteMsgId : UInt64 := 0

namespace MonitorModel

def maxRows : Nat := 2000

/-- The message with this id does not follow the last one. -/
def isGap (model : MonitorModel) (remoteMsgId : UInt64) : Bool :=
  model.lastRemoteMsgId ≠ 0 && remoteMsgId ≠ 0 && remoteMsgId ≠ model.lastRemoteMsgId + 1

/-- The new row goes to the front, and the oldest one out if there are too many. -/
def addRow (model : MonitorModel) (row : PacketRow) : MonitorModel :=
  let rows := row :: model.rows
  { model with
    rows := if rows.length > maxRows then rows.dropLast else rows
    lastRemoteMsgId := if row.remoteMsgId ≠ 0 then row.remoteMsgId else model.lastRemoteMsgId
    totalPackets := model.totalPackets + 1 }

end MonitorModel

open Storing

/-- One turn of the loop, with the frames received. -/
def subscriberStep (lib : MonitorLibrary) : List Bytes → Storing MonitorModel Unit
  | topic :: metaJson :: _ =>
    match lib.parse metaJson with
    | none => pure ()
    | some j => do
      store fun model => { model with isConnected := true }
      let id ← lib.getInt32 (← valueOr j (lit "packet_id") (.integer 0))
      let name ← getString (← valueOr j (lit "packet_name") (.string []))
      let dir ← getString (← valueOr j (lit "direction") (.string []))
      let size ← lib.getInt32 (← valueOr j (lit "size") (.integer 0))
      store fun model => { model with localSeqCounter := model.localSeqCounter + 1 }
      let remoteMsgId ← getUInt64 lib.doubleToUInt64 (← valueOr j (lit "message_id") (.integer 0))
      store fun model => model.addRow {
        topic := topic
        id := id.toUInt32.toUInt16
        name := name
        dir := dir
        size := size.toUInt32
        localSeq := model.localSeqCounter
        remoteMsgId := remoteMsgId
        gap := model.isGap remoteMsgId }
  | _ => pure ()

/-- An exception ends the thread. -/
def subscriberThread (lib : MonitorLibrary) : List (List Bytes) → MonitorModel → MonitorModel
  | [], model => model
  | frames :: rest, model =>
    match subscriberStep lib frames model with
    | (.done (), model) => subscriberThread lib rest model
    | (_, model) => { model with isConnected := false }

/-! ### The messages of a relay -/

def MonitorModel.rowOf (env : Env) (model : MonitorModel) (m : SentMessage) : PacketRow where
  topic := topicForPacket env.config m.packet
  id := m.packet.id
  name := m.packet.name
  dir := directionName m.packet.direction
  size := m.packet.size
  localSeq := model.localSeqCounter + 1
  remoteMsgId := m.messageId
  gap := model.isGap m.messageId

def MonitorModel.observe (env : Env) (model : MonitorModel) (m : SentMessage) : MonitorModel :=
  { model with isConnected := true, localSeqCounter := model.localSeqCounter + 1 }.addRow
    (model.rowOf env m)

theorem ofInt_toUInt32 (n : UInt32) : (Int32.ofInt n.toNat).toUInt32 = n := by
  have h : (Int32.ofInt n.toNat).toUInt32 = UInt32.ofBitVec (BitVec.ofInt 32 n.toNat) := rfl
  rw [h, BitVec.ofInt_natCast]
  simp

theorem ofInt_toUInt16 (n : UInt16) : (Int32.ofInt n.toNat).toUInt32.toUInt16 = n := by
  have h := ofInt_toUInt32 n.toUInt32
  rw [UInt16.toNat_toUInt32] at h
  rw [h, UInt16.toUInt16_toUInt32]

section

variable {env : Env} {lib : MonitorLibrary}

theorem message_head {packet : PacketInfo} {messageId : UInt64} {frames : List Bytes}
    (h : message env packet messageId = .ok frames) :
    ∃ text rest j, frames = topicForPacket env.config packet :: text :: rest ∧ j.Plain ∧
      env.json.dump j = .ok text ∧ j.isObject = true ∧
      (∀ k, k ∉ framingKeys → j.lookup k = KeyMap.lookup k (packetFields packet)) ∧
      j.lookup (lit "message_id") = some (.integer messageId.toNat) := by
  have hp := plain_jsonMsg env packet messageId
  have ho := isObject_jsonMsg env packet messageId
  rcases framed_of_message h with ⟨-, ht⟩ | ⟨-, ht⟩
  · exact ⟨_, [], _, rfl, hp, ht, ho, fun k hk => lookup_jsonMsg env packet messageId hk,
      lookup_messageId env packet messageId⟩
  · have hm : (metaOf (jsonMsg env packet messageId)).Plain := (hp.erase _).erase _
    refine ⟨_, _, _, rfl, hm, ht, ?_, fun k hk => lookup_metaOf env packet messageId hk, ?_⟩
    · rw [metaOf, Json.isObject_erase, Json.isObject_erase, ho]
    · rw [lookup_metaOf_of_ne (by decide) (by decide), lookup_messageId]

/-- What is relied on of the parser: it reads back what was dumped. -/
def Reads (env : Env) (lib : MonitorLibrary) : Prop :=
  ∀ {j : Json} {text : Bytes}, j.Plain → env.json.dump j = .ok text → lib.parse text = some j

theorem subscriberStep_message (hp : Reads env lib) {m : SentMessage}
    (h : message env m.packet m.messageId = .ok m.frames) (model : MonitorModel) :
    subscriberStep lib m.frames model = (.done (), model.observe env m) := by
  obtain ⟨text, rest, j, hf, hplain, hdump, hobj, hl, hid⟩ := message_head h
  have hk : ∀ {k x} (d : Json), k ∉ framingKeys → KeyMap.lookup k (packetFields m.packet) = some x →
      valueOr j k d = .done x :=
    fun d hk hx => valueOr_of_lookup ((hl _ hk).trans hx) d
  have hpid := hk (k := lit "packet_id") (.integer 0) (by decide) rfl
  have hname := hk (k := lit "packet_name") (.string []) (by decide) rfl
  have hdir := hk (k := lit "direction") (.string []) (by decide) rfl
  have hsize := hk (k := lit "size") (.integer 0) (by decide) rfl
  have hmid := valueOr_of_lookup hid (.integer 0)
  simp only [hf, subscriberStep, hp hplain hdump, hpid, hname, hdir, hsize, hmid, lift_bind_done,
    store_bind_apply, store_apply, MonitorLibrary.getInt32, getString, getUInt64_toNat,
    ofInt_toUInt16, ofInt_toUInt32]
  rfl

theorem subscriberThread_messages (hp : Reads env lib) {ms : List SentMessage}
    (h : ∀ m ∈ ms, message env m.packet m.messageId = .ok m.frames) (model : MonitorModel) :
    subscriberThread lib (ms.map SentMessage.frames) model =
      ms.foldl (fun model m => model.observe env m) model := by
  induction ms generalizing model with
  | nil => rfl
  | cons m ms ih =>
    rw [List.map_cons, subscriberThread,
      subscriberStep_message hp (h m (List.mem_cons_self ..)), List.foldl_cons]
    exact ih (fun m hm => h m (List.mem_cons_of_mem _ hm)) _

namespace MonitorModel

theorem rows_addRow (model : MonitorModel) (row : PacketRow) :
    ∃ rest, (model.addRow row).rows = row :: rest := by
  unfold addRow
  dsimp only
  split_ifs with h
  · cases hr : model.rows with
    | nil => simp [hr, maxRows] at h
    | cons r rs => exact ⟨_, rfl⟩
  · exact ⟨_, rfl⟩

theorem lastRemoteMsgId_observe (model : MonitorModel) {m : SentMessage} (h : m.messageId ≠ 0) :
    (model.observe env m).lastRemoteMsgId = m.messageId := if_pos h

theorem isGap_observe (model : MonitorModel) {a b : SentMessage} (ha : a.messageId ≠ 0)
    (hb : b.messageId ≠ 0) :
    (model.observe env a).isGap b.messageId = true ↔ b.messageId ≠ a.messageId + 1 := by
  rw [isGap, lastRemoteMsgId_observe model ha]
  simp [ha, hb]

end MonitorModel

end

/-! ### Deliveries -/

namespace PubStream

/-- The messages that arrive, each with the place of its packet among those taken; `arrives` picks
them by that place. -/
def delivered (arrives : Nat → Bool) (tr : List Label) : List (Nat × SentMessage) :=
  (tried tr).zipIdx.filterMap fun (t, k) => if arrives k then t.2.map fun m => (k, m) else none

/-- The places of the packets taken after the one at `i` and before the one at `j` that have not
arrived. -/
def missing (arrives : Nat → Bool) (tr : List Label) (i j : Nat) : List Nat :=
  (List.range (taken tr).length).filter fun k =>
    i < k && k < j && !((delivered arrives tr).map Prod.fst).contains k

variable {env : Env} {tr : List Label} {s : System} {arrives : Nat → Bool}

theorem mem_delivered {d : Nat × SentMessage} (h : d ∈ delivered arrives tr) :
    ∃ packet, (tried tr)[d.1]? = some (packet, some d.2) := by
  obtain ⟨⟨⟨packet, m⟩, k⟩, hm, hd⟩ := List.mem_filterMap.mp h
  have hk := List.mem_zipIdx_iff_getElem?.mp hm
  dsimp only at hd
  split_ifs at hd
  obtain ⟨m', rfl, rfl⟩ := Option.map_eq_some_iff.mp hd
  exact ⟨packet, hk⟩

theorem delivered_sorted (arrives : Nat → Bool) (tr : List Label) :
    (delivered arrives tr).Pairwise (·.1 < ·.1) := by
  rw [delivered, List.pairwise_filterMap]
  have hs : ((tried tr).zipIdx.map Prod.snd).Pairwise (· < ·) := by
    rw [List.zipIdx_map_snd]
    exact List.pairwise_lt_range' 1
  refine (List.pairwise_map.mp hs).imp ?_
  rintro ⟨t, k⟩ ⟨t', k'⟩ hlt b hb b' hb'
  dsimp only at hlt hb hb'
  split_ifs at hb hb'
  obtain ⟨_, -, rfl⟩ := Option.map_eq_some_iff.mp hb
  obtain ⟨_, -, rfl⟩ := Option.map_eq_some_iff.mp hb'
  exact hlt

/-- A message that arrives stands for the packet at its place, and its id is that place. -/
theorem delivered_place (h : Run (System.step env) {} tr s) {d : Nat × SentMessage}
    (hd : d ∈ delivered arrives tr) :
    (taken tr)[d.1]? = some d.2.packet ∧ d.2.messageId = .ofNat (d.1 + 1) ∧
      message env d.2.packet d.2.messageId = .ok d.2.frames := by
  obtain ⟨packet, hk⟩ := mem_delivered hd
  have hmem := List.mem_of_getElem? hk
  obtain rfl := packet_of_tried hmem
  refine ⟨?_, messageId_of_tried h hk, message_of_sent h _ ?_⟩
  · have hlt : d.1 < ((tried tr).map Prod.fst).length := by
      rw [List.length_map]
      exact (List.getElem?_eq_some_iff.mp hk).1
    rw [taken_eq_tried h, List.getElem?_append_left hlt, List.getElem?_map, hk]
    rfl
  · rw [sent_eq_tried]
    exact List.mem_filterMap.mpr ⟨_, hmem, rfl⟩

/-- While the ids do not start over they tell which messages arrive. -/
theorem delivered_eq (h : Run (System.step env) {} tr s) (hlt : (taken tr).length < 2 ^ 64) :
    delivered arrives tr = (sent tr).filterMap fun m =>
      if arrives (m.messageId.toNat - 1) then some (m.messageId.toNat - 1, m) else none := by
  have hsent : sent tr = ((tried tr).zipIdx.map Prod.fst).filterMap Prod.snd := by
    rw [List.zipIdx_map_fst, sent_eq_tried]
  rw [hsent, List.filterMap_map, List.filterMap_filterMap, delivered]
  refine List.filterMap_congr fun t ht => ?_
  obtain ⟨⟨packet, m⟩, k⟩ := t
  have hk := List.mem_zipIdx_iff_getElem?.mp ht
  cases m with
  | none => simp
  | some m =>
    have hle := congrArg List.length (taken_eq_tried h)
    rw [List.length_append, List.length_map] at hle
    have hkt := (List.getElem?_eq_some_iff.mp hk).1
    have hid : m.messageId.toNat = k + 1 := by
      rw [messageId_of_tried h hk]
      exact UInt64.toNat_ofNat_of_lt' (by show _ < 2 ^ 64; omega)
    simp [hid]

/-- Between two messages that arrive one after the other everything is missing. -/
theorem missing_eq {pre post : List (Nat × SentMessage)} {a b : Nat × SentMessage}
    (hdel : delivered arrives tr = pre ++ a :: b :: post) (hij : a.1 < b.1)
    (hjn : b.1 ≤ (taken tr).length) :
    missing arrives tr a.1 b.1 = List.range' (a.1 + 1) (b.1 - a.1 - 1) := by
  rw [← filter_between hij hjn, missing]
  refine List.filter_congr fun k _ => ?_
  have hnone : a.1 < k ∧ k < b.1 → k ∉ (delivered arrives tr).map Prod.fst := by
    rintro ⟨h1, h2⟩ hk
    obtain ⟨d, hd, rfl⟩ := List.mem_map.mp hk
    have hs := delivered_sorted arrives tr
    rw [hdel] at hs hd
    rcases not_between_of_sorted hs hd with h | h <;> omega
  by_cases hk : a.1 < k ∧ k < b.1
  · simp [hk.1, hk.2, hnone hk]
  · have hb : (decide (a.1 < k) && decide (k < b.1)) = false := by
      rw [Bool.and_eq_false_iff, decide_eq_false_iff_not, decide_eq_false_iff_not]
      omega
    rw [hb, Bool.false_and]

/-- As long as the counter has not wrapped, the row of every message but the first is marked exactly
if a packet taken since the message before it has not arrived, and the two ids tell how many. -/
theorem gap_iff_missing {lib : MonitorLibrary} (hp : Reads env lib)
    (h : Run (System.step env) {} tr s) (hlt : (taken tr).length < 2 ^ 64)
    {pre post : List (Nat × SentMessage)} {a b : Nat × SentMessage}
    (hdel : delivered arrives tr = pre ++ a :: b :: post) :
    (∃ row rest, (subscriberThread lib ((pre ++ [a, b]).map fun d => d.2.frames) {}).rows =
        row :: rest ∧ row.remoteMsgId = b.2.messageId ∧
        (row.gap = true ↔ missing arrives tr a.1 b.1 ≠ [])) ∧
      (taken tr)[a.1]? = some a.2.packet ∧ (taken tr)[b.1]? = some b.2.packet ∧
      b.2.messageId.toNat =
        a.2.messageId.toNat + (missing arrives tr a.1 b.1).length + 1 := by
  have hmem : ∀ d ∈ pre ++ [a, b], d ∈ delivered arrives tr := by
    intro d hd
    rw [hdel]
    simp only [List.mem_append, List.mem_cons, List.not_mem_nil, or_false] at hd ⊢
    tauto
  obtain ⟨hpa, hida, -⟩ := delivered_place h (hmem a (by simp))
  obtain ⟨hpb, hidb, -⟩ := delivered_place h (hmem b (by simp))
  have hij : a.1 < b.1 := by
    have hs := delivered_sorted arrives tr
    rw [hdel] at hs
    exact (List.pairwise_cons.mp (List.pairwise_append.mp hs).2.1).1 b (List.mem_cons_self ..)
  have hjn : b.1 < (taken tr).length := (List.getElem?_eq_some_iff.mp hpb).1
  have hmiss := missing_eq hdel hij (Nat.le_of_lt hjn)
  have hna : a.2.messageId.toNat = a.1 + 1 := by
    rw [hida]; exact UInt64.toNat_ofNat_of_lt' (by show _ < 2 ^ 64; omega)
  have hnb : b.2.messageId.toNat = b.1 + 1 := by
    rw [hidb]; exact UInt64.toNat_ofNat_of_lt' (by show _ < 2 ^ 64; omega)
  have hsucc : b.2.messageId ≠ a.2.messageId + 1 ↔ missing arrives tr a.1 b.1 ≠ [] := by
    have hadd : (a.2.messageId + 1).toNat = a.1 + 2 := by
      rw [UInt64.toNat_add, hna]
      exact Nat.mod_eq_of_lt (by show a.1 + 1 + 1 < _; omega)
    rw [hmiss, ne_eq, ne_eq, List.range'_eq_nil_iff, ← UInt64.toNat_inj, hnb, hadd]
    omega
  refine ⟨?_, hpa, hpb, ?_⟩
  · have hmsg : ∀ m ∈ (pre ++ [a, b]).map Prod.snd,
        message env m.packet m.messageId = .ok m.frames := by
      intro m hm
      obtain ⟨d, hd, rfl⟩ := List.mem_map.mp hm
      exact (delivered_place h (hmem d hd)).2.2
    have hthread := subscriberThread_messages hp hmsg {}
    have hlast : (pre ++ [a, b]).map Prod.snd = pre.map Prod.snd ++ [a.2, b.2] := by simp
    rw [List.map_map, hlast, List.foldl_append] at hthread
    generalize List.foldl _ _ (pre.map Prod.snd) = model at hthread
    -- the last two messages decide
    obtain ⟨rest, hrows⟩ := MonitorModel.rows_addRow
      { model.observe env a.2 with
        isConnected := true
        localSeqCounter := (model.observe env a.2).localSeqCounter + 1 }
      ((model.observe env a.2).rowOf env b.2)
    refine ⟨_, rest, (congrArg MonitorModel.rows hthread).trans hrows, rfl, ?_⟩
    rw [← hsucc]
    exact MonitorModel.isGap_observe model
      (fun h0 => by rw [h0] at hna; cases hna) (fun h0 => by rw [h0] at hnb; cases hnb)
  · rw [hna, hnb, hmiss, List.length_range']
    omega

/-- A library that reads compact JSON. -/
def referenceMonitor : MonitorLibrary where
  parse := JsonText.read
  doubleToInt32 q := .ofInt (q.num.tdiv q.den)
  doubleToUInt64 q := .ofInt (q.num.tdiv q.den)

theorem reads_referenceMonitor : Reads streamingEnv referenceMonitor :=
  fun hp hd => (lawfulDump_defaultEnv id).read hp hd

/-- Of three messages the second is lost, and the row of the third is marked. -/
theorem gap_login : ∃ tr s a b, Run (System.step streamingEnv) {} tr s ∧
    delivered (fun k => k ≠ 1) tr = [a, b] ∧ missing (fun k => k ≠ 1) tr a.1 b.1 = [1] ∧
    ∃ row rest, (subscriberThread referenceMonitor [a.2.frames, b.2.frames] {}).rows =
      row :: rest ∧ row.gap = true := by
  obtain ⟨tr, s, h, -, hids, htaken⟩ := ready_rounds 3
  have hlt : (taken tr).length < 2 ^ 64 := by rw [htaken]; decide
  have hids' : (sent tr).map SentMessage.messageId = [1, 2, 3] := hids
  simp only [List.map_eq_cons_iff, List.map_eq_nil_iff] at hids'
  obtain ⟨m₁, _, hsent, h₁, m₂, _, rfl, h₂, m₃, _, rfl, h₃, rfl⟩ := hids'
  have hdel : delivered (fun k => k ≠ 1) tr = [] ++ [(0, m₁), (2, m₃)] := by
    rw [delivered_eq h hlt, hsent]
    simp [h₁, h₂, h₃]
  have hmiss : missing (fun k => k ≠ 1) tr 0 2 = [1] :=
    missing_eq hdel Nat.zero_lt_two (by simp [htaken])
  obtain ⟨⟨row, rest, hrows, -, hgap⟩, -⟩ := gap_iff_missing reads_referenceMonitor h hlt hdel
  exact ⟨tr, s, _, _, h, hdel, hmiss, row, rest, hrows, hgap.mpr (by rw [hmiss]; simp)⟩

theorem exists_lost : ∃ tr s m₁ m₃, Run (System.step streamingEnv) {} tr s ∧
    (taken tr).length < 2 ^ 64 ∧ delivered (fun k => k ≠ 1) tr = [(0, m₁), (2, m₃)] := by
  obtain ⟨tr, s, h, -, hids, htaken⟩ := ready_rounds 3
  have hlt : (taken tr).length < 2 ^ 64 := by rw [htaken]; decide
  have hids' : (sent tr).map SentMessage.messageId = [1, 2, 3] := hids
  simp only [List.map_eq_cons_iff, List.map_eq_nil_iff] at hids'
  obtain ⟨m₁, _, hsent, h₁, m₂, _, rfl, h₂, m₃, _, rfl, h₃, rfl⟩ := hids'
  refine ⟨tr, s, m₁, m₃, h, hlt, ?_⟩
  rw [delivered_eq h hlt, hsent]
  simp [h₁, h₂, h₃]

end PubStream

end Kpacket
