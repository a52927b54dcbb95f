import Kpacket.Monitor
import Mathlib.Data.List.TakeWhile
import Mathlib.Tactic.Ring

/-!
# What the monitor shows

`Reading` is a message as `SubscriberThread` takes it from its frames, and `log` the readings up to
the first frames that throw. The rows, the counts and the ids of the model are functions of the log
(`subscriberThread_shows`): the newest rows, numbered from the first message on, with the gaps that
the log has. The rate in the footer is that of the last ten messages (`shownRate_eq`).
-/

namespace Kpacket

open Lts Storing

/-! ### Readings -/

/-- What a message tells the monitor. -/
structure Reading where
  topic : Bytes
  id : UInt16
  name : Bytes
  dir : Bytes
  size : UInt32
  remoteMsgId : UInt64

namespace MonitorLibrary

variable (lib : MonitorLibrary)

def reading (topic : Bytes) (j : Json) : Outcome Reading := do
  let id ← lib.getInt32 (← valueOr j (lit "packet_id") (.integer 0))
  let name ← getString (← valueOr j (lit "packet_name") (.string []))
  let dir ← getString (← valueOr j (lit "direction") (.string []))
  let size ← lib.getInt32 (← valueOr j (lit "size") (.integer 0))
  let remoteMsgId ← getUInt64 lib.doubleToUInt64 (← valueOr j (lit "message_id") (.integer 0))
  pure ⟨topic, id.toUInt32.toUInt16, name, dir, size.toUInt32, remoteMsgId⟩

/-- Frames that are not read, as the text is no JSON or missing, are passed over. -/
def readFrames : List Bytes → Outcome (Option Reading)
  | topic :: metaJson :: _ =>
    match lib.parse metaJson with
    | none => .done none
    | some j => lib.reading topic j >>= fun r => .done (some r)
  | _ => .done none

/-- No exception comes from these frames. -/
def survives (frames : List Bytes) : Bool :=
  match lib.readFrames frames with
  | .done _ => true
  | _ => false

def reading? (frames : List Bytes) : Option Reading :=
  match lib.readFrames frames with
  | .done r => r
  | _ => none

/-- The readings up to the first exception, which ends the thread. -/
def log (received : List (List Bytes)) : List Reading :=
  (received.takeWhile lib.survives).filterMap lib.reading?

end MonitorLibrary

def MonitorModel.record (model : MonitorModel) (r : Reading) : MonitorModel :=
  { model with isConnected := true, localSeqCounter := model.localSeqCounter + 1 }.addRow {
    topic := r.topic
    id := r.id
    name := r.name
    dir := r.dir
    size := r.size
    localSeq := model.localSeqCounter + 1
    remoteMsgId := r.remoteMsgId
    gap := model.isGap r.remoteMsgId }

section

variable {lib : MonitorLibrary}

/-- What a turn does to the model, beside what the reading comes to. -/
inductive Recorded (model : MonitorModel) : Outcome Unit × MonitorModel → Outcome Reading → Prop
  | done (r : Reading) : Recorded model (.done (), model.record r) (.done r)
  | raised (what : Bytes) (n : UInt64) :
    Recorded model (.raised what, { model with isConnected := true, localSeqCounter := n })
      (.raised what)
  | undefined (n : UInt64) :
    Recorded model (.undefined, { model with isConnected := true, localSeqCounter := n }) .undefined

theorem subscriberStep_parsed {metaJson : Bytes} {j : Json} (hp : lib.parse metaJson = some j)
    (topic : Bytes) (rest : List Bytes) (model : MonitorModel) :
    Recorded model (subscriberStep lib (topic :: metaJson :: rest) model)
      (lib.reading topic j) := by
  have hraised := @Recorded.raised model
  have hundefined := @Recorded.undefined model
  simp only [subscriberStep, hp, store_bind_apply]
  unfold MonitorLibrary.reading
  refine lift_bind_rel (fun what => hraised what _) (hundefined _) fun _ => ?_
  refine lift_bind_rel (fun what => hraised what _) (hundefined _) fun id => ?_
  refine lift_bind_rel (fun what => hraised what _) (hundefined _) fun _ => ?_
  refine lift_bind_rel (fun what => hraised what _) (hundefined _) fun name => ?_
  refine lift_bind_rel (fun what => hraised what _) (hundefined _) fun _ => ?_
  refine lift_bind_rel (fun what => hraised what _) (hundefined _) fun dir => ?_
  refine lift_bind_rel (fun what => hraised what _) (hundefined _) fun _ => ?_
  refine lift_bind_rel (fun what => hraised what _) (hundefined _) fun size => ?_
  rw [store_bind_apply]
  refine lift_bind_rel (fun what => hraised what _) (hundefined _) fun _ => ?_
  refine lift_bind_rel (fun what => hraised what _) (hundefined _) fun remoteMsgId => ?_
  exact Recorded.done ⟨topic, id.toUInt32.toUInt16, name, dir, size.toUInt32, remoteMsgId⟩

theorem subscriberStep_survives {frames : List Bytes} (h : lib.survives frames = true)
    (model : MonitorModel) :
    subscriberStep lib frames model =
      (.done (), (lib.reading? frames).elim model model.record) := by
  unfold MonitorLibrary.survives at h
  unfold MonitorLibrary.reading?
  rcases frames with _ | ⟨topic, _ | ⟨metaJson, rest⟩⟩
  · rfl
  · rfl
  · rw [MonitorLibrary.readFrames] at h ⊢
    cases hp : lib.parse metaJson with
    | none =>
      rw [subscriberStep, hp]
      rfl
    | some j =>
      simp only [hp] at h ⊢
      have hf := subscriberStep_parsed hp topic rest model
      generalize lib.reading topic j = o at h hf ⊢
      generalize subscriberStep lib (topic :: metaJson :: rest) model = res at hf ⊢
      cases hf with
      | done r => rfl
      | raised => cases h
      | undefined => cases h

theorem subscriberStep_throws {frames : List Bytes} (h : lib.survives frames = false)
    (model : MonitorModel) : ∃ o n, (∀ x, o ≠ .done x) ∧
      subscriberStep lib frames model =
        (o, { model with isConnected := true, localSeqCounter := n }) := by
  unfold MonitorLibrary.survives at h
  rcases frames with _ | ⟨topic, _ | ⟨metaJson, rest⟩⟩
  · cases h
  · cases h
  · rw [MonitorLibrary.readFrames] at h
    cases hp : lib.parse metaJson with
    | none =>
      simp only [hp] at h
      cases h
    | some j =>
      simp only [hp] at h
      have hf := subscriberStep_parsed hp topic rest model
      generalize lib.reading topic j = o at h hf
      generalize subscriberStep lib (topic :: metaJson :: rest) model = res at hf ⊢
      cases hf with
      | done => cases h
      | raised what n => exact ⟨.raised what, n, nofun, rfl⟩
      | undefined n => exact ⟨.undefined, n, nofun, rfl⟩

/-- The thread records the readings of its log, and goes down with the first exception. -/
theorem subscriberThread_log (received : List (List Bytes)) (model : MonitorModel) :
    ∃ n, subscriberThread lib received model =
      if received.all lib.survives then (lib.log received).foldl MonitorModel.record model
      else { (lib.log received).foldl MonitorModel.record model with
        isConnected := false
        localSeqCounter := n } := by
  induction received generalizing model with
  | nil => exact ⟨0, rfl⟩
  | cons frames rest ih =>
    cases h : lib.survives frames with
    | true =>
      obtain ⟨n, hn⟩ := ih ((lib.reading? frames).elim model model.record)
      refine ⟨n, ?_⟩
      rw [subscriberThread, subscriberStep_survives h]
      refine hn.trans ?_
      have hlog : (lib.log (frames :: rest)).foldl MonitorModel.record model =
          (lib.log rest).foldl MonitorModel.record
            ((lib.reading? frames).elim model model.record) := by
        rw [MonitorLibrary.log, List.takeWhile_cons_of_pos h, List.filterMap_cons]
        cases lib.reading? frames <;> rfl
      rw [hlog, List.all_cons, h, Bool.true_and]
    | false =>
      obtain ⟨o, n, ho, hs⟩ := subscriberStep_throws h model
      refine ⟨n, ?_⟩
      have hlog : lib.log (frames :: rest) = [] := by
        rw [MonitorLibrary.log, List.takeWhile_cons_of_neg (by rw [h]; exact Bool.false_ne_true)]
        rfl
      rw [subscriberThread, hs, hlog, List.all_cons, h]
      rcases o with x | what | _
      · exact absurd rfl (ho x)
      · rfl
      · rfl

end

/-! ### The store -/

/-- The last id that a message has come with. -/
def lastId (log : List Reading) : UInt64 :=
  ((log.map Reading.remoteMsgId).filter (· ≠ 0)).getLast?.getD 0

/-- The row of a message that comes after those of `past`. -/
def rowAfter (past : List Reading) (r : Reading) : PacketRow where
  topic := r.topic
  id := r.id
  name := r.name
  dir := r.dir
  size := r.size
  localSeq := .ofNat (past.length + 1)
  remoteMsgId := r.remoteMsgId
  gap := lastId past ≠ 0 && r.remoteMsgId ≠ 0 && r.remoteMsgId ≠ lastId past + 1

def rowsOf (log : List Reading) : List PacketRow :=
  history (fun past r => some (rowAfter past r)) log

theorem rowsOf_snoc (log : List Reading) (r : Reading) :
    rowsOf (log ++ [r]) = rowsOf log ++ [rowAfter log r] := history_snoc ..

theorem length_rowsOf (log : List Reading) : (rowsOf log).length = log.length := by
  induction log using List.reverseRecOn with
  | nil => rfl
  | append_singleton log r ih =>
    rw [rowsOf_snoc, List.length_append, List.length_append, ih]
    rfl

theorem getElem?_rowsOf (log : List Reading) (k : Nat) :
    (rowsOf log)[k]? = log[k]?.map (rowAfter (log.take k)) := by
  induction log using List.reverseRecOn with
  | nil => rfl
  | append_singleton log r ih =>
    rw [rowsOf_snoc]
    rcases Nat.lt_trichotomy k log.length with hk | rfl | hk
    · rw [List.getElem?_append_left (by rwa [length_rowsOf]), List.getElem?_append_left hk, ih,
        List.take_append_of_le_length (Nat.le_of_lt hk)]
    · rw [← length_rowsOf, List.getElem?_concat_length, length_rowsOf,
        List.getElem?_concat_length, List.take_left]
      rfl
    · rw [List.getElem?_eq_none
          (by rw [List.length_append, length_rowsOf, List.length_singleton]; omega),
        List.getElem?_eq_none (by rw [List.length_append, List.length_singleton]; omega)]
      rfl

theorem lastId_snoc (log : List Reading) (r : Reading) :
    lastId (log ++ [r]) = if r.remoteMsgId ≠ 0 then r.remoteMsgId else lastId log := by
  unfold lastId
  rw [List.map_append, List.filter_append]
  by_cases h : r.remoteMsgId = 0 <;> simp [h]

theorem rowAfter_gap {past : List Reading} {r : Reading} {i j : Nat}
    (hlast : (lastId past).toNat = i + 1) (hid : r.remoteMsgId.toNat = j + 1)
    (hi : i + 1 < 2 ^ 64) (hj : j + 1 < 2 ^ 64) :
    (rowAfter past r).gap = true ↔ j ≠ i + 1 := by
  have hsucc : (lastId past + 1).toNat = (i + 2) % 2 ^ 64 := by
    rw [UInt64.toNat_add, hlast]
    rfl
  simp only [rowAfter, Bool.and_eq_true, decide_eq_true_eq, ne_eq, ← UInt64.toNat_inj, hlast, hid,
    hsucc]
  show (¬ i + 1 = 0 ∧ ¬ j + 1 = 0) ∧ ¬ j + 1 = (i + 2) % 2 ^ 64 ↔ _
  omega

theorem take_reverse_snoc {α : Type} (l : List α) (x : α) (n : Nat) :
    (if (x :: l.reverse.take n).length > n then (x :: l.reverse.take n).dropLast
      else x :: l.reverse.take n) = (l ++ [x]).reverse.take n := by
  rw [List.reverse_append, List.reverse_singleton, List.singleton_append, List.length_cons,
    List.length_take]
  split_ifs with h
  · rw [List.dropLast_eq_take, List.length_cons, List.length_take,
      ← List.take_succ_cons, List.take_take]
    congr 1
    omega
  · rw [List.take_of_length_le (by omega), List.take_of_length_le (by rw [List.length_cons]; omega)]

/-- The model is what the log says. -/
structure Shows (model : MonitorModel) (log : List Reading) : Prop where
  rows : model.rows = (rowsOf log).reverse.take MonitorModel.maxRows
  totalPackets : model.totalPackets = .ofNat log.length
  lastRemoteMsgId : model.lastRemoteMsgId = lastId log

theorem Shows.record {model : MonitorModel} {log : List Reading} (h : Shows model log)
    (hseq : model.localSeqCounter = .ofNat log.length) (r : Reading) :
    Shows (model.record r) (log ++ [r]) := by
  have hlen : UInt64.ofNat (log.length + 1) = .ofNat log.length + 1 := UInt64.ofNat_add ..
  refine ⟨?_, ?_, ?_⟩
  · have hr : rowAfter log r = ⟨r.topic, r.id, r.name, r.dir, r.size, model.localSeqCounter + 1,
        r.remoteMsgId, model.isGap r.remoteMsgId⟩ := by
      rw [hseq, ← hlen, MonitorModel.isGap, h.lastRemoteMsgId]
      rfl
    rw [rowsOf_snoc, ← take_reverse_snoc, ← h.rows, hr]
    rfl
  · rw [List.length_append, List.length_singleton, hlen, ← h.totalPackets]
    rfl
  · exact (congrArg (fun id => if r.remoteMsgId ≠ 0 then r.remoteMsgId else id)
      h.lastRemoteMsgId).trans (lastId_snoc log r).symm

theorem shows_log (log : List Reading) :
    Shows (log.foldl MonitorModel.record {}) log ∧
      (log.foldl MonitorModel.record {}).localSeqCounter = .ofNat log.length := by
  induction log using List.reverseRecOn with
  | nil => exact ⟨⟨rfl, rfl, rfl⟩, rfl⟩
  | append_singleton log r ih =>
    obtain ⟨hs, hseq⟩ := ih
    rw [List.foldl_append, List.foldl_cons, List.foldl_nil]
    refine ⟨hs.record hseq r, ?_⟩
    rw [List.length_append, List.length_singleton, UInt64.ofNat_add, ← hseq]
    rfl

/-- Whatever frames the monitor receives, it shows what they say up to the first that throw. -/
theorem subscriberThread_shows (lib : MonitorLibrary) (received : List (List Bytes)) :
    Shows (subscriberThread lib received {}) (lib.log received) := by
  obtain ⟨hs, -⟩ := shows_log (lib.log received)
  obtain ⟨n, hn⟩ := subscriberThread_log received {}
  rw [hn]
  split_ifs
  · exact hs
  · exact ⟨hs.rows, hs.totalPackets, hs.lastRemoteMsgId⟩

/-! ### Messages of the relay -/

def readingOf (env : Env) (packet : PacketInfo) (messageId : UInt64) : Reading where
  topic := topicForPacket env.config packet
  id := packet.id
  name := packet.name
  dir := directionName packet.direction
  size := packet.size
  remoteMsgId := messageId

theorem readFrames_message {env : Env} {lib : MonitorLibrary} (hp : Reads env lib)
    {packet : PacketInfo} {messageId : UInt64} {frames : List Bytes}
    (h : message env packet messageId = .ok frames) :
    lib.readFrames frames = .done (some (readingOf env packet messageId)) := by
  obtain ⟨text, rest, j, rfl, hplain, hdump, hobj, hl, hid⟩ := message_head h
  have hk : ∀ {k x} (d : Json), k ∉ framingKeys → KeyMap.lookup k (packetFields packet) = some x →
      valueOr j k d = .done x :=
    fun d hk hx => valueOr_of_lookup ((hl _ hk).trans hx) d
  have hpid := hk (k := lit "packet_id") (.integer 0) (by decide) rfl
  have hname := hk (k := lit "packet_name") (.string []) (by decide) rfl
  have hdir := hk (k := lit "direction") (.string []) (by decide) rfl
  have hsize := hk (k := lit "size") (.integer 0) (by decide) rfl
  have hmid := valueOr_of_lookup hid (.integer 0)
  simp only [MonitorLibrary.readFrames, hp hplain hdump, MonitorLibrary.reading, hpid, hname, hdir,
    hsize, hmid, Outcome.bind_done, MonitorLibrary.getInt32, getString, getUInt64_toNat,
    ofInt_toUInt16, ofInt_toUInt32]
  rfl

theorem log_of_readings {δ : Type} {lib : MonitorLibrary} {frames : δ → List Bytes}
    {r : δ → Reading} {ds : List δ} (h : ∀ d ∈ ds, lib.readFrames (frames d) = .done (some (r d))) :
    lib.log (ds.map frames) = ds.map r := by
  have hall : ∀ f ∈ ds.map frames, lib.survives f = true := by
    intro f hf
    obtain ⟨d, hd, rfl⟩ := List.mem_map.mp hf
    rw [MonitorLibrary.survives, h d hd]
  rw [MonitorLibrary.log, List.takeWhile_eq_self_iff.mpr hall, List.filterMap_map,
    ← List.filterMap_eq_map]
  refine List.filterMap_congr fun d hd => ?_
  show lib.reading? (frames d) = _
  rw [MonitorLibrary.reading?, h d hd]
  rfl

theorem PubStream.log_delivered {env : Env} {lib : MonitorLibrary} (hp : Reads env lib)
    {tr : List Label} {s : System} (h : Run (System.step env) {} tr s) (arrives : Nat → Bool) :
    lib.log ((delivered arrives tr).map fun d => d.2.frames) =
      (delivered arrives tr).map fun d => readingOf env d.2.packet d.2.messageId :=
  log_of_readings fun _ hd => readFrames_message hp (delivered_place h hd).2.2

/-- The `i`-th row from the top: the message, its number, and whether the one before it has come
right before it on the stream. -/
def deliveredRow (env : Env) (ds : List (Nat × SentMessage)) (i : Nat) : Option PacketRow :=
  ds.reverse[i]?.map fun d => {
    topic := topicForPacket env.config d.2.packet
    id := d.2.packet.id
    name := d.2.packet.name
    dir := directionName d.2.packet.direction
    size := d.2.packet.size
    localSeq := .ofNat (ds.length - i)
    remoteMsgId := d.2.messageId
    gap := ds.reverse[i + 1]?.any fun d' => d.1 ≠ d'.1 + 1 }

theorem PubStream.toNat_messageId {tr : List Label} {d : Nat × SentMessage}
    (hlt : (taken tr).length < 2 ^ 64) (hp : (taken tr)[d.1]? = some d.2.packet)
    (hid : d.2.messageId = .ofNat (d.1 + 1)) : d.2.messageId.toNat = d.1 + 1 := by
  have hle := (List.getElem?_eq_some_iff.mp hp).1
  rw [hid]
  exact UInt64.toNat_ofNat_of_lt' (by show _ < 2 ^ 64; omega)

/-- The mark of a message is decided by the one before it. -/
theorem gap_delivered {env : Env} {ds : List (Nat × SentMessage)}
    (hnum : ∀ d ∈ ds, d.2.messageId.toNat = d.1 + 1 ∧ d.1 + 1 < 2 ^ 64) {k i : Nat}
    (hk : ds.length = k + i + 1) {d : Nat × SentMessage} (hd : ds[k]? = some d) :
    (rowAfter ((ds.map fun d => readingOf env d.2.packet d.2.messageId).take k)
      (readingOf env d.2.packet d.2.messageId)).gap =
        ds.reverse[i + 1]?.any fun d' => d.1 ≠ d'.1 + 1 := by
  obtain ⟨hid, hlt⟩ := hnum d (List.mem_of_getElem? hd)
  rcases k with _ | k
  · rw [List.getElem?_eq_none (by rw [List.length_reverse]; omega)]
    rfl
  · obtain ⟨d', hd'⟩ : ∃ d', ds[k]? = some d' := ⟨_, List.getElem?_eq_getElem (by omega)⟩
    obtain ⟨hid', hlt'⟩ := hnum d' (List.mem_of_getElem? hd')
    have hat : ds.length - 1 - (i + 1) = k := by omega
    have hne : d'.2.messageId ≠ 0 := by
      intro h0
      rw [h0] at hid'
      cases hid'
    have hlast :
        (lastId ((ds.map fun d => readingOf env d.2.packet d.2.messageId).take (k + 1))).toNat =
          d'.1 + 1 := by
      rw [List.take_add_one, List.getElem?_map, hd']
      refine (congrArg UInt64.toNat (lastId_snoc ..)).trans ?_
      rw [if_pos (by exact hne)]
      exact hid'
    rw [List.getElem?_reverse (by omega), hat, hd', Bool.eq_iff_iff,
      rowAfter_gap hlast hid hlt' hlt]
    simp

/-- Of whatever part of a run arrives the monitor shows the newest messages, each marked exactly if
it is not the next after the one below it. -/
theorem rows_delivered {env : Env} {lib : MonitorLibrary} (hp : Reads env lib) {tr : List Label}
    {s : System} (h : Run (System.step env) {} tr s) (hlt : (PubStream.taken tr).length < 2 ^ 64)
    (arrives : Nat → Bool) (i : Nat) :
    (subscriberThread lib ((PubStream.delivered arrives tr).map fun d => d.2.frames) {}).rows[i]? =
      if i < MonitorModel.maxRows then deliveredRow env (PubStream.delivered arrives tr) i
      else none := by
  have hs := subscriberThread_shows lib
    ((PubStream.delivered arrives tr).map fun d => d.2.frames)
  rw [hs.rows, PubStream.log_delivered hp h, List.getElem?_take]
  have hnum : ∀ d ∈ PubStream.delivered arrives tr,
      d.2.messageId.toNat = d.1 + 1 ∧ d.1 + 1 < 2 ^ 64 := by
    intro d hd
    obtain ⟨hpd, hidd, -⟩ := PubStream.delivered_place h hd
    have hld := (List.getElem?_eq_some_iff.mp hpd).1
    exact ⟨PubStream.toNat_messageId hlt hpd hidd, by omega⟩
  generalize PubStream.delivered arrives tr = ds at hnum
  split_ifs with hi
  · by_cases hn : i < ds.length
    · obtain ⟨k, hk⟩ : ∃ k, ds.length = k + i + 1 := ⟨ds.length - i - 1, by omega⟩
      obtain ⟨d, hd⟩ : ∃ d, ds[k]? = some d := ⟨_, List.getElem?_eq_getElem (by omega)⟩
      have hat : ds.length - 1 - i = k := by omega
      have hlen : ((ds.map fun d => readingOf env d.2.packet d.2.messageId).take k).length + 1 =
          ds.length - i := by
        rw [List.length_take, List.length_map]
        omega
      rw [List.getElem?_reverse (by rwa [length_rowsOf, List.length_map]), length_rowsOf,
        List.length_map, getElem?_rowsOf, List.getElem?_map, deliveredRow,
        List.getElem?_reverse hn, hat, hd, Option.map_some, Option.map_some, Option.map_some,
        ← gap_delivered hnum hk hd, ← hlen]
      rfl
    · have hnone {α : Type} (l : List α) (hl : l.length = ds.length) : l.reverse[i]? = none :=
        List.getElem?_eq_none (by rw [List.length_reverse]; omega)
      rw [deliveredRow, hnone ds rfl, hnone _ (by rw [length_rowsOf, List.length_map])]
      rfl
  · rfl

/-- Of three messages the first and the third arrive: two rows, and the upper one is marked. -/
theorem rows_delivered_login : ∃ tr s m₁ m₃, Run (System.step PubStream.streamingEnv) {} tr s ∧
    PubStream.delivered (fun k => k ≠ 1) tr = [(0, m₁), (2, m₃)] ∧
    ∀ i : Nat,
      ((subscriberThread PubStream.referenceMonitor [m₁.frames, m₃.frames] {}).rows[i]?).map
        (fun row : PacketRow => (row.localSeq, row.gap)) = [(2, true), (1, false)][i]? := by
  obtain ⟨tr, s, m₁, m₃, h, hlt, hdel⟩ := PubStream.exists_lost
  refine ⟨tr, s, m₁, m₃, h, hdel, fun i => ?_⟩
  have hrows := rows_delivered PubStream.reads_referenceMonitor h hlt (fun k => k ≠ 1) i
  rw [hdel] at hrows
  rw [show [m₁.frames, m₃.frames] = [(0, m₁), (2, m₃)].map fun d => d.2.frames from rfl, hrows]
  rcases i with _ | _ | i
  · rfl
  · rfl
  · split_ifs <;> rfl

/-! ### The rate -/

/-- The times of `SubscriberThread`, in milliseconds. -/
structure RateMeter where
  lastPacketMs : Int := 0
  batchCount : Nat := 0
  batchStartMs : Int := 0
  lastBatchRate : Rat := 0

def RateMeter.arrive (meter : RateMeter) (nowMs : Int) : RateMeter :=
  let cnt := meter.batchCount + 1
  let meter := { meter with lastPacketMs := nowMs, batchCount := cnt }
  if cnt = 1 then { meter with batchStartMs := nowMs }
  else if cnt ≥ 10 then
    let elapsed := nowMs - meter.batchStartMs
    { meter with
      lastBatchRate := if elapsed > 0 then 10 * 1000 / elapsed else meter.lastBatchRate
      batchCount := 0
      batchStartMs := nowMs }
  else meter

/-- Ten messages each, with the times of the first and of the last of them. -/
def batches (times : List Int) : List (Int × Int) :=
  (List.range (times.length / 10)).map fun k => (times.getD (10 * k) 0, times.getD (10 * k + 9) 0)

/-- The rate of a batch that took some time. -/
def batchRate? (batch : Int × Int) : Option Rat :=
  if batch.2 - batch.1 > 0 then some (10 * 1000 / ((batch.2 - batch.1 : Int) : Rat)) else none

def lastRate (times : List Int) : Rat := ((batches times).filterMap batchRate?).getLast?.getD 0

theorem batches_snoc (times : List Int) (t : Int) :
    batches (times ++ [t]) = if times.length % 10 = 9
      then batches times ++ [(times.getD (times.length - 9) 0, t)] else batches times := by
  have hold : ∀ k ∈ List.range (times.length / 10),
      ((times ++ [t]).getD (10 * k) 0, (times ++ [t]).getD (10 * k + 9) 0) =
        (times.getD (10 * k) 0, times.getD (10 * k + 9) 0) := by
    intro k hk
    have := List.mem_range.mp hk
    rw [List.getD_append _ _ _ _ (by omega), List.getD_append _ _ _ _ (by omega)]
  unfold batches
  rw [List.length_append, List.length_singleton]
  split_ifs with h
  · have hk : 10 * (times.length / 10) = times.length - 9 := by omega
    have hn : (times.length + 1) / 10 = times.length / 10 + 1 := by omega
    rw [hn, List.range_succ, List.map_append, List.map_congr_left hold, List.map_singleton, hk,
      List.getD_append _ _ _ _ (by omega), List.getD_append_right _ _ _ _ (by omega)]
    have h0 : times.length - 9 + 9 - times.length = 0 := by omega
    rw [h0]
    rfl
  · have hn : (times.length + 1) / 10 = times.length / 10 := by omega
    rw [hn, List.map_congr_left hold]

theorem lastRate_full {times : List Int} {t start : Int} (h : times.length % 10 = 9)
    (hs : start = times.getD (times.length - 9) 0) :
    lastRate (times ++ [t]) =
      if t - start > 0 then 10 * 1000 / ((t - start : Int) : Rat) else lastRate times := by
  have hb : batchRate? (start, t) =
      if t - start > 0 then some (10 * 1000 / ((t - start : Int) : Rat)) else none := rfl
  rw [lastRate, batches_snoc, if_pos h, ← hs, List.filterMap_append, List.filterMap_cons, hb]
  split_ifs
  · simp
  · simp [lastRate]

theorem lastRate_short {times : List Int} {t : Int} (h : times.length % 10 ≠ 9) :
    lastRate (times ++ [t]) = lastRate times := by
  rw [lastRate, batches_snoc, if_neg h, lastRate]

/-- What the meter stands at after these times. -/
structure Measures (meter : RateMeter) (times : List Int) : Prop where
  lastPacketMs : meter.lastPacketMs = times.getLast?.getD 0
  batchCount : meter.batchCount = times.length % 10
  batchStartMs : times.length % 10 ≠ 0 →
    meter.batchStartMs = times.getD (times.length - times.length % 10) 0
  lastBatchRate : meter.lastBatchRate = lastRate times

theorem Measures.arrive {meter : RateMeter} {times : List Int} (h : Measures meter times)
    (t : Int) : Measures (meter.arrive t) (times ++ [t]) := by
  have hlast : t = (times ++ [t]).getLast?.getD 0 := by rw [List.getLast?_concat]; rfl
  have hlen : (times ++ [t]).length = times.length + 1 := by simp
  have hmod := Nat.mod_lt times.length (by decide : 0 < 10)
  have hcount := h.batchCount
  unfold RateMeter.arrive
  dsimp only
  rcases (by omega : meter.batchCount = 0 ∨ meter.batchCount = 9 ∨
    meter.batchCount ≠ 0 ∧ meter.batchCount < 9) with h0 | h9 | ⟨h1, h9⟩
  · rw [if_pos (by omega)]
    refine ⟨hlast, ?_, fun _ => ?_, h.lastBatchRate.trans (lastRate_short (by omega)).symm⟩
    · show meter.batchCount + 1 = _
      omega
    · have hn : times.length + 1 - (times.length + 1) % 10 = times.length := by omega
      rw [hlen, hn, List.getD_append_right _ _ _ _ (Nat.le_refl _), Nat.sub_self]
      rfl
  · -- the batch is full
    rw [if_neg (by omega), if_pos (by omega)]
    have h9 : times.length % 10 = 9 := by omega
    have hstart := h.batchStartMs (by omega)
    rw [h9] at hstart
    refine ⟨hlast, by show 0 = _; omega, fun hne => by omega, ?_⟩
    rw [lastRate_full h9 hstart, ← h.lastBatchRate]
  · rw [if_neg (by omega), if_neg (by omega)]
    refine ⟨hlast, ?_, fun _ => ?_, h.lastBatchRate.trans (lastRate_short (by omega)).symm⟩
    · show meter.batchCount + 1 = _
      omega
    · have hn : times.length + 1 - (times.length + 1) % 10 = times.length - times.length % 10 := by
        omega
      rw [hlen, hn, List.getD_append _ _ _ _ (by omega)]
      exact h.batchStartMs (by omega)

theorem measures (times : List Int) : Measures (times.foldl RateMeter.arrive {}) times := by
  induction times using List.reverseRecOn with
  | nil => exact ⟨rfl, rfl, fun h => absurd rfl h, rfl⟩
  | append_singleton times t ih =>
    rw [List.foldl_append]
    exact ih.arrive t

/-! ### The footer -/

section

variable (lib : MonitorLibrary)

/-- The meter runs as soon as the text of the frames is parsed. -/
def parses : List Bytes → Bool
  | _ :: metaJson :: _ => (lib.parse metaJson).isSome
  | _ => false

/-- One turn with the time at which its frames are parsed. -/
def subscriberTurn (nowMs : Int) (frames : List Bytes) (m : MonitorModel × RateMeter) :
    Outcome Unit × MonitorModel × RateMeter :=
  let (o, model) := subscriberStep lib frames m.1
  (o, model, if parses lib frames then m.2.arrive nowMs else m.2)

def timedSubscriber : List (Int × List Bytes) → MonitorModel × RateMeter → MonitorModel × RateMeter
  | [], m => m
  | (nowMs, frames) :: rest, m =>
    match subscriberTurn lib nowMs frames m with
    | (.done (), m) => timedSubscriber rest m
    | (_, model, meter) => ({ model with isConnected := false }, meter)

/-- The times at which a text was parsed, the one that ends the thread included. -/
def heard : List (Int × List Bytes) → List Int
  | [] => []
  | (nowMs, frames) :: rest =>
    (if parses lib frames then [nowMs] else []) ++ if lib.survives frames then heard rest else []

theorem timedSubscriber_eq (turns : List (Int × List Bytes)) (m : MonitorModel × RateMeter) :
    timedSubscriber lib turns m =
      (subscriberThread lib (turns.map Prod.snd) m.1,
        (heard lib turns).foldl RateMeter.arrive m.2) := by
  induction turns generalizing m with
  | nil => rfl
  | cons turn rest ih =>
    obtain ⟨nowMs, frames⟩ := turn
    have hmeter : (if parses lib frames then [nowMs] else []).foldl RateMeter.arrive m.2 =
        if parses lib frames then m.2.arrive nowMs else m.2 := by
      split_ifs <;> rfl
    rw [timedSubscriber, subscriberTurn, heard, List.foldl_append, hmeter, List.map_cons,
      subscriberThread]
    cases h : lib.survives frames with
    | true =>
      rw [subscriberStep_survives h]
      exact ih _
    | false =>
      obtain ⟨o, n, ho, hs⟩ := subscriberStep_throws h m.1
      rw [hs]
      rcases o with x | what | _
      · exact absurd rfl (ho x)
      · rfl
      · rfl

end

/-- The header says connected: a message or an answer within two seconds. -/
def connected (lastPacketMs lastHealthOkMs nowMs : Int) : Bool :=
  (lastPacketMs > 0 && nowMs - lastPacketMs ≤ 2000) ||
    (lastHealthOkMs > 0 && nowMs - lastHealthOkMs ≤ 2000)

/-- The rate in the footer. -/
def shownRate (m : MonitorModel × RateMeter) (lastHealthOkMs nowMs : Int) : Rat :=
  if m.1.totalPackets < 10 || !connected m.2.lastPacketMs lastHealthOkMs nowMs then 0
  else m.2.lastBatchRate

/-- The rate in the footer is a function of the log and of the times of arrival. -/
theorem shownRate_eq (lib : MonitorLibrary) (turns : List (Int × List Bytes))
    (lastHealthOkMs nowMs : Int) :
    shownRate (timedSubscriber lib turns ({}, {})) lastHealthOkMs nowMs =
      if UInt64.ofNat (lib.log (turns.map Prod.snd)).length < 10 ||
          !connected ((heard lib turns).getLast?.getD 0) lastHealthOkMs nowMs then 0
      else lastRate (heard lib turns) := by
  have hs := subscriberThread_shows lib (turns.map Prod.snd)
  have hm := measures (heard lib turns)
  rw [timedSubscriber_eq, shownRate, hs.totalPackets, hm.lastPacketMs, hm.lastBatchRate]

/-- A batch of messages that come every `d` milliseconds is measured over nine times that long. -/
theorem lastRate_steady {times : List Int} {start d : Int} (hd : 0 < d) (hn : 10 ≤ times.length)
    (h : ∀ k < times.length, times.getD k 0 = start + d * k) :
    lastRate times = 10 * 1000 / (9 * (d : Rat)) := by
  have hrate : ∀ k ∈ List.range (times.length / 10),
      batchRate? (times.getD (10 * k) 0, times.getD (10 * k + 9) 0) =
        some (10 * 1000 / (9 * (d : Rat))) := by
    intro k hk
    have hk := List.mem_range.mp hk
    have helapsed : times.getD (10 * k + 9) 0 - times.getD (10 * k) 0 = 9 * d := by
      rw [h _ (by omega), h _ (by omega)]
      push_cast
      ring
    rw [batchRate?, if_pos (by rw [helapsed]; omega), helapsed, Int.cast_mul]
    rfl
  obtain ⟨m, hm⟩ : ∃ m, times.length / 10 = m + 1 := ⟨times.length / 10 - 1, by omega⟩
  have hall : (batches times).filterMap batchRate? =
      (List.range (m + 1)).filterMap fun _ => some (10 * 1000 / (9 * (d : Rat))) := by
    rw [batches, List.filterMap_map, ← hm]
    exact List.filterMap_congr hrate
  rw [lastRate, hall, List.range_succ, List.filterMap_append]
  simp

theorem readFrames_of_reading {lib : MonitorLibrary} {frames : List Bytes}
    (h : (lib.reading? frames).isSome = true) :
    lib.survives frames = true ∧ parses lib frames = true := by
  unfold MonitorLibrary.reading? at h
  unfold MonitorLibrary.survives parses
  rcases frames with _ | ⟨topic, _ | ⟨metaJson, rest⟩⟩
  · cases h
  · cases h
  · rw [MonitorLibrary.readFrames] at h ⊢
    cases hp : lib.parse metaJson with
    | none =>
      rw [hp] at h
      cases h
    | some j =>
      simp only [hp] at h ⊢
      generalize lib.reading topic j = o at h ⊢
      rcases o with r | what | _
      · exact ⟨rfl, rfl⟩
      · simp at h
      · simp at h

theorem heard_of_reading {lib : MonitorLibrary} {turns : List (Int × List Bytes)}
    (h : ∀ turn ∈ turns, (lib.reading? turn.2).isSome = true) :
    heard lib turns = turns.map Prod.fst ∧
      (lib.log (turns.map Prod.snd)).length = turns.length := by
  induction turns with
  | nil => exact ⟨rfl, rfl⟩
  | cons turn rest ih =>
    have hturn := h turn (List.mem_cons_self ..)
    obtain ⟨hsurvives, hparses⟩ := readFrames_of_reading hturn
    obtain ⟨r, hr⟩ := Option.isSome_iff_exists.mp hturn
    obtain ⟨hheard, hlog⟩ := ih fun t ht => h t (List.mem_cons_of_mem _ ht)
    refine ⟨?_, ?_⟩
    · rw [heard, hparses, hsurvives, if_pos rfl, if_pos rfl, hheard]
      rfl
    · rw [List.map_cons, MonitorLibrary.log, List.takeWhile_cons_of_pos hsurvives,
        List.filterMap_cons, hr]
      exact congrArg (· + 1) hlog

/-- The footer shows ten ninths of the rate of a steady stream. -/
theorem shownRate_steady {lib : MonitorLibrary} {turns : List (Int × List Bytes)}
    {start d lastHealthOkMs nowMs : Int} (hd : 0 < d) (h0 : 0 < start) (hn : 10 ≤ turns.length)
    (hlt : turns.length < 2 ^ 64) (hread : ∀ turn ∈ turns, (lib.reading? turn.2).isSome = true)
    (htimes : turns.map Prod.fst =
      (List.range turns.length).map fun k : Nat => start + d * (k : Int))
    (hnow : nowMs ≤ start + d * (turns.length - 1) + 2000) :
    shownRate (timedSubscriber lib turns ({}, {})) lastHealthOkMs nowMs =
      10 / 9 * (1000 / (d : Rat)) := by
  obtain ⟨hheard, hlog⟩ := heard_of_reading hread
  have hget : ∀ k < turns.length, (turns.map Prod.fst).getD k 0 = start + d * (k : Int) := by
    intro k hk
    rw [htimes, List.getD_eq_getElem _ _ (by simpa using hk)]
    simp
  have hlast : (turns.map Prod.fst).getLast?.getD 0 = start + d * (turns.length - 1) := by
    obtain ⟨m, hm⟩ : ∃ m, turns.length = m + 1 := ⟨turns.length - 1, by omega⟩
    rw [htimes, hm, List.range_succ, List.map_append, List.map_singleton, List.getLast?_concat]
    simp
  have hconn : connected (start + d * (turns.length - 1)) lastHealthOkMs nowMs = true := by
    have := Int.mul_nonneg (Int.le_of_lt hd) (b := (turns.length : Int) - 1) (by omega)
    have hrecent : (decide (start + d * (turns.length - 1) > 0) &&
        decide (nowMs - (start + d * (turns.length - 1)) ≤ 2000)) = true := by
      rw [Bool.and_eq_true, decide_eq_true_eq, decide_eq_true_eq]
      omega
    rw [connected, hrecent, Bool.true_or]
  have hten : ¬ UInt64.ofNat turns.length < 10 := by
    rw [UInt64.lt_iff_toNat_lt, UInt64.toNat_ofNat_of_lt' (by exact hlt)]
    show ¬ turns.length < 10
    omega
  rw [shownRate_eq, hlog, hheard, hlast, hconn, if_neg (by simpa using hten),
    lastRate_steady hd (by simpa using hn) (by simpa using hget)]
  ring

/-- Ten packets, a tenth of a second apart: 10 packets a second are shown as 100/9. -/
theorem shownRate_login : ∃ turns : List (Int × List Bytes), turns.length = 10 ∧
    turns.map Prod.fst = (List.range 10).map (fun k : Nat => 1000 + 100 * (k : Int)) ∧
    shownRate (timedSubscriber PubStream.referenceMonitor turns ({}, {})) 0 2000 = 100 / 9 := by
  obtain ⟨frames, hm⟩ := message_ok PubStream.streamingEnv loginPacket 1
    (lawfulDump_defaultEnv id) (by decide) (by decide) (by decide) (by decide)
  have hread : (PubStream.referenceMonitor.reading? frames).isSome = true := by
    rw [MonitorLibrary.reading?, readFrames_message PubStream.reads_referenceMonitor hm]
    rfl
  let turns := (List.range 10).map fun k : Nat => (1000 + 100 * (k : Int), frames)
  have hlen : turns.length = 10 := rfl
  have hshown : shownRate (timedSubscriber PubStream.referenceMonitor turns ({}, {})) 0 2000 =
      10 / 9 * (1000 / ((100 : Int) : Rat)) := by
    refine shownRate_steady (show (0 : Int) < 100 by decide) (show (0 : Int) < 1000 by decide)
      (by rw [hlen]) (by rw [hlen]; decide) (fun turn ht => ?_) rfl (by rw [hlen]; decide)
    obtain ⟨k, -, rfl⟩ := List.mem_map.mp ht
    exact hread
  refine ⟨turns, hlen, rfl, hshown.trans ?_⟩
  norm_num

end Kpacket
