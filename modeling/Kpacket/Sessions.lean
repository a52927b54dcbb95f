import Kpacket.Lengths
import Kpacket.MonitorStore

/-!
# Sessions one after the other

A relay names its session after the time of its construction. Over any number of relays the session
and the message id together tell all messages of the PUB stream apart (`identities_nodup`). The
monitor looks at the message ids alone, and takes the start of a new session for a gap
(`gap_of_reload`).
-/

namespace Kpacket

open Lts

/-- `session_uuid_` of a relay that is constructed at this time. -/
def sessionUuidAt (constructed : Int64) : Bytes := JsonText.writeInt constructed.toInt

theorem sessionUuidAt_injective : Function.Injective sessionUuidAt := by
  intro a b h
  have hread : ∀ c : Int64, JsonText.read (sessionUuidAt c) = some (.integer c.toInt) :=
    fun c => JsonText.read_write (JsonText.write.eq_3 c.toInt) trivial
  have heq := (hread a).symm.trans ((congrArg JsonText.read h).trans (hread b))
  exact Int64.toInt_inj.mp (Json.integer.inj (Option.some.inj heq))

/-- A relay from its construction on. -/
structure RelaySession where
  constructed : Int64
  env : Env
  tr : List Label
  s : System
  run : Run (System.step env) {} tr s
  lawful : LawfulDump env.json.dump
  named : env.sessionUuid = sessionUuidAt constructed

/-- What a receiver reads of a message to tell it from others. -/
def identity? : List Bytes → Option (Bytes × Json)
  | _ :: text :: _ => do
    let j ← JsonText.read text
    return (← getText j (lit "session_uuid"), ← j.lookup (lit "message_id"))
  | _ => none

theorem identity_message {env : Env} (hd : LawfulDump env.json.dump) {packet : PacketInfo}
    {messageId : UInt64} {frames : List Bytes} (h : message env packet messageId = .ok frames) :
    identity? frames = some (env.sessionUuid, .integer messageId.toNat) := by
  have hp := plain_jsonMsg env packet messageId
  have huuid := lookup_sessionUuid env packet messageId
  have hid := lookup_messageId env packet messageId
  rcases framed_of_message h with ⟨-, ht⟩ | ⟨-, ht⟩
  · simp only [identity?, hd.read hp ht, getText, huuid, hid, Option.bind_eq_bind, Option.bind_some,
      Option.pure_def]
  · have hm : (metaOf (jsonMsg env packet messageId)).Plain := (hp.erase _).erase _
    rw [← lookup_metaOf_of_ne (by decide) (by decide)] at huuid hid
    simp only [identity?, List.cons_append, hd.read hm ht, getText, huuid, hid, Option.bind_eq_bind,
      Option.bind_some, Option.pure_def]

/-- The identities of the messages of a session. -/
def RelaySession.identities (x : RelaySession) : List (Option (Bytes × Json)) :=
  (PubStream.sent x.tr).map fun m => identity? m.frames

theorem RelaySession.identities_eq (x : RelaySession) : x.identities =
    (PubStream.sent x.tr).map fun m =>
      some (sessionUuidAt x.constructed, .integer m.messageId.toNat) := by
  refine List.map_congr_left fun m hm => ?_
  rw [identity_message x.lawful (PubStream.message_of_sent x.run m hm), x.named]

theorem RelaySession.nodup (x : RelaySession)
    (hlt : (PubStream.taken x.tr).length < 2 ^ 64) : x.identities.Nodup := by
  have hinc := (PubStream.accounted x.run).increasing hlt
  rw [x.identities_eq, List.Nodup, List.pairwise_map]
  refine (List.pairwise_map.mp hinc).imp ?_
  intro m m' hlt heq
  have hid : (m.messageId.toNat : Int) = m'.messageId.toNat := by
    simpa using heq
  exact absurd (UInt64.lt_iff_toNat_lt.mp hlt) (by omega)

/-- Of all messages that relays have ever sent no two are the same, if the relays were constructed
at different times. -/
theorem identities_nodup {xs : List RelaySession} (h : (xs.map RelaySession.constructed).Nodup)
    (hlt : ∀ x ∈ xs, (PubStream.taken x.tr).length < 2 ^ 64) :
    (xs.flatMap RelaySession.identities).Nodup := by
  rw [List.Nodup, List.pairwise_flatMap]
  refine ⟨fun x hx => x.nodup (hlt x hx), (List.pairwise_map.mp h).imp ?_⟩
  rintro x y hne i hi j hj rfl
  rw [x.identities_eq] at hi
  rw [y.identities_eq] at hj
  obtain ⟨m, -, rfl⟩ := List.mem_map.mp hi
  obtain ⟨m', -, heq⟩ := List.mem_map.mp hj
  exact hne (sessionUuidAt_injective (congrArg Prod.fst (Option.some.inj heq)).symm)

theorem session_login (c : Int64) (hu : IsUtf8 (sessionUuidAt c)) : ∃ x : RelaySession,
    x.constructed = c ∧ PubStream.taken x.tr = [loginPacket] ∧ x.identities.length = 1 := by
  let env : Env := { defaultEnv id with sessionUuid := sessionUuidAt c }
  obtain ⟨frames, hm⟩ := message_ok env loginPacket 1 (lawfulDump_defaultEnv id)
    (by decide) (by decide) (show IsUtf8 (lit "0.1") by decide) hu
  have hr := (Run.of_exec (System.exec_Initialize env (s := {}) rfl rfl ZmqRelay.idle_new rfl
    (fun _ => false) 4)).append (Run.of_exec (System.exec_call env
      (s := { relay := System.startedRelay }) rfl (i := 0) rfl loginPacket rfl rfl))
  have hr := hr.append (Run.of_exec (System.exec_publish env loginPacket [] rfl rfl rfl rfl hm))
  exact ⟨⟨c, env, _, _, hr, lawfulDump_defaultEnv id, rfl⟩, rfl, rfl, List.length_map _⟩

/-- Two relays that were constructed a millisecond apart. -/
theorem identities_nodup_two : ∃ xs : List RelaySession,
    (xs.flatMap RelaySession.identities).Nodup ∧
      (xs.flatMap RelaySession.identities).length = 2 := by
  obtain ⟨x, hx, htx, hlx⟩ := session_login 1700000000000 (by decide)
  obtain ⟨y, hy, hty, hly⟩ := session_login 1700000000001 (by decide)
  refine ⟨[x, y], identities_nodup (by simp [hx, hy]) ?_, by simp [hlx, hly]⟩
  intro z hz
  rcases List.mem_pair.mp hz with rfl | rfl
  · rw [htx]; decide
  · rw [hty]; decide

/-! ### A relay that is loaded again -/

section

variable {env env' : Env} {lib : MonitorLibrary} {tr tr' : List Label} {s s' : System}

theorem log_reload (hp : Reads env lib) (hp' : Reads env' lib) (h : Run (System.step env) {} tr s)
    (h' : Run (System.step env') {} tr' s') (arrives : Nat → Bool) {arrives' : Nat → Bool}
    {b : Nat × SentMessage} (hb : b ∈ PubStream.delivered arrives' tr') :
    lib.log ((PubStream.delivered arrives tr ++ [b]).map fun d => d.2.frames) =
      (PubStream.delivered arrives tr).map (fun d => readingOf env d.2.packet d.2.messageId) ++
        [readingOf env' b.2.packet b.2.messageId] := by
  have hread : ∀ x ∈ (PubStream.delivered arrives tr).map (fun d =>
      (d.2.frames, readingOf env d.2.packet d.2.messageId)) ++
        [(b.2.frames, readingOf env' b.2.packet b.2.messageId)],
      lib.readFrames x.1 = .done (some x.2) := by
    intro x hx
    rcases List.mem_append.mp hx with hx | hx
    · obtain ⟨d, hd, rfl⟩ := List.mem_map.mp hx
      exact readFrames_message hp (PubStream.delivered_place h hd).2.2
    · obtain rfl := List.mem_singleton.mp hx
      exact readFrames_message hp' (PubStream.delivered_place h' hb).2.2
  simpa [Function.comp_def] using log_of_readings hread

/-- The first row of the new session is marked, except after as many lost packets as the old session
had up to its last message. -/
theorem gap_of_reload (hp : Reads env lib) (hp' : Reads env' lib)
    (h : Run (System.step env) {} tr s) (h' : Run (System.step env') {} tr' s')
    (hlt : (PubStream.taken tr).length < 2 ^ 64) (hlt' : (PubStream.taken tr').length < 2 ^ 64)
    {arrives arrives' : Nat → Bool} {pre post : List (Nat × SentMessage)} {a b : Nat × SentMessage}
    (hd : PubStream.delivered arrives tr = pre ++ [a])
    (hd' : PubStream.delivered arrives' tr' = b :: post) :
    ∃ row rest, (subscriberThread lib ((PubStream.delivered arrives tr ++ [b]).map
        fun d => d.2.frames) {}).rows = row :: rest ∧
      row.remoteMsgId = b.2.messageId ∧ (row.gap = true ↔ b.1 ≠ a.1 + 1) := by
  have ha : a ∈ PubStream.delivered arrives tr := by rw [hd]; simp
  have hb : b ∈ PubStream.delivered arrives' tr' := by rw [hd']; simp
  obtain ⟨hpa, hida, -⟩ := PubStream.delivered_place h ha
  obtain ⟨hpb, hidb, -⟩ := PubStream.delivered_place h' hb
  have hna := PubStream.toNat_messageId hlt hpa hida
  have hnb := PubStream.toNat_messageId hlt' hpb hidb
  have hla := (List.getElem?_eq_some_iff.mp hpa).1
  have hlb := (List.getElem?_eq_some_iff.mp hpb).1
  have hlog := log_reload hp hp' h h' arrives hb
  generalize hold : (PubStream.delivered arrives tr).map
    (fun d => readingOf env d.2.packet d.2.messageId) = old at hlog
  have hlast : lastId old = a.2.messageId := by
    rw [← hold, hd, List.map_append, List.map_singleton, lastId_snoc]
    exact if_pos fun h0 => by
      have h0 : a.2.messageId = 0 := h0
      rw [h0] at hna
      cases hna
  have hs := subscriberThread_shows lib
    ((PubStream.delivered arrives tr ++ [b]).map fun d => d.2.frames)
  have hrows := hs.rows
  rw [hlog, rowsOf_snoc, List.reverse_append] at hrows
  exact ⟨_, _, hrows, rfl, rowAfter_gap (by rw [hlast, hna]) hnb (by omega) (by omega)⟩

end

/-- A packet before the relay is loaded again and one after: none is lost, and the second row is
marked. -/
theorem gap_of_reload_login : ∃ tr s tr' s' a b,
    Run (System.step PubStream.streamingEnv) {} tr s ∧
    Run (System.step PubStream.streamingEnv) {} tr' s' ∧
    PubStream.delivered (fun _ => true) tr = [a] ∧ PubStream.delivered (fun _ => true) tr' = [b] ∧
    ∃ row rest, (subscriberThread PubStream.referenceMonitor [a.2.frames, b.2.frames] {}).rows =
      row :: rest ∧ row.gap = true := by
  obtain ⟨tr, s, h, -, hids, htaken⟩ := PubStream.ready_rounds 1
  have hlt : (PubStream.taken tr).length < 2 ^ 64 := by rw [htaken]; decide
  have hids' : (PubStream.sent tr).map SentMessage.messageId = [1] := hids
  simp only [List.map_eq_cons_iff, List.map_eq_nil_iff] at hids'
  obtain ⟨m, _, hsent, hm, rfl⟩ := hids'
  have hdel : PubStream.delivered (fun _ => true) tr = [(0, m)] := by
    rw [PubStream.delivered_eq h hlt, hsent]
    simp [hm]
  obtain ⟨row, rest, hrows, -, hgap⟩ := gap_of_reload PubStream.reads_referenceMonitor
    PubStream.reads_referenceMonitor h h hlt hlt (hdel.trans (List.nil_append _).symm) hdel
  rw [hdel] at hrows
  exact ⟨tr, s, tr, s, (0, m), (0, m), h, h, hdel, hdel, row, rest, hrows,
    hgap.mpr (Nat.zero_ne_one)⟩

end Kpacket
