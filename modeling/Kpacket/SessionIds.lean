import Kpacket.Callbacks
import Kpacket.Lengths
import Kpacket.TwoStreams

/-!
# Session ids

Every message carries the session id of its packet, those of the PUB stream also the id of the
relay. `sessionIds_eq` reads the session ids of a run off the clock: a packet gets the time of its
own capture, so the messages of a run agree on their session exactly if all packets were captured in
the same millisecond (`oneSession_iff`).
-/

namespace Kpacket

open Lts PacketParser TwoStreams

/-- The packet that a callback makes. -/
def PacketCallback.captured (c : PacketCallback) : Option PacketInfo :=
  createPacketInfo c.junk c.junkHeader c.now c.id c.size c.data c.direction c.injected c.blocked
    c.sizeChunk c.dataChunk

namespace SessionIds

/-- `metadata.session_id` -/
def sessionIdOf (j : Json) : Option Bytes :=
  (j.lookup (lit "metadata")).bind fun md => getText md (lit "session_id")

/-- The session ids of the messages of a run, of the PUB stream and then of the PUSH stream. -/
def sessionIds (tr : List Label) : List (Option Bytes) :=
  (PubStream.sent tr).map (fun m => (receive m.frames).bind fun c => sessionIdOf c.fields) ++
    (pushTexts tr).map fun text => (JsonText.read text).bind sessionIdOf

/-- `session_uuid`, which only the messages of the PUB stream have. -/
def sessionUuids (tr : List Label) : List (Option Bytes) :=
  (PubStream.sent tr).map fun m =>
    (receive m.frames).bind fun c => getText c.fields (lit "session_uuid")

/-- The calls behind these messages. -/
def published (tr : List Label) : List Call := pubCalls tr ++ pushCalls tr

/-- Any two are there and the same. -/
def Same (ids : List (Option Bytes)) : Prop := ∀ a ∈ ids, ∀ b ∈ ids, ∃ i, a = some i ∧ b = some i

/-- The session ids group the messages of a run as the ids of the relay do. -/
structure OneSession (tr : List Label) : Prop where
  ids : Same (sessionIds tr)
  uuids : Same (sessionUuids tr)

theorem same_map_iff {α : Type} {f : α → Bytes} {l : List α} :
    Same (l.map fun x => some (f x)) ↔ ∀ x ∈ l, ∀ y ∈ l, f x = f y := by
  constructor
  · intro h x hx y hy
    obtain ⟨i, hi, hj⟩ := h _ (List.mem_map_of_mem hx) _ (List.mem_map_of_mem hy)
    exact (Option.some.inj hi).trans (Option.some.inj hj).symm
  · intro h a ha b hb
    obtain ⟨x, hx, rfl⟩ := List.mem_map.mp ha
    obtain ⟨y, hy, rfl⟩ := List.mem_map.mp hb
    exact ⟨f x, rfl, congrArg some (h x hx y hy).symm⟩

/-! ### The id of a packet -/

/-- The session id of a packet that is captured at `now`. -/
def sessionIdAt (now : Int64) : Bytes := lit "session_" ++ decimal now.toUInt64.toNat

theorem sessionIdAt_injective : Function.Injective sessionIdAt := by
  intro a b h
  have hdecimal : decimal a.toUInt64.toNat = decimal b.toUInt64.toNat := List.append_cancel_left h
  have hnat : a.toUInt64.toNat = b.toUInt64.toNat := by
    rw [← ofDigits_decimal a.toUInt64.toNat, hdecimal, ofDigits_decimal]
  rcases a with ⟨a⟩
  rcases b with ⟨b⟩
  exact congrArg Int64.ofUInt64 (UInt64.toNat_inj.mp hnat)

theorem sessionId_captured {c : PacketCallback} {packet : PacketInfo}
    (h : c.captured = some packet) : packet.sessionId = sessionIdAt c.now := by
  obtain ⟨-, -, syncCount, rfl⟩ := createPacketInfo_eq_some h
  rfl

variable {env : Env} {s : System} {tr : List Label}

theorem sessionId_sent (hd : LawfulDump env.json.dump) {packet : PacketInfo} {messageId : UInt64}
    {frames : List Bytes} (h : message env packet messageId = .ok frames) :
    ((receive frames).bind fun c => sessionIdOf c.fields) = some packet.sessionId := by
  obtain ⟨c, hr, hc⟩ := receive_message hd h
  rw [hr, Option.bind_some, sessionIdOf, hc.fields (lit "metadata") (by decide)]
  rfl

theorem sessionId_text (hd : LawfulDump env.json.dump) {packet : PacketInfo} {text : Bytes}
    (h : env.json.dump (toJson packet) = .ok text) :
    (JsonText.read text).bind sessionIdOf = some packet.sessionId := by
  rw [hd.read (plain_toJson packet) h, Option.bind_some, sessionIdOf, lookup_toJson,
    if_neg fun hk => absurd hk.1 (by decide)]
  rfl

/-! ### The ids of a run -/

theorem sessionIds_eq (hd : LawfulDump env.json.dump) (h : Run (System.step env) {} tr s)
    {callback : Call → PacketCallback}
    (hc : ∀ c packet, argument tr c = some packet → (callback c).captured = some packet) :
    sessionIds tr = (published tr).map fun c => some (sessionIdAt (callback c).now) := by
  rw [sessionIds, ← pubStream_sent h, ← pushStream_texts h, published, pubCalls, pushCalls]
  simp only [List.map_append, List.map_map]
  congr 1
  · refine List.map_congr_left fun ⟨c, m⟩ hm => ?_
    obtain ⟨harg, hmsg⟩ := pubStream_packet h hm
    exact (sessionId_sent hd hmsg).trans (congrArg some (sessionId_captured (hc c _ harg)))
  · refine List.map_congr_left fun ⟨c, text⟩ hm => ?_
    obtain ⟨packet, harg, htext⟩ := pushStream_packet h hm
    exact (sessionId_text hd htext).trans (congrArg some (sessionId_captured (hc c _ harg)))

theorem sessionUuids_eq (hd : LawfulDump env.json.dump) (h : Run (System.step env) {} tr s) :
    sessionUuids tr = (PubStream.sent tr).map fun _ => some env.sessionUuid := by
  refine List.map_congr_left fun m hm => ?_
  obtain ⟨x, hr, hx⟩ := receive_message hd (PubStream.message_of_sent h m hm)
  rw [hr, Option.bind_some, getText, hx.sessionUuid]

/-- In every run whose packets come from the callbacks the session ids of the messages agree, as
those of the relay always do, exactly if all published packets were captured at one clock reading.
-/
theorem oneSession_iff (hd : LawfulDump env.json.dump) (h : Run (System.step env) {} tr s)
    {callback : Call → PacketCallback}
    (hc : ∀ c packet, argument tr c = some packet → (callback c).captured = some packet) :
    OneSession tr ↔
      ∀ c ∈ published tr, ∀ d ∈ published tr, (callback c).now = (callback d).now := by
  have hids : Same (sessionIds tr) ↔
      ∀ c ∈ published tr, ∀ d ∈ published tr, (callback c).now = (callback d).now := by
    rw [sessionIds_eq hd h hc, same_map_iff]
    simp only [sessionIdAt_injective.eq_iff]
  have huuids : Same (sessionUuids tr) := by
    rw [sessionUuids_eq hd h, same_map_iff]
    exact fun _ _ _ _ => rfl
  exact ⟨fun hs => hids.mp hs.ids, fun hs => ⟨hids.mpr hs, huuids⟩⟩

/-- The callback for a login packet at some time, with junk of no consequence. -/
def loginCallback (now : Int64) : PacketCallback where
  direction := .outgoing
  id := 0x000A
  size := 4
  data := [0x0A, 0x02, 0x39, 0x30]
  modified := [0x0A, 0x02, 0x39, 0x30]
  sizeChunk := 2
  dataChunk := some [1, 2]
  injected := false
  blocked := false
  junk := loginPacket
  junkHeader := fun _ => 0
  now := now
  thrown := none

def loginAt (now : Int64) : PacketInfo :=
  { loginPacket with timestamp := now.toUInt64, sessionId := sessionIdAt now }

theorem utf8_loginAt (now : Int64) :
    IsUtf8 (loginAt now).name ∧ IsUtf8 (loginAt now).sessionId :=
  ⟨show IsUtf8 loginPacket.name by decide,
    (show IsUtf8 (lit "session_") by decide).append (IsUtf8.decimal _)⟩

def twoLogins (a b : Int64) (c : Call) : PacketCallback :=
  if c.number = 0 then loginCallback a else loginCallback b

theorem twoLogins_captured {a b : Int64} {c : Call} {packet : PacketInfo}
    (h : [loginAt a, loginAt b][c.number]? = some packet) :
    (twoLogins a b c).captured = some packet := by
  rcases c with ⟨thread, _ | _ | number⟩ <;> cases h <;> rfl

/-- Two packets of one millisecond. -/
theorem oneSession_login : ∃ tr s, Run (System.step (defaultEnv id)) {} tr s ∧
    (PubStream.sent tr).length = 2 ∧ (pushTexts tr).length = 2 ∧ OneSession tr := by
  obtain ⟨tr, s, _, _, _, _, h, hsent, hattempts, hcalls, hone⟩ :=
    exists_two (utf8_loginAt 1000) (utf8_loginAt 1000)
  refine ⟨tr, s, h, by rw [hsent]; rfl, by rw [pushTexts, hattempts]; rfl, ?_⟩
  have hc : ∀ c packet, argument tr c = some packet →
      (twoLogins 1000 1000 c).captured = some packet := fun c packet harg =>
    twoLogins_captured (hcalls ▸ argument_of_one hone harg)
  refine (oneSession_iff (lawfulDump_defaultEnv id) h hc).mpr fun c _ d _ => ?_
  simp only [twoLogins, ite_self]

/-- A second packet that is captured a millisecond after the first gets a session id of its own, on
both streams. -/
theorem not_oneSession_later : ∃ tr s, Run (System.step (defaultEnv id)) {} tr s ∧
    (∀ c packet, argument tr c = some packet → (twoLogins 1000 1001 c).captured = some packet) ∧
    sessionUuids tr = [some (lit "1700000000000"), some (lit "1700000000000")] ∧
    sessionIds tr = [some (lit "session_1000"), some (lit "session_1001"),
      some (lit "session_1000"), some (lit "session_1001")] ∧
    ¬ OneSession tr := by
  have hd := lawfulDump_defaultEnv id
  obtain ⟨tr, s, frames, frames', text, text', h, hsent, hattempts, hcalls, hone⟩ :=
    exists_two (utf8_loginAt 1000) (utf8_loginAt 1001)
  have hm := PubStream.message_of_sent h
  rw [hsent, List.forall_mem_cons, List.forall_mem_singleton] at hm
  have hmem : (loginAt 1000, .accepted text) ∈ PushStream.attempts tr := by rw [hattempts]; simp
  have hmem' : (loginAt 1001, .accepted text') ∈ PushStream.attempts tr := by rw [hattempts]; simp
  have ht := PushStream.text_of_accepted h hmem
  have ht' := PushStream.text_of_accepted h hmem'
  have hids : sessionIds tr = [some (lit "session_1000"), some (lit "session_1001"),
      some (lit "session_1000"), some (lit "session_1001")] := by
    rw [sessionIds, hsent, pushTexts, hattempts]
    simp only [List.map_cons, List.map_nil, List.filterMap_cons, List.filterMap_nil,
      SendOutcome.text?, sessionId_sent hd hm.1, sessionId_sent hd hm.2, sessionId_text hd ht,
      sessionId_text hd ht']
    rfl
  refine ⟨tr, s, h,
    fun c packet harg => twoLogins_captured (hcalls ▸ argument_of_one hone harg),
    by rw [sessionUuids_eq hd h, hsent]; rfl, hids, fun hs => ?_⟩
  obtain ⟨i, hi, hj⟩ := hs.ids (some (lit "session_1000")) (by rw [hids]; simp)
    (some (lit "session_1001")) (by rw [hids]; simp)
  cases hi.trans hj.symm

end SessionIds

end Kpacket
