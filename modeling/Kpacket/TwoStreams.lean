import Kpacket.Histories
import Kpacket.PubAttempts
import Kpacket.PushStream

/-!
# The two streams of one caller

A call of `PublishPacket` is known by its thread and its number among the calls of that thread. It
enqueues at most once and is admitted at most once, in the order of the calls (`InOrder`), and both
queues are first in first out, so each message on a stream belongs to one call (`pubStream`,
`pushStream`). `sameStory` says that the two streams agree on the order of the calls of one thread
and on what each message says.
-/

namespace Kpacket

open Lts

structure Call where
  thread : Nat
  number : Nat
deriving DecidableEq

/-- The calls of one thread come in the order of their numbers. -/
def Call.Earlier (c d : Call) : Prop := c.thread = d.thread → c.number < d.number

def CallerEvent.called? : CallerEvent → Option PacketInfo
  | .call packet => some packet
  | _ => none

/-- The packet of the call in progress. -/
def CallerPc.packet? : CallerPc → Option PacketInfo
  | .idle => none
  | .checkRunning packet | .checkSocket packet | .filtering packet | .admitting packet
  | .enqueueing packet => some packet

/-- The call is not past its look at `packet_queue_`. -/
def CallerPc.beforeAdmission : CallerPc → Bool
  | .idle | .enqueueing _ => false
  | _ => true

namespace TwoStreams

/-! ### Calls -/

/-- The packets that thread `i` has called `PublishPacket` with. -/
def calls (i : Nat) (tr : List Label) : List PacketInfo :=
  tr.filterMap (Label.by? i CallerEvent.called?)

/-- The packet of a call. -/
def argument (tr : List Label) (c : Call) : Option PacketInfo := (calls c.thread tr)[c.number]?

/-- What a step does for the last call that its thread has begun. -/
def callOf (g : CallerEvent → Option PacketInfo) (tr : List Label) :
    Label → Option (Call × PacketInfo)
  | .caller i e => (g e).map fun packet => (⟨i, (calls i tr).length - 1⟩, packet)
  | _ => none

def made (g : CallerEvent → Option PacketInfo) (tr : List Label) : List (Call × PacketInfo) :=
  history (callOf g) tr

theorem made_snoc (g : CallerEvent → Option PacketInfo) (tr : List Label) (l : Label) :
    made g (tr ++ [l]) = made g tr ++ (callOf g tr l).toList := history_snoc ..

theorem calls_snoc (i : Nat) (tr : List Label) (l : Label) :
    calls i (tr ++ [l]) = calls i tr ++ (l.by? i CallerEvent.called?).toList := filterMap_snoc ..

variable {env : Env} {s s' : System} {tr : List Label}

theorem callerStep_packet {i : Nat} {e : CallerEvent} (h : s.callerStep env i e = some s')
    {packet : PacketInfo} (hp : (s'.callers i).packet? = some packet) :
    e.called? = some packet ∨ e.called? = none ∧ (s.callers i).packet? = some packet := by
  obtain ⟨r, pc, hmove, rfl⟩ := System.callerStep_move h
  rw [System.setCaller_callers_self] at hp
  cases hmove with
  | call => exact .inl hp
  | readRunning _ hpc | readSocket _ hpc =>
    rw [hpc]
    split_ifs at hp
    · exact .inr ⟨rfl, hp⟩
    · cases hp
  | pass _ hpc | admitPacket _ _ hpc | bypass _ hpc =>
    rw [hpc]
    exact .inr ⟨rfl, hp⟩
  | drop | enqueue => cases hp

theorem last_call (h : Run (System.step env) {} tr s) (i : Nat) {packet : PacketInfo}
    (hp : (s.callers i).packet? = some packet) : argument tr ⟨i, (calls i tr).length - 1⟩ =
      some packet := by
  suffices hl : (s.callers i).packet? = some packet → (calls i tr).getLast? = some packet by
    rw [argument, ← List.getLast?_eq_getElem?]
    exact hl hp
  refine h.invariant (I := fun tr s => (s.callers i).packet? = some packet →
    (calls i tr).getLast? = some packet) (by simp [CallerPc.packet?]) fun tr s l s' _ ih hs hp => ?_
  rw [calls_snoc]
  cases l with
  | caller j e =>
    have hc := System.step_caller hs
    by_cases hj : j = i
    · subst hj
      rcases callerStep_packet hc hp with he | ⟨he, hp⟩
      · simp [Label.by?, he]
      · simpa [Label.by?, he] using ih hp
    · rw [System.callerStep_callers hc (Ne.symm hj)] at hp
      simpa [Label.by?, hj] using ih hp
  | _ =>
    rw [System.step_callers hs (by simp)] at hp
    simpa [Label.by?] using ih hp

/-! ### What a call does once -/

/-- `g` is done at most once in a call, with its packet; `before` tells that it may still come. -/
structure Once (env : Env) (g : CallerEvent → Option PacketInfo) (before : CallerPc → Bool) :
    Prop where
  acts : ∀ {s s' : System} {i : Nat} {e : CallerEvent} {packet : PacketInfo},
    s.callerStep env i e = some s' → g e = some packet →
      (s.callers i).packet? = some packet ∧ e.called? = none ∧ before (s.callers i) = true ∧
        before (s'.callers i) = false
  starts : ∀ {s s' : System} {i : Nat} {e : CallerEvent}, s.callerStep env i e = some s' →
    before (s'.callers i) = true →
      before (s.callers i) = true ∨ ∃ packet, e.called? = some packet

theorem once_enqueued (env : Env) :
    Once env CallerEvent.enqueued? fun pc => pc.packet?.isSome where
  acts h hg := by
    obtain ⟨r, pc, hmove, rfl⟩ := System.callerStep_move h
    rw [System.setCaller_callers_self]
    cases hmove with
    | enqueue _ hpc =>
      obtain rfl := Option.some.inj hg
      rw [hpc]
      exact ⟨rfl, rfl, rfl, rfl⟩
    | _ => cases hg
  starts h hb := by
    obtain ⟨packet, hp⟩ := Option.isSome_iff_exists.mp hb
    rcases callerStep_packet h hp with he | ⟨-, hp⟩
    · exact .inr ⟨packet, he⟩
    · exact .inl (Option.isSome_iff_exists.mpr ⟨packet, hp⟩)

theorem once_admitted (env : Env) :
    Once env CallerEvent.admitted? CallerPc.beforeAdmission where
  acts h hg := by
    obtain ⟨r, pc, hmove, rfl⟩ := System.callerStep_move h
    rw [System.setCaller_callers_self]
    cases hmove with
    | admitPacket _ admitted hpc =>
      cases admitted with
      | true =>
        obtain rfl := Option.some.inj hg
        rw [hpc]
        exact ⟨rfl, rfl, rfl, rfl⟩
      | false => cases hg
    | _ => cases hg
  starts h hb := by
    obtain ⟨r, pc, hmove, rfl⟩ := System.callerStep_move h
    rw [System.setCaller_callers_self] at hb
    cases hmove with
    | call packet => exact .inr ⟨packet, rfl⟩
    | readRunning _ hpc | readSocket _ hpc | pass _ hpc | drop _ hpc => rw [hpc]; exact .inl rfl
    | admitPacket | bypass | enqueue => cases hb

/-- The acts of a run come in the order of their calls. -/
structure InOrder (g : CallerEvent → Option PacketInfo) (before : CallerPc → Bool)
    (tr : List Label) (s : System) : Prop where
  ordered : ((made g tr).map Prod.fst).Pairwise Call.Earlier
  begun : ∀ c ∈ made g tr, argument tr c.1 = some c.2
  settled : ∀ c ∈ made g tr, before (s.callers c.1.thread) = true →
    c.1.number + 1 < (calls c.1.thread tr).length

variable {g : CallerEvent → Option PacketInfo} {before : CallerPc → Bool}

theorem argument_snoc {c : Call} {packet : PacketInfo} (h : argument tr c = some packet)
    (l : Label) : argument (tr ++ [l]) c = some packet := by
  rw [argument, calls_snoc, List.getElem?_append_left (List.getElem?_eq_some_iff.mp h).1]
  exact h

theorem InOrder.skip {l : Label} (h : InOrder g before tr s) (hl : callOf g tr l = none)
    (hsettled : ∀ c ∈ made g tr, before (s'.callers c.1.thread) = true →
      c.1.number + 1 < (calls c.1.thread (tr ++ [l])).length) :
    InOrder g before (tr ++ [l]) s' := by
  have hm : made g (tr ++ [l]) = made g tr := by rw [made_snoc, hl]; exact List.append_nil _
  refine ⟨?_, fun c hc => ?_, ?_⟩
  · rw [hm]
    exact h.ordered
  · rw [hm] at hc
    exact argument_snoc (h.begun c hc) l
  · rw [hm]
    exact hsettled

theorem inOrder (hg : Once env g before) (h : Run (System.step env) {} tr s) :
    InOrder g before tr s := by
  refine h.invariant (I := InOrder g before)
    ⟨.nil, by simp [made, history], by simp [made, history]⟩ fun tr s l s' hr ih hs => ?_
  cases l with
  | caller i e =>
    have hc := System.step_caller hs
    -- what has been done stays apart from the call that is open now
    have hsettled : ∀ c ∈ made g tr, before (s'.callers c.1.thread) = true →
        c.1.number + 1 < (calls c.1.thread (tr ++ [.caller i e])).length := by
      intro c hmem hb
      rw [calls_snoc, List.length_append]
      by_cases hi : i = c.1.thread
      · subst hi
        have hlt := (List.getElem?_eq_some_iff.mp (ih.begun c hmem)).1
        rcases hg.starts hc hb with hb | ⟨packet, he⟩
        · exact Nat.lt_of_lt_of_le (ih.settled c hmem hb) (Nat.le_add_right ..)
        · simpa [Label.by?, he] using hlt
      · rw [System.callerStep_callers hc (Ne.symm hi)] at hb
        exact Nat.lt_of_lt_of_le (ih.settled c hmem hb) (Nat.le_add_right ..)
    cases he : g e with
    | none => exact ih.skip (by simp [callOf, he]) hsettled
    | some packet =>
      obtain ⟨hp, hcalled, hb, hb'⟩ := hg.acts hc he
      have hlast := last_call hr i hp
      have hm : made g (tr ++ [.caller i e]) =
          made g tr ++ [(⟨i, (calls i tr).length - 1⟩, packet)] := by
        rw [made_snoc, callOf, he]
        rfl
      refine ⟨?_, fun c hmem => ?_, fun c hmem hbc => ?_⟩
      · rw [hm, List.map_append, List.pairwise_append]
        refine ⟨ih.ordered, List.pairwise_singleton .., ?_⟩
        intro c hc d hd hthread
        obtain ⟨c, hmem, rfl⟩ := List.mem_map.mp hc
        obtain rfl := List.mem_singleton.mp hd
        have hsettled := ih.settled c hmem
        rw [show c.1.thread = i from hthread] at hsettled
        have := hsettled hb
        show c.1.number < (calls i tr).length - 1
        omega
      · rw [hm, List.mem_append, List.mem_singleton] at hmem
        rcases hmem with hmem | rfl
        · exact argument_snoc (ih.begun c hmem) _
        · exact argument_snoc hlast _
      · rw [hm, List.mem_append, List.mem_singleton] at hmem
        rcases hmem with hmem | rfl
        · exact hsettled c hmem hbc
        · rw [hb'] at hbc
          cases hbc
  | _ =>
    refine ih.skip rfl fun c hmem hb => ?_
    rw [System.step_callers hs (by simp)] at hb
    simpa [calls_snoc, Label.by?] using ih.settled c hmem hb

/-! ### The streams -/

def SendOutcome.text? : SendOutcome → Option Bytes
  | .accepted text => some text
  | _ => none

/-- The messages handed to the PUB socket, each with its call: the n-th packet that is tried was
enqueued by the n-th call that enqueues. -/
def pubStream (tr : List Label) : List (Call × SentMessage) :=
  carry Prod.snd ((made CallerEvent.enqueued? tr).map Prod.fst) (PubStream.tried tr)

/-- The messages that the PUSH socket accepted, each with its call. -/
def pushStream (tr : List Label) : List (Call × Bytes) :=
  carry (fun a => SendOutcome.text? a.2) ((made CallerEvent.admitted? tr).map Prod.fst)
    (PushStream.attempts tr)

/-- The texts of these messages. -/
def pushTexts (tr : List Label) : List Bytes :=
  (PushStream.attempts tr).filterMap fun a => SendOutcome.text? a.2

def pubCalls (tr : List Label) : List Call := (pubStream tr).map Prod.fst

def pushCalls (tr : List Label) : List Call := (pushStream tr).map Prod.fst

theorem made_enqueued (tr : List Label) :
    (made CallerEvent.enqueued? tr).map Prod.snd = PubStream.pushed tr := by
  refine map_history (fun tr l => ?_) tr
  cases l with
  | caller i e => cases he : e.enqueued? <;> simp [callOf, Label.pushed?, he]
  | _ => rfl

theorem made_admitted (tr : List Label) :
    (made CallerEvent.admitted? tr).map Prod.snd = PushStream.admitted tr := by
  refine map_history (fun tr l => ?_) tr
  cases l with
  | caller i e => cases he : e.admitted? <;> simp [callOf, Label.admitted?, he]
  | _ => rfl

theorem argument_of_place (h : InOrder g before tr s) {out rest : List PacketInfo}
    (hq : (made g tr).map Prod.snd = out ++ rest) {k : Nat} {c : Call} {packet : PacketInfo}
    (hc : ((made g tr).map Prod.fst)[k]? = some c) (ho : out[k]? = some packet) :
    argument tr c = some packet := by
  rw [List.getElem?_map, Option.map_eq_some_iff] at hc
  obtain ⟨d, hd, rfl⟩ := hc
  have hp : (out ++ rest)[k]? = some d.2 := by
    rw [← hq, List.getElem?_map, hd]
    rfl
  rw [List.getElem?_append_left (List.getElem?_eq_some_iff.mp ho).1, ho] at hp
  rw [h.begun d (List.mem_of_getElem? hd), hp]

theorem pubStream_packet (h : Run (System.step env) {} tr s) {c : Call} {m : SentMessage}
    (hm : (c, m) ∈ pubStream tr) :
    argument tr c = some m.packet ∧ message env m.packet m.messageId = .ok m.frames := by
  obtain ⟨k, ⟨packet, _⟩, hc, ht, rfl⟩ := mem_carry hm
  have hmem := List.mem_of_getElem? ht
  obtain rfl := PubStream.packet_of_tried hmem
  have hq := (made_enqueued tr).trans (PubStream.pushed_eq h)
  rw [PubStream.taken_eq_tried h, List.append_assoc] at hq
  refine ⟨argument_of_place (inOrder (once_enqueued env) h) hq hc ?_,
    PubStream.message_of_sent h m ?_⟩
  · rw [List.getElem?_map, ht]
    rfl
  · rw [PubStream.sent_eq_tried]
    exact List.mem_filterMap.mpr ⟨_, hmem, rfl⟩

theorem pushStream_packet (h : Run (System.step env) {} tr s) {c : Call} {text : Bytes}
    (hm : (c, text) ∈ pushStream tr) :
    ∃ packet, argument tr c = some packet ∧ env.json.dump (toJson packet) = .ok text := by
  obtain ⟨k, ⟨packet, outcome⟩, hc, ht, ho⟩ := mem_carry hm
  cases outcome with
  | accepted =>
    cases ho
    have hq := (made_admitted tr).trans (PushStream.admitted_eq h)
    rw [List.append_assoc] at hq
    refine ⟨packet, argument_of_place (inOrder (once_admitted env) h) hq hc ?_,
      PushStream.text_of_accepted h (List.mem_of_getElem? ht)⟩
    rw [List.getElem?_map, ht]
    rfl
  | _ => cases ho

theorem pubStream_sent (h : Run (System.step env) {} tr s) :
    (pubStream tr).map Prod.snd = PubStream.sent tr := by
  rw [PubStream.sent_eq_tried, pubStream]
  refine carry_results _ ?_
  have hq := congrArg List.length ((made_enqueued tr).trans (PubStream.pushed_eq h))
  rw [PubStream.taken_eq_tried h] at hq
  simp only [List.length_map, List.length_append] at hq ⊢
  omega

theorem pushStream_texts (h : Run (System.step env) {} tr s) :
    (pushStream tr).map Prod.snd = pushTexts tr := by
  refine carry_results _ ?_
  have hq := congrArg List.length ((made_admitted tr).trans (PushStream.admitted_eq h))
  simp only [List.length_map, List.length_append] at hq ⊢
  omega

theorem pubCalls_ordered (h : Run (System.step env) {} tr s) :
    (pubCalls tr).Pairwise Call.Earlier :=
  (inOrder (once_enqueued env) h).ordered.sublist (carry_tags_sublist ..)

theorem pushCalls_ordered (h : Run (System.step env) {} tr s) :
    (pushCalls tr).Pairwise Call.Earlier :=
  (inOrder (once_admitted env) h).ordered.sublist (carry_tags_sublist ..)

theorem nodup_of_ordered {l : List Call} (h : l.Pairwise Call.Earlier) : l.Nodup :=
  h.imp fun {c d} hcd he => by
    subst he
    exact Nat.lt_irrefl _ (hcd rfl)

theorem call_mem {c : Call} {packet : PacketInfo} (h : argument tr c = some packet) :
    Label.caller c.thread (.call packet) ∈ tr := by
  obtain ⟨l, hl, hp⟩ := List.mem_filterMap.mp (List.mem_of_getElem? h)
  cases l with
  | caller i e =>
    simp only [Label.by?, Option.ite_none_right_eq_some] at hp
    obtain ⟨rfl, hp⟩ := hp
    cases e with
    | call => cases hp; exact hl
    | _ => cases hp
  | _ => cases hp

theorem argument_of_one {thread : Nat} (hone : ∀ i e, Label.caller i e ∈ tr → i = thread) {c : Call}
    {packet : PacketInfo} (h : argument tr c = some packet) :
    (calls thread tr)[c.number]? = some packet := by
  rwa [argument, hone _ _ (call_mem h)] at h

/-- The keys that only a message of the PUB stream has. -/
def strip (j : Json) : Json :=
  ((j.erase (lit "version")).erase (lit "session_uuid")).erase (lit "message_id")

theorem strip_jsonMsg (env : Env) (packet : PacketInfo) (messageId : UInt64) :
    strip (jsonMsg env packet messageId) = toJson packet := by
  have hp : (strip (jsonMsg env packet messageId)).Plain :=
    (((plain_jsonMsg env packet messageId).erase _).erase _).erase _
  have ho : (strip (jsonMsg env packet messageId)).isObject = true := by
    simp only [strip, Json.isObject_erase, isObject_jsonMsg]
  have hnone : ∀ k ∈ [lit "version", lit "session_uuid", lit "message_id"],
      (toJson packet).lookup k = none := by
    intro k hk
    simp only [List.mem_cons, List.not_mem_nil, or_false] at hk
    rw [lookup_toJson]
    rcases hk with rfl | rfl | rfl
    all_goals rw [if_neg (fun h => absurd h.1 (by decide))]; rfl
  refine hp.ext (plain_toJson packet) ho (isObject_toJson packet) fun k => ?_
  simp only [strip, jsonMsg, Json.lookup_erase, Json.lookup_set, Json.isObject_set,
    isObject_toJson]
  simp only [List.mem_cons, List.not_mem_nil, or_false, forall_eq_or_imp, forall_eq] at hnone
  obtain ⟨h1, h2, h3⟩ := hnone
  split_ifs with hi hs hv
  · rw [hi, h3]
  · rw [hs, h2]
  · rw [hv, h1]
  · rfl

theorem json_of_sent (hd : LawfulDump env.json.dump) {packet : PacketInfo} {messageId : UInt64}
    {frames : List Bytes} (h : message env packet messageId = .ok frames) :
    ∃ topic text, message (env.withRaw false) packet messageId = .ok [topic, text] ∧
      JsonText.read text = some (jsonMsg env packet messageId) ∧
      (env.config.pubUseMultipartRaw = false → frames = [topic, text]) ∧
      (env.config.pubUseMultipartRaw = true →
        rebuild frames = some (jsonMsg env packet messageId)) := by
  have hp := plain_jsonMsg env packet messageId
  rcases framed_of_message h with ⟨hraw, ht⟩ | ⟨hraw, ht⟩
  · refine ⟨_, _, message_json env packet messageId ht, hd.read hp ht, fun _ => rfl, fun hr => ?_⟩
    rw [hraw] at hr
    cases hr
  · -- what can be dumped without the payload can be dumped with it
    have hm : (metaOf (jsonMsg env packet messageId)).Plain := (hp.erase _).erase _
    have hu := (utf8_metaOf_iff env packet messageId).mp (hd.utf8 hm ht)
    obtain ⟨text, ht'⟩ := hd.ok hp hu
    refine ⟨_, text, message_json env packet messageId ht', hd.read hp ht', fun hr => ?_,
      fun _ => rebuild_raw env packet messageId (hd.read hm ht)⟩
    rw [hraw] at hr
    cases hr

/-- What the two streams have to do with each other. -/
structure SameStory (env : Env) (tr : List Label) : Prop where
  pubPacket : ∀ c m, (c, m) ∈ pubStream tr → argument tr c = some m.packet
  pushPacket : ∀ c text, (c, text) ∈ pushStream tr → ∃ packet, argument tr c = some packet ∧
    env.json.dump (toJson packet) = .ok text
  pubOnce : (pubCalls tr).Nodup
  pushOnce : (pushCalls tr).Nodup
  order : ∀ p q, p ≠ q → p ∈ pubCalls tr → q ∈ pubCalls tr → p ∈ pushCalls tr →
    q ∈ pushCalls tr → ([p, q].Sublist (pubCalls tr) ↔ [p, q].Sublist (pushCalls tr))
  content : ∀ c m text, (c, m) ∈ pubStream tr → (c, text) ∈ pushStream tr →
    ∃ topic jsonText j, message (env.withRaw false) m.packet m.messageId = .ok [topic, jsonText] ∧
      JsonText.read jsonText = some j ∧ JsonText.read text = some (strip j) ∧
      (env.config.pubUseMultipartRaw = false → m.frames = [topic, jsonText]) ∧
      (env.config.pubUseMultipartRaw = true → rebuild m.frames = some j)

/-- Two calls of one thread that are on both streams are in the same order on both. -/
theorem order_of_thread (h : Run (System.step env) {} tr s) {p q : Call} (ht : p.thread = q.thread)
    (hne : p ≠ q) (hp : p ∈ pubCalls tr) (hq : q ∈ pubCalls tr) (hp' : p ∈ pushCalls tr)
    (hq' : q ∈ pushCalls tr) :
    [p, q].Sublist (pubCalls tr) ↔ [p, q].Sublist (pushCalls tr) := by
  refine sublist_pair_congr (pubCalls_ordered h) (pushCalls_ordered h) (fun hpq hqp => ?_) hp hq hp'
    hq' hne
  exact Nat.lt_asymm (hpq ht) (hqp ht.symm)

/-- With one thread calling `PublishPacket` no call is twice on a stream, two calls that are on both
are in the same order on both, and the message of a call on the PUSH stream is its JSON-only message
on the PUB stream without the three keys that are added there. -/
theorem sameStory (hd : LawfulDump env.json.dump) (h : Run (System.step env) {} tr s) {thread : Nat}
    (hone : ∀ i e, Label.caller i e ∈ tr → i = thread) : SameStory env tr := by
  have hthread : ∀ c ∈ pubCalls tr, c.thread = thread := by
    intro c hc
    obtain ⟨⟨c, m⟩, hm, rfl⟩ := List.mem_map.mp hc
    exact hone _ _ (call_mem (pubStream_packet h hm).1)
  refine ⟨fun c m hm => (pubStream_packet h hm).1, fun c text hm => pushStream_packet h hm,
    nodup_of_ordered (pubCalls_ordered h), nodup_of_ordered (pushCalls_ordered h),
    fun p q hne hp hq => ?_, fun c m text hm hm' => ?_⟩
  · exact order_of_thread h ((hthread p hp).trans (hthread q hq).symm) hne hp hq
  · obtain ⟨hc, hmsg⟩ := pubStream_packet h hm
    obtain ⟨packet, hc', htext⟩ := pushStream_packet h hm'
    obtain rfl : m.packet = packet := Option.some.inj (hc.symm.trans hc')
    obtain ⟨topic, jsonText, hjson, hread, hf, hr⟩ := json_of_sent hd hmsg
    refine ⟨topic, jsonText, _, hjson, hread, ?_, hf, hr⟩
    rw [strip_jsonMsg]
    exact hd.read (plain_toJson _) htext

theorem exists_two {p q : PacketInfo} (hp : IsUtf8 p.name ∧ IsUtf8 p.sessionId)
    (hq : IsUtf8 q.name ∧ IsUtf8 q.sessionId) : ∃ tr s frames frames' text text',
    Run (System.step (defaultEnv id)) {} tr s ∧
      PubStream.sent tr = [⟨p, 1, frames⟩, ⟨q, 2, frames'⟩] ∧
      PushStream.attempts tr = [(p, .accepted text), (q, .accepted text')] ∧
      calls 0 tr = [p, q] ∧ ∀ i e, Label.caller i e ∈ tr → i = 0 := by
  have hd := lawfulDump_defaultEnv id
  have htext : ∀ r : PacketInfo, IsUtf8 r.name ∧ IsUtf8 r.sessionId →
      ∃ text, sendable (defaultEnv id) r (.accepted text) = true := by
    intro r hr
    obtain ⟨text, ht⟩ := hd.ok (plain_toJson r) (utf8_toJson hr.1 hr.2)
    exact ⟨text, decide_eq_true (by rw [ht]; rfl)⟩
  obtain ⟨frames, hm⟩ := message_ok (defaultEnv id) p 1 hd hp.1 hp.2 (by decide) (by decide)
  obtain ⟨frames', hm'⟩ := message_ok (defaultEnv id) q 2 hd hq.1 hq.2 (by decide) (by decide)
  obtain ⟨text, hsend⟩ := htext p hp
  obtain ⟨text', hsend'⟩ := htext q hq
  have hstart := Run.of_exec (System.exec_started id none)
  have hcall := Run.of_exec (System.exec_call (defaultEnv id)
    (s := { relay := System.startedRelay }) rfl (i := 0) rfl p rfl rfl)
  have hcall' := Run.of_exec (System.exec_call (defaultEnv id)
    (s := { relay := System.startedRelay.publishPacket {} p }) rfl (i := 0) rfl q rfl rfl)
  have hr := (hstart.append hcall).append hcall'
  have hr := hr.append
    (Run.of_exec (System.exec_publish (defaultEnv id) p [q] rfl rfl rfl rfl hm))
  have hr := hr.append
    (Run.of_exec (System.exec_publish (defaultEnv id) q [] rfl rfl rfl rfl hm'))
  have hr := hr.append
    (Run.of_exec (System.exec_push (defaultEnv id) p [q] rfl rfl rfl rfl hsend))
  have hr := hr.append
    (Run.of_exec (System.exec_push (defaultEnv id) q [] rfl rfl rfl rfl hsend'))
  refine ⟨_, _, frames, frames', text, text', hr, rfl, rfl, rfl, fun i e hl => (?_ : i = 0)⟩
  simp only [List.mem_append, List.mem_map, Label.caller.injEq, reduceCtorEq, and_false,
    exists_false, false_or, or_false] at hl
  rcases hl with ⟨_, -, rfl, -⟩ | ⟨_, -, rfl, -⟩ <;> rfl

/-- Two calls that are on both streams. -/
theorem sameStory_login : ∃ tr s, Run (System.step (defaultEnv id)) {} tr s ∧
    (PubStream.sent tr).map SentMessage.messageId = [1, 2] ∧
    (PubStream.sent tr).map SentMessage.packet = [loginPacket, logoutPacket] ∧
    PushStream.accepted tr = [loginPacket, logoutPacket] ∧
    SameStory (defaultEnv id) tr := by
  have hlogin : IsUtf8 loginPacket.name ∧ IsUtf8 loginPacket.sessionId := by decide
  have hlogout : IsUtf8 logoutPacket.name ∧ IsUtf8 logoutPacket.sessionId := by decide
  obtain ⟨tr, s, _, _, _, _, h, hsent, hattempts, -, hone⟩ := exists_two hlogin hlogout
  refine ⟨tr, s, h, by rw [hsent]; rfl, by rw [hsent]; rfl,
    by rw [PushStream.accepted, hattempts]; rfl, ?_⟩
  exact sameStory (lawfulDump_defaultEnv id) h hone

end TwoStreams

end Kpacket
