import Kpacket.TwoStreams

/-!
# The filter and the streams

The filter can be replaced at any time, and a packet waits in two queues after it has passed. Still
every message on a stream stands for a call that the filter in force let through (`accepted_calls`):
a call is only past its look at the filter while its packet is in hand (`Trace.inHand`), and only
then can it push.
-/

namespace Kpacket

open Lts

namespace Filtering

/-- Call `c` came to the filter with `packet`, and the filter in force then let it pass. -/
def Accepted (env : Env) (tr : List Label) (c : Call) (packet : PacketInfo) : Prop :=
  ∃ pre post s, tr = pre ++ .caller c.thread (.filter packet true) :: post ∧
    (TwoStreams.calls c.thread pre).length = c.number + 1 ∧ Run (System.step env) {} pre s ∧
    s.relay.filtered packet = false

variable {env : Env} {s s' : System} {tr : List Label} {l : Label}

theorem Accepted.snoc {c : Call} {packet : PacketInfo} (h : Accepted env tr c packet) (l : Label) :
    Accepted env (tr ++ [l]) c packet := by
  obtain ⟨pre, post, s, rfl, hn, hr, hf⟩ := h
  exact ⟨pre, post ++ [l], s, by simp, hn, hr, hf⟩

/-- `g` is done with a packet that has passed the filter. -/
def Passed (env : Env) (g : CallerEvent → Option PacketInfo) : Prop :=
  ∀ {s s' : System} {i : Nat} {e : CallerEvent} {packet : PacketInfo},
    s.callerStep env i e = some s' → g e = some packet →
      (s.callers i).passed = some packet

theorem passed_enqueued (env : Env) : Passed env CallerEvent.enqueued? := by
  intro s s' i e packet hs hg
  obtain ⟨r, pc, hmove, -⟩ := System.callerStep_move hs
  cases hmove with
  | enqueue _ hpc => rw [hpc]; exact hg
  | _ => cases hg

theorem passed_admitted (env : Env) : Passed env CallerEvent.admitted? := by
  intro s s' i e packet hs hg
  obtain ⟨r, pc, hmove, -⟩ := System.callerStep_move hs
  cases hmove with
  | admitPacket _ admitted hpc =>
    cases admitted with
    | true => rw [hpc]; exact hg
    | false => cases hg
  | _ => cases hg

theorem callerStep_accepts {i : Nat} {e : CallerEvent} (hs : s.callerStep env i e = some s')
    {packet : PacketInfo} (hp : (s'.callers i).passed = some packet) :
    e.called? = none ∧ ((s.callers i).passed = some packet ∨
      e = .filter packet true ∧ (s.callers i).packet? = some packet ∧
        s.relay.filtered packet = false) := by
  obtain ⟨r, pc, hmove, rfl⟩ := System.callerStep_move hs
  rw [System.setCaller_callers_self] at hp
  cases hmove with
  | pass _ hpc hf =>
    cases hp
    exact ⟨rfl, .inr ⟨rfl, by rw [hpc]; rfl, hf⟩⟩
  | admitPacket _ _ hpc | bypass _ hpc => rw [hpc]; exact ⟨rfl, .inl hp⟩
  | readRunning | readSocket => split_ifs at hp <;> cases hp
  | call | drop | enqueue => cases hp

/-- What has been done so far with packets behind the filter. -/
structure Trace (env : Env) (g : CallerEvent → Option PacketInfo) (tr : List Label) (s : System) :
    Prop where
  inHand : ∀ i packet, (s.callers i).passed = some packet →
    Accepted env tr ⟨i, (TwoStreams.calls i tr).length - 1⟩ packet
  made : ∀ c ∈ TwoStreams.made g tr, Accepted env tr c.1 c.2

theorem trace (env : Env) {g : CallerEvent → Option PacketInfo} (hg : Passed env g)
    (h : Run (System.step env) {} tr s) : Trace env g tr s := by
  refine h.invariant (I := Trace env g)
    ⟨by simp [CallerPc.passed], by simp [TwoStreams.made, history]⟩
    fun tr s l s' hr ih hs => ⟨fun i packet hp => ?_, fun c hc => ?_⟩
  · rw [TwoStreams.calls_snoc]
    cases l with
    | caller j e =>
      have hcall := System.step_caller hs
      by_cases hj : j = i
      · subst hj
        obtain ⟨he, hin | ⟨rfl, hpacket, hf⟩⟩ := callerStep_accepts hcall hp
        · simpa [Label.by?, he] using (ih.inHand j packet hin).snoc (.caller j e)
        · have hlast := TwoStreams.last_call hr j hpacket
          have hlt := (List.getElem?_eq_some_iff.mp hlast).1
          refine ⟨tr, [], s, rfl, ?_, hr, hf⟩
          simpa [Label.by?, CallerEvent.called?] using
            (Nat.sub_add_cancel (Nat.one_le_of_lt hlt)).symm
      · rw [System.callerStep_callers hcall (Ne.symm hj)] at hp
        simpa [Label.by?, hj] using (ih.inHand i packet hp).snoc (.caller j e)
    | _ =>
      rw [System.step_callers hs (by simp)] at hp
      simpa [Label.by?] using (ih.inHand i packet hp).snoc _
  · rw [TwoStreams.made_snoc, List.mem_append] at hc
    rcases hc with hc | hc
    · exact (ih.made c hc).snoc l
    · have hact := Option.mem_toList.mp hc
      cases l with
      | caller i e =>
        obtain ⟨packet, he, rfl⟩ := Option.map_eq_some_iff.mp hact
        exact (ih.inHand i packet (hg (System.step_caller hs) he)).snoc _
      | _ => cases hact

/-! ### The streams -/

theorem made_of_place {g : CallerEvent → Option PacketInfo} {out rest : List PacketInfo}
    (hq : (TwoStreams.made g tr).map Prod.snd = out ++ rest) {k : Nat} {c : Call}
    {packet : PacketInfo} (hc : ((TwoStreams.made g tr).map Prod.fst)[k]? = some c)
    (ho : out[k]? = some packet) : (c, packet) ∈ TwoStreams.made g tr := by
  rw [List.getElem?_map, Option.map_eq_some_iff] at hc
  obtain ⟨d, hd, rfl⟩ := hc
  have hp : (out ++ rest)[k]? = some d.2 := by
    rw [← hq, List.getElem?_map, hd]
    rfl
  rw [List.getElem?_append_left (List.getElem?_eq_some_iff.mp ho).1, ho] at hp
  rw [Option.some.inj hp]
  exact List.mem_of_getElem? hd

/-- Every message on the PUB stream and every message that the PUSH socket accepted belongs to a
call whose packet passed the filter that was in force when the call came to it, however often the
filter is replaced and however long the packet waits in a queue. -/
theorem accepted_calls (h : Run (System.step env) {} tr s) :
    (∀ c m, (c, m) ∈ TwoStreams.pubStream tr → Accepted env tr c m.packet) ∧
      ∀ c text, (c, text) ∈ TwoStreams.pushStream tr →
        ∃ packet, Accepted env tr c packet ∧ env.json.dump (toJson packet) = .ok text := by
  constructor
  · intro c m hm
    obtain ⟨k, ⟨packet, _⟩, hc, ht, rfl⟩ := mem_carry hm
    obtain rfl := PubStream.packet_of_tried (List.mem_of_getElem? ht)
    have hq := (TwoStreams.made_enqueued tr).trans (PubStream.pushed_eq h)
    rw [PubStream.taken_eq_tried h, List.append_assoc] at hq
    refine (trace env (passed_enqueued env) h).made _ (made_of_place hq hc ?_)
    rw [List.getElem?_map, ht]
    rfl
  · intro c text hm
    obtain ⟨k, ⟨packet, outcome⟩, hc, ht, ho⟩ := mem_carry hm
    cases outcome with
    | accepted =>
      cases ho
      have hq := (TwoStreams.made_admitted tr).trans (PushStream.admitted_eq h)
      rw [List.append_assoc] at hq
      refine ⟨packet, (trace env (passed_admitted env) h).made _ (made_of_place hq hc ?_),
        PushStream.text_of_accepted h (List.mem_of_getElem? ht)⟩
      rw [List.getElem?_map, ht]
      rfl
    | _ => cases ho

/-- A message on each stream. -/
theorem accepted_calls_login : ∃ tr s c m c' text, Run (System.step (defaultEnv id)) {} tr s ∧
    (c, m) ∈ TwoStreams.pubStream tr ∧ Accepted (defaultEnv id) tr c m.packet ∧
    (c', text) ∈ TwoStreams.pushStream tr ∧ ∃ packet, Accepted (defaultEnv id) tr c' packet := by
  have hlogin : IsUtf8 loginPacket.name ∧ IsUtf8 loginPacket.sessionId := by decide
  obtain ⟨tr, s, _, _, text, _, h, hsent, hattempts, -⟩ := TwoStreams.exists_two hlogin hlogin
  obtain ⟨hpub, hpush⟩ := accepted_calls h
  have hpubs := TwoStreams.pubStream_sent h
  have hpushs := TwoStreams.pushStream_texts h
  rw [hsent] at hpubs
  rw [TwoStreams.pushTexts, hattempts] at hpushs
  obtain ⟨⟨c, m⟩, _, hc, -⟩ := List.map_eq_cons_iff.mp hpubs
  obtain ⟨⟨c', text⟩, _, hc', -⟩ := List.map_eq_cons_iff.mp hpushs
  have hmem : (c, m) ∈ TwoStreams.pubStream tr := by rw [hc]; exact List.mem_cons_self ..
  have hmem' : (c', text) ∈ TwoStreams.pushStream tr := by rw [hc']; exact List.mem_cons_self ..
  obtain ⟨packet, hacc, -⟩ := hpush c' text hmem'
  exact ⟨tr, s, c, m, c', text, h, hmem, hpub c m hmem, hmem', packet, hacc⟩

end Filtering

end Kpacket
