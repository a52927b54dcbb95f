import Kpacket.Bytes
import Mathlib.Data.List.Infix

/-!
# The text callbacks

`HandleIncomingText` and `HandleOutgoingText` on the lines of the chat. A message is its bytes in
front of the terminating zero; a call that ends in the invalid parameter handler of the C library is
`none`. `textPassive_iff` says which lines get through as they are.
-/

namespace Kpacket

/-- What an incoming line may be changed in; `mode` are the bits of an `int32_t`. -/
structure ChatText where
  mode : UInt32
  indent : Bool
  message : Option Bytes

/-- `msg.find(needle) != std::string::npos` -/
def finds (message needle : Bytes) : Bool := needle <:+: message

def derpPrefix : Bytes := lit "[Derp] "

/-- `strcpy_s` into the 4096 bytes of a message; the terminating zero needs one of them. -/
def strcpyS (s : Bytes) : Option Bytes := if s.length < 4096 then some s else none

def handleIncomingText (text : ChatText) (injected : Bool) : Option (Bool × ChatText) :=
  match text.message with
  | none => some (false, text)
  | some message =>
    if injected then some (false, text)
    else
      let text := if finds message (lit "indent") then { text with indent := true } else text
      if finds message (lit "block") then some (true, text)
      else do
        let message ←
          if finds message (lit "derp") then strcpyS (derpPrefix ++ message) else some message
        let text := { text with message := some message }
        let mex := text.mode &&& 0xFFFFFF00
        let mid := text.mode &&& 0x000000FF
        some (false, if mid = 206 then { text with mode := mex ||| 5 } else text)

/-- `tolower` of the C locale -/
def lowerByte (b : UInt8) : UInt8 := if 0x41 ≤ b ∧ b ≤ 0x5A then b + 0x20 else b

/-- `_strnicmp(message, "/wave", 5) == 0` -/
def isWave (message : Bytes) : Bool := (message.take 5).map lowerByte = lit "/wave"

def handleOutgoingText (message : Option Bytes) (injected : Bool) : Option Bool :=
  if injected then some false else message.map isWave

/-! ### Lines that get through -/

inductive TextCallback
  | incoming (text : ChatText) (injected : Bool)
  | outgoing (message : Option Bytes) (injected : Bool)

namespace TextCallback

/-- The line is not blocked, and an incoming one is left as it is. -/
def Untouched : TextCallback → Prop
  | .incoming text injected => handleIncomingText text injected = some (false, text)
  | .outgoing message injected => handleOutgoingText message injected = some false

/-- The lines that the callbacks are made for, and those they do not survive. -/
def Marked : TextCallback → Prop
  | .incoming text injected => injected = false ∧ ∃ message, text.message = some message ∧
      (lit "indent" <:+: message ∧ text.indent = false ∨ lit "block" <:+: message ∨
        lit "derp" <:+: message ∨ text.mode &&& 0xFF = 206)
  | .outgoing message injected => injected = false ∧ ∀ m, message = some m →
      ∃ w a v e rest, m = 0x2F :: w :: a :: v :: e :: rest ∧
        w ∈ lit "wW" ∧ a ∈ lit "aA" ∧ v ∈ lit "vV" ∧ e ∈ lit "eE"

end TextCallback

theorem finds_iff {message needle : Bytes} : finds message needle = true ↔ needle <:+: message :=
  decide_eq_true_iff

theorem lowerByte_eq_iff {b c : UInt8} (hc : 0x61 ≤ c ∧ c ≤ 0x7A) :
    lowerByte b = c ↔ b ∈ [c, c - 0x20] := by
  obtain ⟨h1, h2⟩ := hc
  simp only [UInt8.le_iff_toNat_le, UInt8.reduceToNat] at h1 h2
  have hsub : (c - 0x20).toNat = c.toNat - 32 :=
    UInt8.toNat_sub_of_le c 0x20 (UInt8.le_iff_toNat_le.mpr (by simp; omega))
  have hadd : (b + 0x20).toNat = (b.toNat + 32) % 256 := UInt8.toNat_add b 0x20
  have hb := b.toNat_lt
  simp only [lowerByte, List.mem_cons, List.not_mem_nil, or_false, UInt8.le_iff_toNat_le,
    UInt8.reduceToNat]
  split_ifs <;> simp only [← UInt8.toNat_inj] <;> omega

theorem lowerByte_eq_slash {b : UInt8} : lowerByte b = 0x2F ↔ b = 0x2F := by
  have hadd : (b + 0x20).toNat = (b.toNat + 32) % 256 := UInt8.toNat_add b 0x20
  simp only [lowerByte, UInt8.le_iff_toNat_le, UInt8.reduceToNat]
  split_ifs <;> simp only [← UInt8.toNat_inj, UInt8.reduceToNat]
  omega

theorem isWave_iff {m : Bytes} : isWave m = true ↔
    ∃ w a v e rest, m = 0x2F :: w :: a :: v :: e :: rest ∧
      w ∈ lit "wW" ∧ a ∈ lit "aA" ∧ v ∈ lit "vV" ∧ e ∈ lit "eE" := by
  have hlit : lit "/wave" = [0x2F, 0x77, 0x61, 0x76, 0x65] := rfl
  have hw : ∀ {w}, lowerByte w = 0x77 ↔ w ∈ lit "wW" := lowerByte_eq_iff (by decide)
  have ha : ∀ {a}, lowerByte a = 0x61 ↔ a ∈ lit "aA" := lowerByte_eq_iff (by decide)
  have hv : ∀ {v}, lowerByte v = 0x76 ↔ v ∈ lit "vV" := lowerByte_eq_iff (by decide)
  have he : ∀ {e}, lowerByte e = 0x65 ↔ e ∈ lit "eE" := lowerByte_eq_iff (by decide)
  rw [isWave, decide_eq_true_iff, hlit]
  constructor
  · intro h
    rcases m with _ | ⟨b, _ | ⟨w, _ | ⟨a, _ | ⟨v, _ | ⟨e, rest⟩⟩⟩⟩⟩
    case cons.cons.cons.cons.cons =>
      simp only [List.take_succ_cons, List.take_zero, List.map_cons, List.map_nil, List.cons.injEq,
        and_true, lowerByte_eq_slash, hw, ha, hv, he] at h
      obtain ⟨rfl, hwave⟩ := h
      exact ⟨w, a, v, e, rest, rfl, hwave⟩
    all_goals simp at h
  · rintro ⟨w, a, v, e, rest, rfl, hwave⟩
    simp only [List.take_succ_cons, List.take_zero, List.map_cons, List.map_nil, List.cons.injEq,
      and_true, lowerByte_eq_slash, hw, ha, hv, he]
    exact ⟨trivial, hwave⟩

theorem mode_low (mode : UInt32) : (mode &&& 0xFFFFFF00 ||| 5) &&& 0xFF = 5 := by
  apply UInt32.eq_of_toBitVec_eq
  simp only [UInt32.toBitVec_and, UInt32.toBitVec_or]
  rw [BitVec.and_or_distrib_right, BitVec.and_assoc]
  exact (congrArg (· ||| _) (BitVec.and_zero (x := mode.toBitVec))).trans rfl

theorem mode_high (mode : UInt32) :
    (mode &&& 0xFFFFFF00 ||| 5) &&& 0xFFFFFF00 = mode &&& 0xFFFFFF00 := by
  apply UInt32.eq_of_toBitVec_eq
  simp only [UInt32.toBitVec_and, UInt32.toBitVec_or]
  rw [BitVec.and_or_distrib_right, BitVec.and_assoc]
  simp

theorem mode_ne {mode : UInt32} (h : mode &&& 0xFF = 206) : mode &&& 0xFFFFFF00 ||| 5 ≠ mode := by
  intro he
  have h5 : mode &&& 0xFF = 5 := he ▸ mode_low mode
  exact absurd (h.symm.trans h5) (by decide)

theorem length_derpPrefix_append (message : Bytes) :
    (derpPrefix ++ message).length = message.length + 7 := by
  rw [List.length_append, Nat.add_comm]
  rfl

/-- What becomes of an incoming line that is not injected. -/
inductive Heard (text : ChatText) (message : Bytes) : Option (Bool × ChatText) → Prop
  | blocked (h : lit "block" <:+: message) : Heard text message (some (true, {
      text with indent := text.indent || finds message (lit "indent") }))
  | tooLong (hblock : ¬ lit "block" <:+: message) (hderp : lit "derp" <:+: message)
    (h : 4096 ≤ message.length + 7) : Heard text message none
  | shown (hblock : ¬ lit "block" <:+: message)
    (h : lit "derp" <:+: message → message.length + 7 < 4096) : Heard text message (some (false, {
      mode := if text.mode &&& 0xFF = 206 then text.mode &&& 0xFFFFFF00 ||| 5 else text.mode
      indent := text.indent || finds message (lit "indent")
      message := some (if finds message (lit "derp") then derpPrefix ++ message else message) }))

theorem handleIncomingText_heard {text : ChatText} {message : Bytes}
    (h : text.message = some message) : Heard text message (handleIncomingText text false) := by
  obtain ⟨mode, indent, _⟩ := text
  obtain rfl := h
  have hindent : (if finds message (lit "indent") = true then
      (⟨mode, true, some message⟩ : ChatText) else ⟨mode, indent, some message⟩) =
        ⟨mode, indent || finds message (lit "indent"), some message⟩ := by
    cases finds message (lit "indent") <;> simp
  simp only [handleIncomingText, Bool.false_eq_true, if_false, hindent]
  by_cases hblock : finds message (lit "block") = true
  · rw [if_pos hblock]
    exact .blocked (finds_iff.mp hblock)
  · rw [if_neg hblock]
    have hb := mt finds_iff.mpr hblock
    have hshown (message' : Bytes) : (if mode &&& 0x000000FF = 206 then
        (⟨mode &&& 0xFFFFFF00 ||| 5, indent || finds message (lit "indent"), some message'⟩ :
          ChatText)
        else ⟨mode, indent || finds message (lit "indent"), some message'⟩) =
          ⟨if mode &&& 0xFF = 206 then mode &&& 0xFFFFFF00 ||| 5 else mode,
            indent || finds message (lit "indent"), some message'⟩ := by
      split_ifs <;> rfl
    simp only [Option.bind_eq_bind, hshown]
    by_cases hderp : finds message (lit "derp") = true
    · have hd := finds_iff.mp hderp
      rw [if_pos hderp, strcpyS, length_derpPrefix_append]
      by_cases hfits : message.length + 7 < 4096
      · have := @Heard.shown ⟨mode, indent, some message⟩ message hb fun _ => hfits
        rw [if_pos hderp] at this
        rwa [if_pos hfits]
      · rw [if_neg hfits]
        exact .tooLong hb hd (Nat.not_lt.mp hfits)
    · have := @Heard.shown ⟨mode, indent, some message⟩ message hb
        fun hd => absurd (finds_iff.mpr hd) hderp
      rwa [if_neg hderp] at this ⊢

/-- Whatever a line is changed to, it fits into its buffer again, stays indented and keeps the upper
bytes of its mode. -/
theorem handleIncomingText_keeps {text text' : ChatText} {injected block : Bool} {message : Bytes}
    (hm : text.message = some message) (hfits : message.length < 4096)
    (h : handleIncomingText text injected = some (block, text')) :
    (∃ message', text'.message = some message' ∧ message'.length < 4096 ∧ message <:+ message') ∧
      (text.indent = true → text'.indent = true) ∧
      text'.mode &&& 0xFFFFFF00 = text.mode &&& 0xFFFFFF00 := by
  cases injected with
  | true =>
    obtain ⟨mode, indent, _⟩ := text
    obtain rfl := hm
    cases h
    exact ⟨⟨message, rfl, hfits, List.suffix_refl _⟩, id, rfl⟩
  | false =>
    have hheard := handleIncomingText_heard hm
    rw [h] at hheard
    cases hheard with
    | blocked => exact ⟨⟨message, hm, hfits, List.suffix_refl _⟩, fun hi => by simp [hi], rfl⟩
    | shown hblock hlong =>
      refine ⟨⟨_, rfl, ?_, ?_⟩, fun hi => by simp [hi], ?_⟩
      · split_ifs with hd
        · rw [length_derpPrefix_append]
          exact hlong (finds_iff.mp hd)
        · exact hfits
      · split_ifs
        · exact List.suffix_append ..
        · exact List.suffix_refl _
      · dsimp only
        split_ifs
        · exact mode_high text.mode
        · rfl

theorem untouched_incoming_iff (text : ChatText) (injected : Bool) :
    (TextCallback.incoming text injected).Untouched ↔
      ¬ (TextCallback.incoming text injected).Marked := by
  unfold TextCallback.Untouched TextCallback.Marked
  cases injected with
  | true =>
    refine iff_of_true ?_ (by simp)
    obtain ⟨mode, indent, message⟩ := text
    cases message <;> rfl
  | false =>
    obtain ⟨mode, indent, message⟩ := text
    rcases message with _ | message
    · exact iff_of_true rfl (by simp)
    · have hheard := @handleIncomingText_heard ⟨mode, indent, some message⟩ message rfl
      simp only [true_and, Option.some.injEq, exists_eq_left']
      generalize handleIncomingText ⟨mode, indent, some message⟩ false = res at hheard
      cases hheard with
      | blocked h => exact iff_of_false nofun fun hn => hn (.inr (.inl h))
      | tooLong _ hderp => exact iff_of_false nofun fun hn => hn (.inr (.inr (.inl hderp)))
      | shown hblock hfits =>
        simp only [Option.some.injEq, Prod.mk.injEq, true_and, ChatText.mk.injEq, not_or]
        have hmode : (if mode &&& 0xFF = 206 then mode &&& 0xFFFFFF00 ||| 5 else mode) = mode ↔
            ¬ mode &&& 0xFF = 206 := by
          split_ifs with h
          · exact iff_of_false (mode_ne h) (not_not_intro h)
          · exact iff_of_true rfl h
        have hindent : (indent || finds message (lit "indent")) = indent ↔
            ¬ (lit "indent" <:+: message ∧ indent = false) := by
          rw [← finds_iff]
          cases indent <;> simp
        have hmessage : (if finds message (lit "derp") then derpPrefix ++ message else message) =
            message ↔ ¬ lit "derp" <:+: message := by
          rw [← finds_iff]
          split_ifs with h
          · refine iff_of_false (fun he => ?_) (not_not_intro h)
            have := congrArg List.length he
            rw [length_derpPrefix_append] at this
            omega
          · exact iff_of_true rfl h
        rw [hmode, hindent, hmessage]
        exact ⟨fun ⟨hm, hi, hd⟩ => ⟨hi, hblock, hd, hm⟩, fun ⟨hi, _, hd, hm⟩ => ⟨hm, hi, hd⟩⟩

theorem untouched_outgoing_iff (message : Option Bytes) (injected : Bool) :
    (TextCallback.outgoing message injected).Untouched ↔
      ¬ (TextCallback.outgoing message injected).Marked := by
  unfold TextCallback.Untouched TextCallback.Marked handleOutgoingText
  simp only [← isWave_iff]
  rcases injected with _ | _ <;> rcases message with _ | _ <;> simp

/-- The callbacks let a run of lines through, each as it is, exactly if none of them is marked. -/
theorem textPassive_iff (lines : List TextCallback) :
    (∀ c ∈ lines, c.Untouched) ↔ ∀ c ∈ lines, ¬ c.Marked := by
  refine forall₂_congr fun c _ => ?_
  rcases c with ⟨text, injected⟩ | ⟨message, injected⟩
  · exact untouched_incoming_iff text injected
  · exact untouched_outgoing_iff message injected

example : handleIncomingText ⟨206, false, some (lit "a derp")⟩ false =
    some (false, ⟨5, false, some (lit "[Derp] a derp")⟩) := rfl

end Kpacket
