import Mathlib.Data.List.Basic

/-!
# Byte strings: literals, decimal numerals, UTF-8

Texts are lists of bytes. `Utf8.step` is the automaton of RFC 3629 §4, one byte at a time; `IsUtf8`
is acceptance from the state between two characters.
-/

abbrev Bytes := List UInt8

/-- The bytes of a literal text. -/
def lit (s : String) : Bytes := s.toUTF8.data.toList

def decimal (n : Nat) : Bytes := (Nat.toDigits 10 n).map fun c => UInt8.ofNat c.toNat

def isDigit (c : UInt8) : Bool := 48 ≤ c && c ≤ 57

/-- The number a run of digits denotes. -/
def ofDigits (ds : Bytes) : Nat := ds.foldl (fun n c => 10 * n + (c.toNat - 48)) 0

/-! ### Decimal numerals -/

theorem digit_toNat {c : Char} (h : c.isDigit = true) : 48 ≤ c.toNat ∧ c.toNat ≤ 57 := by
  simp only [Char.isDigit, Bool.and_eq_true, decide_eq_true_eq, ge_iff_le] at h
  exact ⟨h.1, h.2⟩

theorem toNat_digit {c : Char} (h : c.isDigit = true) : (UInt8.ofNat c.toNat).toNat = c.toNat :=
  UInt8.toNat_ofNat_of_lt' (by have := digit_toNat h; show _ < 256; omega)

theorem isDigit_of_char {c : Char} (h : c.isDigit = true) :
    isDigit (UInt8.ofNat c.toNat) = true := by
  have h' := digit_toNat h
  simp only [isDigit, Bool.and_eq_true, decide_eq_true_eq, UInt8.le_iff_toNat_le, toNat_digit h]
  exact h'

theorem isDigit_of_mem_decimal {n : Nat} {c : UInt8} (h : c ∈ decimal n) : isDigit c = true := by
  obtain ⟨d, hd, rfl⟩ := List.mem_map.mp h
  exact isDigit_of_char (Nat.isDigit_of_mem_toDigits (by decide) (by decide) hd)

theorem decimal_ne_nil (n : Nat) : decimal n ≠ [] := by
  simp [decimal]

theorem ofDigits_decimal (n : Nat) : ofDigits (decimal n) = n := by
  have key : ∀ (l : List Char) (m : Nat), (∀ c ∈ l, c.isDigit = true) →
      (l.map fun c => UInt8.ofNat c.toNat).foldl (fun n c => 10 * n + (c.toNat - 48)) m =
        Nat.ofDigitChars 10 l m := by
    intro l
    induction l with
    | nil => intro m _; simp
    | cons c l ih =>
      intro m h
      rw [List.map_cons, List.foldl_cons, toNat_digit (h c (by simp)), Nat.ofDigitChars_cons]
      exact ih _ fun d hd => h d (by simp [hd])
  rw [ofDigits, decimal, key _ _ fun c hc => Nat.isDigit_of_mem_toDigits (by decide) (by decide) hc]
  exact Nat.ofDigitChars_ten_toDigits

theorem head?_decimal {n : Nat} (h : 1 < (decimal n).length) : (decimal n).head? ≠ some 48 := by
  have key : ∀ n, 0 < n →
      ((Nat.toDigits 10 n).map fun c => UInt8.ofNat c.toNat).head? ≠ some 48 := by
    intro n
    induction n using Nat.strongRecOn with
    | _ n ih =>
      intro hn
      rcases Nat.lt_or_ge n 10 with hlt | hge
      · have : ∀ n < 10, 0 < n →
            ((Nat.toDigits 10 n).map fun c => UInt8.ofNat c.toNat).head? ≠ some 48 := by decide
        exact this n hlt hn
      · rw [Nat.toDigits_of_base_le (by decide) hge, List.map_append, List.head?_append_of_ne_nil]
        · exact ih (n / 10) (by omega) (by omega)
        · simp
  rcases Nat.eq_zero_or_pos n with rfl | hn
  · exact absurd h (by decide)
  · exact key n hn

/-! ### UTF-8 -/

namespace Utf8

/-- Where the automaton stands: between characters, or with tails owed, the next one perhaps
from a smaller range. -/
inductive State
  | start | tail1 | tail2 | tail3 | afterE0 | afterED | afterF0 | afterF4
deriving DecidableEq, Repr

def within (low high b : UInt8) (next : State) : Option State :=
  if low ≤ b ∧ b ≤ high then some next else none

def lead (b : UInt8) : Option State :=
  if b < 0x80 then some .start
  else if b < 0xC2 then none
  else if b < 0xE0 then some .tail1
  else if b = 0xE0 then some .afterE0
  else if b = 0xED then some .afterED
  else if b < 0xF0 then some .tail2
  else if b = 0xF0 then some .afterF0
  else if b < 0xF4 then some .tail3
  else if b = 0xF4 then some .afterF4
  else none

def step : State → UInt8 → Option State
  | .start, b => lead b
  | .tail1, b => within 0x80 0xBF b .start
  | .tail2, b => within 0x80 0xBF b .tail1
  | .tail3, b => within 0x80 0xBF b .tail2
  | .afterE0, b => within 0xA0 0xBF b .tail1
  | .afterED, b => within 0x80 0x9F b .tail1
  | .afterF0, b => within 0x90 0xBF b .tail2
  | .afterF4, b => within 0x80 0x8F b .tail2

def run : State → Bytes → Option State
  | q, [] => some q
  | q, b :: s => (step q b).bind fun q' => run q' s

theorem le_of_step {q q' : State} {b : UInt8} (hq : q ≠ .start) (h : step q b = some q') :
    0x80 ≤ b := by
  cases q with
  | start => exact absurd rfl hq
  | tail1 | tail2 | tail3 | afterED | afterF4 =>
    simp only [step, within, Option.ite_none_right_eq_some] at h
    exact h.1.1
  | afterE0 | afterF0 =>
    simp only [step, within, Option.ite_none_right_eq_some] at h
    exact UInt8.le_trans (by decide) h.1.1

theorem step_ascii {b : UInt8} (h : b < 0x80) : step .start b = some .start := by
  simp [step, lead, h]

theorem run_append (q : State) (s t : Bytes) :
    run q (s ++ t) = (run q s).bind fun q' => run q' t := by
  induction s generalizing q with
  | nil => rfl
  | cons b s ih =>
    simp only [List.cons_append, run]
    cases step q b <;> simp [ih]

end Utf8

/-- Well-formed UTF-8. -/
def IsUtf8 (s : Bytes) : Prop := Utf8.run .start s = some .start

instance (s : Bytes) : Decidable (IsUtf8 s) := inferInstanceAs (Decidable (_ = _))

namespace IsUtf8

theorem nil : IsUtf8 [] := rfl

theorem append {s t : Bytes} (hs : IsUtf8 s) (ht : IsUtf8 t) : IsUtf8 (s ++ t) := by
  unfold IsUtf8 at *
  rw [Utf8.run_append, hs]
  exact ht

theorem of_ascii {s : Bytes} (h : ∀ c ∈ s, c < 0x80) : IsUtf8 s := by
  unfold IsUtf8
  induction s with
  | nil => rfl
  | cons c s ih =>
    rw [Utf8.run, Utf8.step_ascii (h c (by simp))]
    exact ih fun d hd => h d (by simp [hd])

theorem decimal (n : Nat) : IsUtf8 (decimal n) :=
  of_ascii fun c hc => by
    have := isDigit_of_mem_decimal hc
    simp only [isDigit, Bool.and_eq_true, decide_eq_true_eq] at this
    exact UInt8.lt_of_le_of_lt this.2 (by decide)

end IsUtf8
