import Kpacket.Bytes
import Mathlib.Tactic.SplitIfs

/-!
# JSON string literals (RFC 8259 §7)

`scan` reads a literal byte by byte: UTF-8, escapes, surrogate pairs. `quote` writes one.
`scan_escape`: what is written is read back. `scan_tight`: a literal exactly as long as its value
has no escapes and no control characters.
-/

namespace JsonText

/-! ### String literals -/

/-- Where the scanner of a string literal stands: in the text, after a backslash, among the digits
of a `\u` escape with `k` to come, or before the low half of a surrogate pair. -/
inductive Lit
  | text (q : Utf8.State)
  | esc (hi : Option Nat)
  | hex (k acc : Nat) (hi : Option Nat)
  | low (hi : Nat)
deriving DecidableEq

def hexDigit (c : UInt8) : Option Nat :=
  if 48 ≤ c ∧ c ≤ 57 then some (c.toNat - 48)
  else if 97 ≤ c ∧ c ≤ 102 then some (c.toNat - 87)
  else if 65 ≤ c ∧ c ≤ 70 then some (c.toNat - 55)
  else none

def unescape (c : UInt8) : Option UInt8 :=
  if c = 34 ∨ c = 92 ∨ c = 47 then some c
  else if c = 98 then some 8
  else if c = 102 then some 12
  else if c = 110 then some 10
  else if c = 114 then some 13
  else if c = 116 then some 9
  else none

/-- The UTF-8 bytes of a code point. -/
def utf8Encode (n : Nat) : Bytes :=
  if n < 0x80 then [.ofNat n]
  else if n < 0x800 then [.ofNat (0xC0 + n / 64), .ofNat (0x80 + n % 64)]
  else if n < 0x10000 then
    [.ofNat (0xE0 + n / 4096), .ofNat (0x80 + n / 64 % 64), .ofNat (0x80 + n % 64)]
  else
    [.ofNat (0xF0 + n / 262144), .ofNat (0x80 + n / 4096 % 64), .ofNat (0x80 + n / 64 % 64),
      .ofNat (0x80 + n % 64)]

/-- The end of a `\u` escape: a character, or the first half of a surrogate pair. -/
def codeUnit (n : Nat) (hi : Option Nat) : Option (Lit × Bytes) :=
  match hi with
  | none =>
    if 0xD800 ≤ n ∧ n < 0xDC00 then some (.low n, [])
    else if 0xDC00 ≤ n ∧ n < 0xE000 then none
    else some (.text .start, utf8Encode n)
  | some h =>
    if 0xDC00 ≤ n ∧ n < 0xE000 then
      some (.text .start, utf8Encode (0x10000 + h % 0x400 * 0x400 + n % 0x400))
    else none

/-- One byte of a literal: the next state and the bytes of the value it completes. -/
def litStep : Lit → UInt8 → Option (Lit × Bytes)
  | .text q, c =>
    if q = .start ∧ c = 92 then some (.esc none, [])
    else if c < 32 then none
    else (Utf8.step q c).map fun q' => (.text q', [c])
  | .esc hi, c =>
    if c = 117 then some (.hex 3 0 hi, [])
    else if hi = none then (unescape c).map fun b => (.text .start, [b])
    else none
  | .hex k acc hi, c =>
    match hexDigit c, k with
    | none, _ => none
    | some d, 0 => codeUnit (16 * acc + d) hi
    | some d, k + 1 => some (.hex k (16 * acc + d) hi, [])
  | .low hi, c => if c = 92 then some (.esc (some hi), []) else none

/-- The value of a literal up to its closing quotation mark, and the text behind it. -/
def scan : Lit → Bytes → Option (Bytes × Bytes)
  | _, [] => none
  | q, c :: s =>
    if q = .text .start ∧ c = 34 then some ([], s)
    else
      match litStep q c with
      | some (q', out) => (scan q' s).map fun r => (out ++ r.1, r.2)
      | none => none

/-- A byte that stands for itself in a literal. -/
def PlainByte (c : UInt8) : Prop := c ≠ 34 ∧ c ≠ 92 ∧ 32 ≤ c

/-- The lower-case hexadecimal digit of a number. -/
def hexChar (n : Nat) : UInt8 := if n < 10 then .ofNat (48 + n) else .ofNat (87 + n)

def escape (c : UInt8) : Bytes :=
  if c = 34 then [92, 34]
  else if c = 92 then [92, 92]
  else if c = 8 then [92, 98]
  else if c = 12 then [92, 102]
  else if c = 10 then [92, 110]
  else if c = 13 then [92, 114]
  else if c = 9 then [92, 116]
  else if c < 32 then [92, 117, 48, 48, hexChar (c.toNat / 16), hexChar (c.toNat % 16)]
  else [c]

def quote (s : Bytes) : Bytes := 34 :: (s.flatMap escape ++ [34])

/-! ### Escaping and scanning -/

theorem scan_text {q q' : Utf8.State} {c : UInt8} (hc : 32 ≤ c) (h34 : c ≠ 34) (h92 : c ≠ 92)
    (h : Utf8.step q c = some q') (s : Bytes) :
    scan (.text q) (c :: s) = (scan (.text q') s).map fun r => (c :: r.1, r.2) := by
  have h32 : ¬ c < 32 := fun hlt => UInt8.lt_irrefl _ (UInt8.lt_of_lt_of_le hlt hc)
  simp [scan, litStep, h34, h92, h, h32]

theorem scan_short {e c : UInt8} (he : e ≠ 117) (hc : unescape e = some c) (s : Bytes) :
    scan (.text .start) (92 :: e :: s) =
      (scan (.text .start) s).map fun r => (c :: r.1, r.2) := by
  simp [scan, litStep, he, hc]
  rfl

theorem hexDigit_hexChar : ∀ n < 16, hexDigit (hexChar n) = some n := by decide

theorem scan_control {c : UInt8} (hc : c < 32) (s : Bytes) :
    scan (.text .start)
        (92 :: 117 :: 48 :: 48 :: hexChar (c.toNat / 16) :: hexChar (c.toNat % 16) :: s) =
      (scan (.text .start) s).map fun r => (c :: r.1, r.2) := by
  have hn : c.toNat < 32 := UInt8.lt_iff_toNat_lt.mp hc
  have h0 : hexDigit 48 = some 0 := by decide
  have h1 := hexDigit_hexChar (c.toNat / 16) (by omega)
  have h2 := hexDigit_hexChar (c.toNat % 16) (by omega)
  have hn' : 16 * (c.toNat / 16) + c.toNat % 16 = c.toNat := by omega
  have hu : codeUnit c.toNat none = some (.text .start, [c]) := by
    simp only [codeUnit, utf8Encode]
    rw [if_neg (by omega), if_neg (by omega), if_pos (by omega), UInt8.ofNat_toNat]
  simp [scan, litStep, h0, h1, h2, hn', hu]
  rfl

theorem escape_plain {c : UInt8} (h : PlainByte c) : escape c = [c] := by
  obtain ⟨h34, h92, h32⟩ := h
  have hlt : ∀ d : UInt8, d < 32 → c ≠ d := fun d hd hcd =>
    UInt8.lt_irrefl _ (UInt8.lt_of_lt_of_le (hcd ▸ hd) h32)
  have hn : ¬ c < 32 := fun h => UInt8.lt_irrefl _ (UInt8.lt_of_lt_of_le h h32)
  simp only [escape, h34, h92, hlt 8 (by decide), hlt 12 (by decide), hlt 10 (by decide),
    hlt 13 (by decide), hlt 9 (by decide), hn, if_false]

theorem lt_of_not_plain {c : UInt8} (h : ¬ PlainByte c) : c = 34 ∨ c = 92 ∨ c < 32 := by
  by_contra hc
  simp only [not_or, UInt8.not_lt] at hc
  exact h hc

theorem scan_special {c : UInt8} (h : ¬ PlainByte c) (s : Bytes) :
    scan (.text .start) (escape c ++ s) =
      (scan (.text .start) s).map fun r => (c :: r.1, r.2) := by
  unfold escape
  split_ifs with h1 h2 h3 h4 h5 h6 h7 h8
  · subst h1; exact scan_short (by decide) (by decide) s
  · subst h2; exact scan_short (by decide) (by decide) s
  · subst h3; exact scan_short (by decide) (by decide) s
  · subst h4; exact scan_short (by decide) (by decide) s
  · subst h5; exact scan_short (by decide) (by decide) s
  · subst h6; exact scan_short (by decide) (by decide) s
  · subst h7; exact scan_short (by decide) (by decide) s
  · exact scan_control h8 s
  · exact absurd ⟨h1, h2, UInt8.not_lt.mp h8⟩ h

/-- The scanner reads an escaped text back, up to the quotation mark behind it. -/
theorem scan_escape (s r : Bytes) : ∀ {q : Utf8.State}, Utf8.run q s = some .start →
    scan (.text q) (s.flatMap escape ++ 34 :: r) = some (s, r) := by
  induction s with
  | nil =>
    intro q h
    cases h
    simp [scan]
  | cons c s ih =>
    intro q h
    obtain ⟨q', hq, h⟩ := Option.bind_eq_some_iff.mp h
    rw [List.flatMap_cons, List.append_assoc]
    by_cases hc : PlainByte c
    · rw [escape_plain hc, List.singleton_append, scan_text hc.2.2 hc.1 hc.2.1 hq, ih h]
      rfl
    · -- only ASCII is escaped, and the automaton meets ASCII between characters only
      have hlt : c < 0x80 := by
        rcases lt_of_not_plain hc with rfl | rfl | hc
        · decide
        · decide
        · exact UInt8.lt_trans hc (by decide)
      have hstart : q = .start := by
        by_contra hne
        exact UInt8.lt_irrefl _ (UInt8.lt_of_lt_of_le hlt (Utf8.le_of_step hne hq))
      subst hstart
      rw [Utf8.step_ascii hlt] at hq
      cases hq
      rw [scan_special hc, ih h]
      rfl

theorem scan_plain {s : Bytes} (hp : ∀ c ∈ s, PlainByte c) (hu : IsUtf8 s) (r : Bytes) :
    scan (.text .start) (s ++ 34 :: r) = some (s, r) := by
  have hs : s.flatMap escape = s := by
    rw [List.flatMap_congr fun c hc => escape_plain (hp c hc), List.flatMap_singleton']
  simpa only [hs] using scan_escape s r hu

/-! ### Lengths -/

/-- How many bytes more than it has left to read a state may still put out. -/
def Lit.credit : Lit → Nat
  | .hex k _ _ => 3 - k
  | _ => 0

theorem length_utf8Encode (n : Nat) : (utf8Encode n).length ≤ 4 := by
  unfold utf8Encode
  split_ifs <;> simp only [List.length_cons, List.length_nil] <;> omega

theorem codeUnit_length {n : Nat} {hi : Option Nat} {q : Lit} {out : Bytes}
    (h : codeUnit n hi = some (q, out)) : out.length + q.credit ≤ 4 := by
  have hl := length_utf8Encode
  cases hi <;> simp only [codeUnit] at h <;> split_ifs at h <;>
    simp only [Option.some.injEq, Prod.mk.injEq] at h <;> obtain ⟨rfl, rfl⟩ := h
  · simp only [Lit.credit, List.length_nil]; omega
  · simp only [Lit.credit, Nat.add_zero]; exact hl _
  · simp only [Lit.credit, Nat.add_zero]; exact hl _

theorem litStep_length {q q' : Lit} {c : UInt8} {out : Bytes}
    (h : litStep q c = some (q', out)) : out.length + q'.credit ≤ 1 + q.credit := by
  cases q with
  | text q =>
    simp only [litStep] at h
    split_ifs at h
    · cases h; simp [Lit.credit]
    · obtain ⟨u, -, hu⟩ := Option.map_eq_some_iff.mp h
      cases hu; simp [Lit.credit]
  | esc hi =>
    simp only [litStep] at h
    split_ifs at h
    · cases h; simp [Lit.credit]
    · obtain ⟨u, -, hu⟩ := Option.map_eq_some_iff.mp h
      cases hu; simp [Lit.credit]
  | hex k acc hi =>
    simp only [litStep] at h
    split at h
    · cases h
    · have := codeUnit_length h
      simpa [Lit.credit, Nat.add_comm] using this
    · cases h; simp [Lit.credit]; omega
  | low hi =>
    simp only [litStep] at h
    split_ifs at h
    cases h; simp [Lit.credit]

theorem scan_cons {q : Lit} {c : UInt8} {s v r : Bytes} (h : scan q (c :: s) = some (v, r)) :
    (q = .text .start ∧ c = 34 ∧ v = [] ∧ r = s) ∨
      ∃ q' out v', litStep q c = some (q', out) ∧ scan q' s = some (v', r) ∧ v = out ++ v' ∧
        ¬ (q = .text .start ∧ c = 34) := by
  rw [scan] at h
  split_ifs at h with hq
  · cases h; exact .inl ⟨hq.1, hq.2, rfl, rfl⟩
  · split at h
    · next q' out hl =>
      obtain ⟨⟨v', r'⟩, hs, he⟩ := Option.map_eq_some_iff.mp h
      cases he
      exact .inr ⟨q', out, v', hl, hs, rfl, hq⟩
    · cases h

theorem scan_length {s v r : Bytes} : ∀ {q : Lit}, scan q s = some (v, r) →
    v.length + r.length + 1 ≤ s.length + q.credit := by
  induction s generalizing v with
  | nil => intro q h; simp [scan] at h
  | cons c s ih =>
    intro q h
    rcases scan_cons h with ⟨rfl, rfl, rfl, rfl⟩ | ⟨q', out, v', hl, hs, rfl, -⟩
    · simp
    · have h1 := ih hs
      have h2 := litStep_length hl
      simp only [List.length_append, List.length_cons]
      omega

theorem scan_tight {s v r : Bytes} : ∀ {q : Utf8.State}, scan (.text q) s = some (v, r) →
    v.length + r.length + 1 = s.length →
      s = v ++ 34 :: r ∧ (∀ c ∈ v, PlainByte c) ∧ Utf8.run q v = some .start := by
  induction s generalizing v with
  | nil => intro q h; simp [scan] at h
  | cons c s ih =>
    intro q h hlen
    rcases scan_cons h with ⟨hq, rfl, rfl, rfl⟩ | ⟨q', out, v', hl, hs, rfl, hend⟩
    · cases hq
      exact ⟨rfl, by simp, rfl⟩
    · have hlen' := scan_length hs
      simp only [List.length_append, List.length_cons] at hlen
      simp only [litStep] at hl
      split_ifs at hl with h92 h32
      · -- a backslash is read without any output
        cases hl
        simp only [Lit.credit, List.length_nil] at hlen hlen'
        omega
      · obtain ⟨q'', hq, he⟩ := Option.map_eq_some_iff.mp hl
        cases he
        obtain ⟨rfl, hp, hr⟩ := ih hs (by
          simp only [List.length_cons, List.length_nil] at hlen; omega)
        have hne : ∀ d : UInt8, d < 0x80 → c = d → q = .start := by
          rintro d hd rfl
          by_contra hne
          exact UInt8.lt_irrefl _ (UInt8.lt_of_lt_of_le hd (Utf8.le_of_step hne hq))
        have hc : PlainByte c :=
          ⟨fun h34 => hend ⟨by rw [hne 34 (by decide) h34], h34⟩,
            fun hb => h92 ⟨hne 92 (by decide) hb, hb⟩, UInt8.not_lt.mp h32⟩
        refine ⟨rfl, ?_, ?_⟩
        · simpa [hc] using hp
        · rw [List.singleton_append, Utf8.run, hq]
          exact hr

end JsonText
