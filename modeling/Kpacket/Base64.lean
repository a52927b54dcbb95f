import Mathlib.Data.List.GetD
import Mathlib.Data.Nat.Notation
import Mathlib.Tactic.SplitIfs

/-!
# RFC 4648 base64 over byte lists

`encode` works on groups of three bytes, `decode` on groups of four characters; `decode` rejects
padding anywhere but at the end and unused bits that are not zero, so the two are inverse to each
other (`decode_encode`, `encode_of_decode`).
-/

namespace Base64

/-- The standard alphabet (RFC 4648, table 1), as bytes. -/
def alphabet : List UInt8 :=
  "ABCDEFGHIJKLMNOPQRSTUVWXYZabcdefghijklmnopqrstuvwxyz0123456789+/".toUTF8.data.toList

/-- The padding character `=`. -/
def padChar : UInt8 := 61

def char (n : Nat) : UInt8 := alphabet.getD n 0

def value (c : UInt8) : Option Nat := alphabet.idxOf? c

def encode : List UInt8 → List UInt8
  | a :: b :: c :: rest =>
    char (a.toNat / 4) :: char (a.toNat % 4 * 16 + b.toNat / 16) ::
      char (b.toNat % 16 * 4 + c.toNat / 64) :: char (c.toNat % 64) :: encode rest
  | [a, b] =>
    [char (a.toNat / 4), char (a.toNat % 4 * 16 + b.toNat / 16), char (b.toNat % 16 * 4), padChar]
  | [a] => [char (a.toNat / 4), char (a.toNat % 4 * 16), padChar, padChar]
  | [] => []

/-- The three bytes of four sextets. -/
def triple (w x y z : Nat) : List UInt8 :=
  [.ofNat (w * 4 + x / 16), .ofNat (x % 16 * 16 + y / 4), .ofNat (y % 4 * 64 + z)]

/-- The last group: up to two padding characters, and no stray bits before them. -/
def decodeLast (w x y z : UInt8) : Option (List UInt8) :=
  match value w, value x, value y, value z with
  | some w, some x, some y, some z => some (triple w x y z)
  | some w, some x, some y, none =>
    if z = padChar ∧ y % 4 = 0 then
      some [.ofNat (w * 4 + x / 16), .ofNat (x % 16 * 16 + y / 4)]
    else none
  | some w, some x, none, none =>
    if y = padChar ∧ z = padChar ∧ x % 16 = 0 then some [.ofNat (w * 4 + x / 16)] else none
  | _, _, _, _ => none

def decode : List UInt8 → Option (List UInt8)
  | [] => some []
  | [w, x, y, z] => decodeLast w x y z
  | w :: x :: y :: z :: rest =>
    match value w, value x, value y, value z, decode rest with
    | some w, some x, some y, some z, some bs => some (triple w x y z ++ bs)
    | _, _, _, _, _ => none
  | _ => none

/-! ### The alphabet -/

theorem alphabet_length : alphabet.length = 64 := by decide

theorem value_padChar : value padChar = none := by decide

theorem char_mem {n : Nat} (h : n < 64) : char n ∈ alphabet := by
  have h' : n < alphabet.length := by rwa [alphabet_length]
  rw [char, List.getD_eq_getElem _ _ h']
  exact List.getElem_mem h'

theorem padChar_notMem : padChar ∉ alphabet := by decide

theorem value_char : ∀ n < 64, value (char n) = some n := by decide

theorem value_spec {c : UInt8} {n : Nat} (h : value c = some n) : n < 64 ∧ char n = c := by
  obtain ⟨hn, hc, -⟩ := List.idxOf?_eq_some_iff.mp h
  exact ⟨alphabet_length ▸ hn, by rw [char, List.getD_eq_getElem _ _ hn]; simpa using hc⟩

/-! ### Decoding what was encoded -/

theorem decode_quad {w x y z : Nat} (hw : w < 64) (hx : x < 64) (hy : y < 64) (hz : z < 64)
    (t : List UInt8) :
    decode (char w :: char x :: char y :: char z :: t) = (decode t).map (triple w x y z ++ ·) := by
  cases t with
  | nil => simp [decode, decodeLast, value_char, hw, hx, hy, hz]
  | cons d t =>
    rw [decode, value_char w hw, value_char x hx, value_char y hy, value_char z hz]
    · cases decode (d :: t) <;> rfl
    · simp

theorem triple_bytes (a b c : UInt8) :
    triple (a.toNat / 4) (a.toNat % 4 * 16 + b.toNat / 16) (b.toNat % 16 * 4 + c.toNat / 64)
      (c.toNat % 64) = [a, b, c] := by
  have hb := b.toNat_lt
  have hc := c.toNat_lt
  have h1 : a.toNat / 4 * 4 + (a.toNat % 4 * 16 + b.toNat / 16) / 16 = a.toNat := by omega
  have h2 : (a.toNat % 4 * 16 + b.toNat / 16) % 16 * 16 + (b.toNat % 16 * 4 + c.toNat / 64) / 4 =
      b.toNat := by omega
  have h3 : (b.toNat % 16 * 4 + c.toNat / 64) % 4 * 64 + c.toNat % 64 = c.toNat := by omega
  simp only [triple, h1, h2, h3, UInt8.ofNat_toNat]

theorem decode_encode (bs : List UInt8) : decode (encode bs) = some bs := by
  induction bs using encode.induct with
  | case1 a b c rest ih =>
    have ha := a.toNat_lt
    have hb := b.toNat_lt
    have hc := c.toNat_lt
    rw [encode, decode_quad (by omega) (by omega) (by omega) (by omega), ih, triple_bytes]
    rfl
  | case2 a b =>
    have ha := a.toNat_lt
    have hb := b.toNat_lt
    have h1 : a.toNat / 4 * 4 + (a.toNat % 4 * 16 + b.toNat / 16) / 16 = a.toNat := by omega
    have h2 : (a.toNat % 4 * 16 + b.toNat / 16) % 16 * 16 + b.toNat % 16 * 4 / 4 = b.toNat := by
      omega
    have h3 : b.toNat % 16 * 4 % 4 = 0 := by omega
    simp only [encode, decode, decodeLast, value_char _ (show a.toNat / 4 < 64 by omega),
      value_char _ (show a.toNat % 4 * 16 + b.toNat / 16 < 64 by omega),
      value_char _ (show b.toNat % 16 * 4 < 64 by omega), value_padChar, h1, h2, h3, and_self,
      if_true, UInt8.ofNat_toNat]
  | case3 a =>
    have ha := a.toNat_lt
    have h1 : a.toNat / 4 * 4 + a.toNat % 4 * 16 / 16 = a.toNat := by omega
    have h2 : a.toNat % 4 * 16 % 16 = 0 := by omega
    simp only [encode, decode, decodeLast, value_char _ (show a.toNat / 4 < 64 by omega),
      value_char _ (show a.toNat % 4 * 16 < 64 by omega), value_padChar, h1, h2, and_self,
      if_true, UInt8.ofNat_toNat]
  | case4 => rfl

theorem encode_injective {bs bs' : List UInt8} (h : encode bs = encode bs') : bs = bs' := by
  have := congrArg decode h
  rwa [decode_encode, decode_encode, Option.some.injEq] at this

theorem encode_eq_nil_iff {bs : List UInt8} : encode bs = [] ↔ bs = [] :=
  ⟨fun h => encode_injective h, fun h => by rw [h]; rfl⟩

/-! ### Encoding what was decoded -/

theorem toNat_ofNat_of_lt {n : Nat} (h : n < 256) : (UInt8.ofNat n).toNat = n :=
  UInt8.toNat_ofNat_of_lt' h

theorem encode_triple {w x y z : Nat} (hw : w < 64) (hx : x < 64) (hy : y < 64) (hz : z < 64)
    (bs : List UInt8) :
    encode (triple w x y z ++ bs) = char w :: char x :: char y :: char z :: encode bs := by
  have e1 := toNat_ofNat_of_lt (show w * 4 + x / 16 < 256 by omega)
  have e2 := toNat_ofNat_of_lt (show x % 16 * 16 + y / 4 < 256 by omega)
  have e3 := toNat_ofNat_of_lt (show y % 4 * 64 + z < 256 by omega)
  have hw' : (w * 4 + x / 16) / 4 = w := by omega
  have hx' : (w * 4 + x / 16) % 4 * 16 + (x % 16 * 16 + y / 4) / 16 = x := by omega
  have hy' : (x % 16 * 16 + y / 4) % 16 * 4 + (y % 4 * 64 + z) / 64 = y := by omega
  have hz' : (y % 4 * 64 + z) % 64 = z := by omega
  simp only [triple, List.cons_append, List.nil_append, encode, e1, e2, e3, hw', hx', hy', hz']

theorem encode_of_decodeLast {w x y z : UInt8} {bs : List UInt8}
    (h : decodeLast w x y z = some bs) : encode bs = [w, x, y, z] := by
  unfold decodeLast at h
  split at h
  · next w' x' y' z' vw vx vy vz =>
    obtain ⟨hw, rfl⟩ := value_spec vw
    obtain ⟨hx, rfl⟩ := value_spec vx
    obtain ⟨hy, rfl⟩ := value_spec vy
    obtain ⟨hz, rfl⟩ := value_spec vz
    cases h
    simpa [encode] using encode_triple hw hx hy hz []
  · next w' x' y' vw vx vy _ =>
    obtain ⟨hw, rfl⟩ := value_spec vw
    obtain ⟨hx, rfl⟩ := value_spec vx
    obtain ⟨hy, rfl⟩ := value_spec vy
    split_ifs at h with hp
    cases h
    have e1 := toNat_ofNat_of_lt (show w' * 4 + x' / 16 < 256 by omega)
    have e2 := toNat_ofNat_of_lt (show x' % 16 * 16 + y' / 4 < 256 by omega)
    have h1 : (w' * 4 + x' / 16) / 4 = w' := by omega
    have h2 : (w' * 4 + x' / 16) % 4 * 16 + (x' % 16 * 16 + y' / 4) / 16 = x' := by omega
    have h3 : (x' % 16 * 16 + y' / 4) % 16 * 4 = y' := by omega
    simp only [encode, e1, e2, h1, h2, h3, hp.1]
  · next w' x' vw vx _ _ =>
    obtain ⟨hw, rfl⟩ := value_spec vw
    obtain ⟨hx, rfl⟩ := value_spec vx
    split_ifs at h with hp
    cases h
    have e1 := toNat_ofNat_of_lt (show w' * 4 + x' / 16 < 256 by omega)
    have h1 : (w' * 4 + x' / 16) / 4 = w' := by omega
    have h2 : (w' * 4 + x' / 16) % 4 * 16 = x' := by omega
    simp only [encode, e1, h1, h2, hp.1, hp.2.1]
  · cases h

theorem encode_of_decode {s bs : List UInt8} (h : decode s = some bs) : encode bs = s := by
  induction s using decode.induct generalizing bs with
  | case1 => cases h; rfl
  | case2 w x y z => exact encode_of_decodeLast h
  | case3 w x y z rest hne w' x' y' z' bs' hd vz vy vx vw ih =>
    rw [decode, vw, vx, vy, vz, hd] at h
    · cases h
      obtain ⟨hw, rfl⟩ := value_spec vw
      obtain ⟨hx, rfl⟩ := value_spec vx
      obtain ⟨hy, rfl⟩ := value_spec vy
      obtain ⟨hz, rfl⟩ := value_spec vz
      rw [encode_triple hw hx hy hz, ih hd]
    · exact hne
  | case4 w x y z rest hne hno _ =>
    rw [decode] at h
    · split at h
      · next vw vx vy vz hd => exact absurd hd (hno _ _ _ _ _ vw vx vy vz)
      · cases h
    · exact hne
  | case5 t h0 h4 h5 =>
    rw [decode] at h
    · cases h
    all_goals assumption

theorem decode_eq_some_iff {s bs : List UInt8} : decode s = some bs ↔ s = encode bs :=
  ⟨fun h => (encode_of_decode h).symm, fun h => by rw [h, decode_encode]⟩

/-! ### Shape of an encoding -/

theorem length_encode (bs : List UInt8) : (encode bs).length = 4 * ((bs.length + 2) / 3) := by
  induction bs using encode.induct with
  | case1 a b c rest ih => simp only [encode, List.length_cons, ih]; omega
  | case2 | case3 | case4 => simp [encode]

theorem encode_shape (bs : List UInt8) :
    ∃ body, (∀ c ∈ body, c ∈ alphabet) ∧
      encode bs = body ++ List.replicate ((3 - bs.length % 3) % 3) padChar := by
  induction bs using encode.induct with
  | case1 a b c rest ih =>
    obtain ⟨body, hb, he⟩ := ih
    have ha := a.toNat_lt
    have hb' := b.toNat_lt
    have hc := c.toNat_lt
    refine ⟨char (a.toNat / 4) :: char (a.toNat % 4 * 16 + b.toNat / 16) ::
      char (b.toNat % 16 * 4 + c.toNat / 64) :: char (c.toNat % 64) :: body, ?_, ?_⟩
    · simp only [List.forall_mem_cons]
      exact ⟨char_mem (by omega), char_mem (by omega), char_mem (by omega), char_mem (by omega), hb⟩
    · simp only [encode, he, List.cons_append, List.length_cons]
      rw [show (rest.length + 1 + 1 + 1) % 3 = rest.length % 3 by omega]
  | case2 a b =>
    have ha := a.toNat_lt
    have hb := b.toNat_lt
    refine ⟨[char (a.toNat / 4), char (a.toNat % 4 * 16 + b.toNat / 16),
      char (b.toNat % 16 * 4)], ?_, rfl⟩
    simp only [List.forall_mem_cons]
    exact ⟨char_mem (by omega), char_mem (by omega), char_mem (by omega), by simp⟩
  | case3 a =>
    have ha := a.toNat_lt
    refine ⟨[char (a.toNat / 4), char (a.toNat % 4 * 16)], ?_, rfl⟩
    simp only [List.forall_mem_cons]
    exact ⟨char_mem (by omega), char_mem (by omega), by simp⟩
  | case4 => exact ⟨[], by simp, rfl⟩

end Base64
