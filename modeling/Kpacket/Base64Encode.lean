import Kpacket.Base64
import Kpacket.Bytes
import Mathlib.Algebra.Group.Nat.Defs

/-!
# `base64_encode`

The encoder of `zmq_relay.cpp` keeps the bytes not yet written in the low bits of a 32-bit `int`
that it shifts left and never masks; `valb` counts them, less six. After every third byte no bit is
pending, so what is left in `val` no longer matters (`push_triple`); on a wrapped accumulator
the arithmetic right shift still shows the right six bits (`sextet_eq`).
-/

namespace Kpacket

def base64Chars : Bytes :=
  lit "ABCDEFGHIJKLMNOPQRSTUVWXYZabcdefghijklmnopqrstuvwxyz0123456789+/"

/-- `chars[(val >> shift) & 0x3F]`; `>>` on a negative `int` shifts the sign bit in. -/
def base64Char (val : BitVec 32) (shift : Int) : UInt8 :=
  base64Chars.getD (val.sshiftRight shift.toNat &&& 0x3F).toNat 0

structure Base64State where
  result : Bytes := []
  val : BitVec 32 := 0
  valb : Int := -6

/-- `while (valb >= 0)` -/
def Base64State.drain (st : Base64State) : Base64State :=
  if 0 ≤ st.valb then
    drain { st with result := st.result ++ [base64Char st.val st.valb], valb := st.valb - 6 }
  else st
termination_by (st.valb + 6).toNat

/-- The body of the loop over the bytes: `val = (val << 8) + c; valb += 8; …` -/
def Base64State.push (st : Base64State) (c : UInt8) : Base64State :=
  { st with val := st.val <<< 8 + BitVec.ofNat 32 c.toNat, valb := st.valb + 8 }.drain

/-- `while (result.size() % 4) result.push_back('=')` -/
def base64Pad (result : Bytes) : Bytes :=
  if result.length % 4 ≠ 0 then base64Pad (result ++ [61]) else result
termination_by (4 - result.length % 4) % 4
decreasing_by simp only [List.length_append, List.length_singleton]; omega

/-- The sextet that is still incomplete at the end, filled up with zero bits. -/
def Base64State.flush (st : Base64State) : Bytes :=
  if st.valb > -6 then st.result ++ [base64Char (st.val <<< 8) (st.valb + 8)] else st.result

def base64Encode (data : Bytes) : Bytes := base64Pad (data.foldl Base64State.push {}).flush

/-! ### Six bits of the accumulator -/

theorem sextet_eq (val : BitVec 32) {k : Nat} (hk : k ≤ 26) :
    (val.sshiftRight k &&& 0x3F).toNat = val.toNat / 2 ^ k % 64 := by
  -- the bits that differ between the two shifts lie above the mask
  have hmask : ∀ i < 32, 6 ≤ i → (0x3F : BitVec 32).getLsbD i = false := by decide
  have h : val.sshiftRight k &&& 0x3F = val >>> k &&& 0x3F := by
    ext i hi
    simp only [BitVec.getElem_and, BitVec.getElem_sshiftRight, BitVec.getElem_ushiftRight]
    rcases Nat.lt_or_ge i 6 with h6 | h6
    · rw [dif_pos (by omega), BitVec.getLsbD_eq_getElem]
    · have hm := hmask i hi h6
      rw [BitVec.getLsbD_eq_getElem hi] at hm
      simp only [hm, Bool.and_false]
  rw [h, BitVec.toNat_and, BitVec.toNat_ushiftRight, Nat.shiftRight_eq_div_pow]
  exact Nat.and_two_pow_sub_one_eq_mod _ 6

theorem base64Char_eq (val : BitVec 32) {k : Nat} (hk : k ≤ 26) :
    base64Char val k = Base64.char (val.toNat / 2 ^ k % 64) := by
  rw [base64Char, Int.toNat_natCast, sextet_eq val hk]
  rfl

/-- `(val << 8) + c` as the next byte is shifted in. -/
def shiftIn (val : BitVec 32) (c : UInt8) : BitVec 32 := val <<< 8 + BitVec.ofNat 32 c.toNat

theorem toNat_shiftIn (val : BitVec 32) (c : UInt8) :
    (shiftIn val c).toNat = (val.toNat * 256 + c.toNat) % 2 ^ 32 := by
  have hc := c.toNat_lt
  simp only [shiftIn, BitVec.toNat_add, BitVec.toNat_shiftLeft, BitVec.toNat_ofNat,
    Nat.shiftLeft_eq]
  omega

theorem toNat_shiftLeft_eight (val : BitVec 32) :
    (val <<< 8).toNat = val.toNat * 256 % 2 ^ 32 := by
  simp only [BitVec.toNat_shiftLeft, Nat.shiftLeft_eq]

/-! ### One byte, three bytes -/

namespace Base64State

theorem drain_of_neg (r : Bytes) (v : BitVec 32) {k : Int} (h : k < 0) :
    drain ⟨r, v, k⟩ = ⟨r, v, k⟩ := by
  rw [drain, if_neg (Int.not_le.mpr h)]

theorem drain_of_nonneg (r : Bytes) (v : BitVec 32) {k : Nat} (hk : k ≤ 26) :
    drain ⟨r, v, k⟩ = drain ⟨r ++ [Base64.char (v.toNat / 2 ^ k % 64)], v, k - 6⟩ := by
  rw [drain, if_pos (Int.natCast_nonneg k), base64Char_eq _ hk]

variable (r : Bytes) (v : BitVec 32) (a b c : UInt8)

theorem push_first : push ⟨r, v, -6⟩ a =
    ⟨r ++ [Base64.char ((shiftIn v a).toNat / 4 % 64)], shiftIn v a, -4⟩ :=
  (drain_of_nonneg r (shiftIn v a) (k := 2) (by decide)).trans (drain_of_neg _ _ (by decide))

theorem push_second : push ⟨r, v, -4⟩ b =
    ⟨r ++ [Base64.char ((shiftIn v b).toNat / 16 % 64)], shiftIn v b, -2⟩ :=
  (drain_of_nonneg r (shiftIn v b) (k := 4) (by decide)).trans (drain_of_neg _ _ (by decide))

theorem push_third : push ⟨r, v, -2⟩ c =
    ⟨r ++ [Base64.char ((shiftIn v c).toNat / 64 % 64), Base64.char ((shiftIn v c).toNat % 64)],
      shiftIn v c, -6⟩ := by
  have h1 := drain_of_nonneg r (shiftIn v c) (k := 6) (by decide)
  have h2 := drain_of_nonneg (r ++ [Base64.char ((shiftIn v c).toNat / 64 % 64)]) (shiftIn v c)
    (k := 0) (by decide)
  have h3 := h1.trans (h2.trans (drain_of_neg _ _ (by decide)))
  rw [Nat.pow_zero, Nat.div_one, List.append_assoc] at h3
  exact h3

theorem push_triple : push (push (push ⟨r, v, -6⟩ a) b) c =
    ⟨r ++ [Base64.char (a.toNat / 4), Base64.char (a.toNat % 4 * 16 + b.toNat / 16),
      Base64.char (b.toNat % 16 * 4 + c.toNat / 64), Base64.char (c.toNat % 64)],
      shiftIn (shiftIn (shiftIn v a) b) c, -6⟩ := by
  have ha := a.toNat_lt
  have hb := b.toNat_lt
  have hc := c.toNat_lt
  have h1 : (shiftIn v a).toNat / 4 % 64 = a.toNat / 4 := by
    rw [toNat_shiftIn]; omega
  have h2 : (shiftIn (shiftIn v a) b).toNat / 16 % 64 = a.toNat % 4 * 16 + b.toNat / 16 := by
    rw [toNat_shiftIn, toNat_shiftIn]; omega
  have h3 : (shiftIn (shiftIn (shiftIn v a) b) c).toNat / 64 % 64 =
      b.toNat % 16 * 4 + c.toNat / 64 := by
    rw [toNat_shiftIn, toNat_shiftIn]; omega
  have h4 : (shiftIn (shiftIn (shiftIn v a) b) c).toNat % 64 = c.toNat % 64 := by
    rw [toNat_shiftIn]; omega
  rw [push_first, push_second, push_third, h1, h2, h3, h4]
  simp only [List.append_assoc, List.cons_append, List.nil_append]

omit v in
theorem flush_pending (v : BitVec 32) {k : Nat} (hk : 2 < k ∧ k ≤ 26) :
    flush ⟨r, v, k - 8⟩ = r ++ [Base64.char ((v <<< 8).toNat / 2 ^ k % 64)] := by
  have h : (k - 8 : Int) > -6 := by omega
  rw [flush, if_pos h]
  simp only [Int.sub_add_cancel, base64Char_eq _ hk.2]

theorem flush_two : (push (push ⟨r, v, -6⟩ a) b).flush =
    r ++ [Base64.char (a.toNat / 4), Base64.char (a.toNat % 4 * 16 + b.toNat / 16),
      Base64.char (b.toNat % 16 * 4)] := by
  have ha := a.toNat_lt
  have hb := b.toNat_lt
  have h1 : (shiftIn v a).toNat / 4 % 64 = a.toNat / 4 := by
    rw [toNat_shiftIn]; omega
  have h2 : (shiftIn (shiftIn v a) b).toNat / 16 % 64 = a.toNat % 4 * 16 + b.toNat / 16 := by
    rw [toNat_shiftIn, toNat_shiftIn]; omega
  have h3 : (shiftIn (shiftIn v a) b <<< 8).toNat / 2 ^ 6 % 64 = b.toNat % 16 * 4 := by
    rw [toNat_shiftLeft_eight, toNat_shiftIn]; omega
  have hf := flush_pending (r ++ [Base64.char (a.toNat / 4)] ++
    [Base64.char (a.toNat % 4 * 16 + b.toNat / 16)]) (shiftIn (shiftIn v a) b) (k := 6) (by decide)
  rw [push_first, push_second, h1, h2]
  refine hf.trans ?_
  rw [h3]
  simp only [List.append_assoc, List.cons_append, List.nil_append]

theorem flush_one : (push ⟨r, v, -6⟩ a).flush =
    r ++ [Base64.char (a.toNat / 4), Base64.char (a.toNat % 4 * 16)] := by
  have ha := a.toNat_lt
  have h1 : (shiftIn v a).toNat / 4 % 64 = a.toNat / 4 := by
    rw [toNat_shiftIn]; omega
  have h2 : (shiftIn v a <<< 8).toNat / 2 ^ 4 % 64 = a.toNat % 4 * 16 := by
    rw [toNat_shiftLeft_eight, toNat_shiftIn]; omega
  have hf := flush_pending (r ++ [Base64.char (a.toNat / 4)]) (shiftIn v a) (k := 4) (by decide)
  rw [push_first, h1]
  refine hf.trans ?_
  rw [h2]
  simp only [List.append_assoc, List.cons_append, List.nil_append]

end Base64State

/-! ### The whole encoder -/

theorem base64Pad_of_full {r : Bytes} (h : r.length % 4 = 0) : base64Pad r = r := by
  rw [base64Pad, if_neg (by omega)]

theorem base64Pad_of_short {r : Bytes} (h : r.length % 4 ≠ 0) :
    base64Pad r = base64Pad (r ++ [61]) := by
  rw [base64Pad, if_pos h]

/-- From a state without pending bits the rest of the input is written as RFC 4648 has it. -/
theorem base64_loop (data r : Bytes) (v : BitVec 32) (h : r.length % 4 = 0) :
    base64Pad (data.foldl Base64State.push ⟨r, v, -6⟩).flush = r ++ Base64.encode data := by
  induction data using Base64.encode.induct generalizing r v with
  | case1 a b c rest ih =>
    rw [List.foldl_cons, List.foldl_cons, List.foldl_cons, Base64State.push_triple, ih _ _ (by
      simp only [List.length_append, List.length_cons, List.length_nil]; omega), List.append_assoc]
    rfl
  | case2 a b =>
    rw [List.foldl_cons, List.foldl_cons, List.foldl_nil, Base64State.flush_two,
      base64Pad_of_short
        (by simp only [List.length_append, List.length_cons, List.length_nil]; omega),
      base64Pad_of_full
        (by simp only [List.length_append, List.length_cons, List.length_nil]; omega),
      List.append_assoc]
    rfl
  | case3 a =>
    rw [List.foldl_cons, List.foldl_nil, Base64State.flush_one,
      base64Pad_of_short
        (by simp only [List.length_append, List.length_cons, List.length_nil]; omega),
      base64Pad_of_short
        (by simp only [List.length_append, List.length_cons, List.length_nil]; omega),
      base64Pad_of_full
        (by simp only [List.length_append, List.length_cons, List.length_nil]; omega),
      List.append_assoc, List.append_assoc]
    rfl
  | case4 =>
    rw [List.foldl_nil, show Base64State.flush ⟨r, v, -6⟩ = r from if_neg (by simp),
      base64Pad_of_full h]
    simp only [Base64.encode, List.append_nil]

/-- `base64_encode` is the encoding of RFC 4648. -/
theorem base64Encode_eq (data : Bytes) : base64Encode data = Base64.encode data :=
  base64_loop data [] 0 rfl

/-- The result of `base64_encode`: it decodes to the bytes, has `4 * ceil (n / 3)` characters, and
is a run of alphabet characters followed by `(3 - n mod 3) mod 3` padding characters. -/
theorem base64Encode_rfc4648 (data : Bytes) :
    Base64.decode (base64Encode data) = some data ∧
      (base64Encode data).length = 4 * ((data.length + 2) / 3) ∧
      ∃ body, (∀ c ∈ body, c ∈ Base64.alphabet) ∧ Base64.padChar ∉ body ∧
        base64Encode data =
          body ++ List.replicate ((3 - data.length % 3) % 3) Base64.padChar := by
  rw [base64Encode_eq]
  obtain ⟨body, hb, he⟩ := Base64.encode_shape data
  exact ⟨Base64.decode_encode data, Base64.length_encode data, body, hb,
    fun h => Base64.padChar_notMem (hb _ h), he⟩

end Kpacket
