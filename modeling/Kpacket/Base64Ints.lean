import Kpacket.Base64Encode
import Kpacket.SignedInts
import Mathlib.Data.List.Induction

/-!
# The arithmetic of `base64_encode`

The encoder once more, with each operation on its two `int`s and on its table done only where it is
defined, and with a bound on the turns of the inner loop. It never stops: its result is that of the
encoder (`base64Encode_defined`). Nothing is needed of the accumulator; the counter takes three
values in turn (`valb_push`).
-/

namespace Kpacket

/-- `chars[(val >> shift) & 0x3F]` -/
def base64CharChecked (val : BitVec 32) (shift : Int) : Option UInt8 := do
  let sextet ← SignedInts.shiftRight val shift
  base64Chars[(sextet &&& 0x3F).toNat]?

namespace Base64State

/-- `while (valb >= 0)`, for so many turns at most. -/
def drainChecked (turns : Nat) (st : Base64State) : Option Base64State :=
  if 0 ≤ st.valb then
    match turns with
    | 0 => none
    | turns + 1 => do
      let c ← base64CharChecked st.val st.valb
      let valb ← SignedInts.fit 32 (st.valb - 6)
      drainChecked turns { st with result := st.result ++ [c], valb := valb }
  else some st

def pushChecked (turns : Nat) (st : Base64State) (c : UInt8) : Option Base64State := do
  let val ← SignedInts.shiftLeft st.val 8
  let val ← SignedInts.add val (BitVec.ofNat 32 c.toNat)
  let valb ← SignedInts.fit 32 (st.valb + 8)
  drainChecked turns { st with val := val, valb := valb }

def flushChecked (st : Base64State) : Option Bytes :=
  if st.valb > -6 then do
    let val ← SignedInts.shiftLeft st.val 8
    let shift ← SignedInts.fit 32 (st.valb + 8)
    let c ← base64CharChecked val shift
    return st.result ++ [c]
  else some st.result

end Base64State

def base64EncodeChecked (turns : Nat) (data : Bytes) : Option Bytes := do
  let st ← data.foldlM (Base64State.pushChecked turns) {}
  let result ← st.flushChecked
  return base64Pad result

/-! ### One operation, one loop -/

theorem base64CharChecked_eq (val : BitVec 32) {shift : Int} (h0 : 0 ≤ shift) (h : shift < 32) :
    base64CharChecked val shift = some (base64Char val shift) := by
  have hlt : (val.sshiftRight shift.toNat &&& 0x3F).toNat < base64Chars.length := by
    rw [BitVec.toNat_and]
    exact Nat.lt_succ_of_le Nat.and_le_right
  rw [base64CharChecked, SignedInts.shiftRight_eq val h0 h, base64Char, List.getD,
    List.getElem?_eq_getElem hlt]
  exact List.getElem?_eq_getElem hlt

namespace Base64State

theorem drainChecked_eq {turns : Nat} {st : Base64State} (hlo : -6 ≤ st.valb)
    (hhi : st.valb < 32) (hturns : st.valb < 6 * turns) :
    st.drainChecked turns = some st.drain := by
  induction turns generalizing st with
  | zero => rw [drainChecked, drain, if_neg (by omega), if_neg (by omega)]
  | succ turns ih =>
    rw [drainChecked, drain]
    split_ifs with h0
    · rw [base64CharChecked_eq st.val h0 hhi, SignedInts.fit_eq (by omega) (by omega)]
      exact ih (show -6 ≤ st.valb - 6 by omega) (show st.valb - 6 < 32 by omega)
        (show st.valb - 6 < 6 * turns by omega)
    · rfl

theorem pushChecked_eq (turns : Nat) {st : Base64State} (hlo : -6 ≤ st.valb) (hhi : st.valb ≤ -2)
    (c : UInt8) : st.pushChecked (turns + 2) c = some (st.push c) := by
  have hc : (BitVec.ofNat 32 c.toNat).toNat < 2 ^ 8 := by
    have := c.toNat_lt
    rw [BitVec.toNat_ofNat]
    omega
  rw [pushChecked, SignedInts.shiftLeft_eq st.val (by decide) (by decide)]
  simp only [Option.bind_eq_bind, Option.bind_some]
  rw [show (8 : Int).toNat = 8 from rfl, SignedInts.add_shiftLeft st.val (by decide) hc,
    SignedInts.fit_eq (by omega) (by omega)]
  exact drainChecked_eq (show -6 ≤ st.valb + 8 by omega) (show st.valb + 8 < 32 by omega)
    (show st.valb + 8 < 6 * (turns + 2 : Nat) by omega)

theorem flushChecked_eq {st : Base64State} (hhi : st.valb ≤ -2) :
    st.flushChecked = some st.flush := by
  rw [flushChecked, flush]
  split_ifs with h
  · rw [SignedInts.shiftLeft_eq st.val (by decide) (by decide),
      SignedInts.fit_eq (by omega) (by omega)]
    simp only [Option.bind_eq_bind, Option.bind_some]
    rw [base64CharChecked_eq _ (by omega) (by omega)]
    rfl
  · rfl

/-! ### The counter -/

/-- `valb` after so many bytes: -6, -4, -2 and again -6. -/
def valbAfter (n : Nat) : Int := 2 * (n % 3 : Nat) - 6

theorem valb_push {st : Base64State} {n : Nat} (h : st.valb = valbAfter n) (c : UInt8) :
    (st.push c).valb = valbAfter (n + 1) := by
  obtain ⟨result, val, valb⟩ := st
  obtain rfl : valb = valbAfter n := h
  have hn : n % 3 = 0 ∨ n % 3 = 1 ∨ n % 3 = 2 := by omega
  unfold valbAfter
  rcases hn with hn | hn | hn
  · rw [hn, show (n + 1) % 3 = 1 by omega]
    exact congrArg Base64State.valb (push_first result val c)
  · rw [hn, show (n + 1) % 3 = 2 by omega]
    exact congrArg Base64State.valb (push_second result val c)
  · rw [hn, show (n + 1) % 3 = 0 by omega]
    exact congrArg Base64State.valb (push_third result val c)

theorem valb_foldl (data : Bytes) : (data.foldl push {}).valb = valbAfter data.length := by
  induction data using List.reverseRecOn with
  | nil => rfl
  | append_singleton data c ih =>
    rw [List.foldl_append, List.length_append]
    exact valb_push ih c

theorem foldlM_pushChecked (turns : Nat) (data : Bytes) :
    data.foldlM (pushChecked (turns + 2)) {} = some (data.foldl push {}) := by
  induction data using List.reverseRecOn with
  | nil => rfl
  | append_singleton data c ih =>
    have hv := valb_foldl data
    unfold valbAfter at hv
    rw [List.foldlM_append, ih, List.foldl_append]
    simp only [Option.bind_eq_bind, Option.bind_some, List.foldlM_cons, List.foldl_cons,
      List.foldlM_nil, List.foldl_nil]
    rw [pushChecked_eq turns (by omega) (by omega)]
    rfl

end Base64State

/-- The encoder with checked operations, and with at least two turns for each inner loop, runs
through: after any number of bytes the counter is as it should be, and the result is that of the
encoder. -/
theorem base64Encode_defined (turns : Nat) (data : Bytes) :
    (∀ n, ∃ st, (data.take n).foldlM (Base64State.pushChecked (turns + 2)) {} = some st ∧
        st.valb = Base64State.valbAfter (data.take n).length) ∧
      base64EncodeChecked (turns + 2) data = some (base64Encode data) := by
  refine ⟨fun n => ?_, ?_⟩
  · exact ⟨_, Base64State.foldlM_pushChecked turns (data.take n), Base64State.valb_foldl _⟩
  · have hv := Base64State.valb_foldl data
    unfold Base64State.valbAfter at hv
    rw [base64EncodeChecked, Base64State.foldlM_pushChecked]
    simp only [Option.bind_eq_bind, Option.bind_some]
    rw [Base64State.flushChecked_eq (by omega)]
    rfl

end Kpacket
