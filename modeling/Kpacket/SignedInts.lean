import Mathlib.Algebra.Group.Int.Defs
import Mathlib.Algebra.Group.Nat.Defs
import Mathlib.Data.List.Basic

/-!
# Signed integers of a fixed width

The operations of C++23 on a signed type of `w` bits, `none` where they are undefined: a sum that
does not fit, and a shift by an amount that is no bit position. A left shift drops the bits that do
not fit, of negative numbers too. Adding to the low bits that a shift has cleared never overflows
(`add_shiftLeft`): no carry leaves them, so the sign stays that of the shifted number.
-/

namespace SignedInts

variable {w : Nat}

/-- `n` as a value of the type. -/
def fit (w : Nat) (n : Int) : Option Int :=
  if -2 ^ (w - 1) ≤ n ∧ n < 2 ^ (w - 1) then some n else none

/-- `a + b` -/
def add (a b : BitVec w) : Option (BitVec w) := if a.saddOverflow b then none else some (a + b)

/-- `a << n` -/
def shiftLeft (a : BitVec w) (n : Int) : Option (BitVec w) :=
  if 0 ≤ n ∧ n < w then some (a <<< n.toNat) else none

/-- `a >> n` -/
def shiftRight (a : BitVec w) (n : Int) : Option (BitVec w) :=
  if 0 ≤ n ∧ n < w then some (a.sshiftRight n.toNat) else none

theorem fit_eq {n : Int} (hlo : -2 ^ (w - 1) ≤ n) (hhi : n < 2 ^ (w - 1)) : fit w n = some n :=
  if_pos ⟨hlo, hhi⟩

theorem shiftLeft_eq (a : BitVec w) {n : Int} (h0 : 0 ≤ n) (hn : n < w) :
    shiftLeft a n = some (a <<< n.toNat) :=
  if_pos ⟨h0, hn⟩

theorem shiftRight_eq (a : BitVec w) {n : Int} (h0 : 0 ≤ n) (hn : n < w) :
    shiftRight a n = some (a.sshiftRight n.toNat) :=
  if_pos ⟨h0, hn⟩

theorem getLsbD_of_lt {b : BitVec w} {k i : Nat} (hb : b.toNat < 2 ^ k) (hi : k ≤ i) :
    b.getLsbD i = false :=
  Nat.testBit_lt_two_pow (Nat.lt_of_lt_of_le hb (Nat.pow_le_pow_right Nat.two_pos hi))

theorem shiftLeft_and_eq_zero (a : BitVec w) {b : BitVec w} {k : Nat} (hb : b.toNat < 2 ^ k) :
    a <<< k &&& b = 0#w := by
  ext i hi
  simp only [BitVec.getElem_and, BitVec.getElem_shiftLeft, BitVec.getElem_zero]
  rcases Nat.lt_or_ge i k with hik | hik
  · simp [hik]
  · have hz := getLsbD_of_lt hb hik
    rw [BitVec.getLsbD_eq_getElem hi] at hz
    rw [hz, Bool.and_false]

theorem add_shiftLeft (a : BitVec w) {b : BitVec w} {k : Nat} (hk : k < w) (hb : b.toNat < 2 ^ k) :
    add (a <<< k) b = some (a <<< k + b) := by
  have hor := BitVec.add_eq_or_of_and_eq_zero (a <<< k) b (shiftLeft_and_eq_zero a hb)
  have hmsb : b.msb = false := by
    rw [BitVec.msb_eq_getLsbD_last]
    exact getLsbD_of_lt hb (by omega)
  have hno : (a <<< k).saddOverflow b = false := by
    rw [BitVec.saddOverflow_eq, hor, BitVec.msb_or, hmsb, Bool.or_false, beq_self_eq_true,
      Bool.not_true, Bool.and_false]
  rw [add, hno, if_neg Bool.false_ne_true]

end SignedInts
