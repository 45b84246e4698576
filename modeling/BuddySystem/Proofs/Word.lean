import BuddySystem.Word
import Mathlib.Data.Nat.Bitwise
import Mathlib.Data.Nat.Log

/-!
# Powers of two among words

`Word.powerOfTwoFrom` is the power of two whose exponent is the rounded-up binary logarithm, so
comparing it with a power of two compares its argument with it. The words that are multiples of
`2 ^ k` are written `index * 2 ^ k`; on them, flipping and clearing the bit `k` act on the index.
-/

namespace BuddySystem.Word

/-- Exactly the powers of two pass the test for them. -/
theorem isPowerOfTwo_iff {n : Nat} : isPowerOfTwo n = true ↔ ∃ k, n = 2 ^ k := by
  simp only [isPowerOfTwo, Bool.and_eq_true, decide_eq_true_eq, beq_iff_eq]
  constructor
  · intro hpower
    obtain ⟨-, h⟩ := hpower
    exact ⟨n.log2, h.symm⟩
  · intro hpower
    obtain ⟨k, rfl⟩ := hpower
    exact ⟨(Nat.two_pow_pos k).ne', by rw [Nat.log2_two_pow]⟩

/-- The least power of two from a number on has the number's rounded-up logarithm. -/
theorem powerOfTwoFrom_eq (n : Nat) : powerOfTwoFrom n = 2 ^ Nat.clog 2 n := by
  unfold powerOfTwoFrom
  split
  · next h => rw [Nat.clog_of_right_le_one h, Nat.pow_zero]
  · next h =>
      congr 1
      apply Nat.le_antisymm
      · by_contra hlt
        have hle : n ≤ 2 ^ (n - 1).log2 := by
          apply (Nat.clog_le_iff_le_pow Nat.one_lt_two).1
          omega
        have hself := Nat.log2_self_le (n := n - 1) (by omega)
        omega
      · apply Nat.clog_le_of_le_pow
        have hlt := Nat.lt_log2_self (n := n - 1)
        omega

/-- A power of two bounds a number exactly when it bounds the least power of two from it on. -/
theorem powerOfTwoFrom_le_two_pow {n k : Nat} : powerOfTwoFrom n ≤ 2 ^ k ↔ n ≤ 2 ^ k := by
  rw [powerOfTwoFrom_eq, Nat.pow_le_pow_iff_right Nat.one_lt_two,
    Nat.clog_le_iff_le_pow Nat.one_lt_two]

theorem le_powerOfTwoFrom (n : Nat) : n ≤ powerOfTwoFrom n := by
  rw [powerOfTwoFrom_eq]
  exact Nat.le_pow_clog Nat.one_lt_two n

/-- A power of two divides the greater one of it and another. -/
theorem two_pow_dvd_max (j k : Nat) : 2 ^ j ∣ max (2 ^ j) (2 ^ k) := by
  rcases Nat.le_total k j with hle | hle
  · rw [Nat.max_eq_left (Nat.pow_le_pow_right Nat.two_pos hle)]
  · rw [Nat.max_eq_right (Nat.pow_le_pow_right Nat.two_pos hle)]
    exact Nat.pow_dvd_pow 2 hle

theorem le_roundUp {n unit : Nat} (h : 0 < unit) : n ≤ roundUp n unit := by
  have hlt := Nat.lt_div_mul_add h (a := n + (unit - 1))
  rw [roundUp]
  omega

theorem dvd_roundUp (n unit : Nat) : unit ∣ roundUp n unit :=
  Nat.dvd_mul_left _ _

/-- Rounding a word up to a power of two overflows exactly if the sum on the way does. -/
theorem roundUp_lt_bound_iff {n : Nat} (h : 0 < n) (k : Nat) :
    roundUp n (2 ^ k) < bound ↔ n + (2 ^ k - 1) < bound := by
  have hunit := Nat.two_pow_pos k
  rcases Nat.lt_or_ge k 64 with hlt | hge
  · have hbound : bound = 2 ^ (64 - k) * 2 ^ k := by
      rw [← Nat.pow_add, Nat.sub_add_cancel hlt.le]
    rw [roundUp, hbound, Nat.mul_lt_mul_right hunit, Nat.div_lt_iff_lt_mul hunit]
  · -- A unit that is no word is too large for both sides.
    have hbound : bound ≤ 2 ^ k := Nat.pow_le_pow_right Nat.two_pos hge
    have hle : 2 ^ k ≤ roundUp n (2 ^ k) :=
      Nat.le_of_dvd (Nat.lt_of_lt_of_le h (le_roundUp hunit)) (dvd_roundUp n _)
    omega

/-- Rounding up to a power of two fails only if the result is not a word. -/
theorem roundUp?_eq {n : Nat} (h : 0 < n) (k : Nat) :
    roundUp? n (2 ^ k) = if roundUp n (2 ^ k) < bound then some (roundUp n (2 ^ k)) else none := by
  simp only [roundUp?, roundUp_lt_bound_iff h]

theorem roundUp_lt_add {unit : Nat} (h : 0 < unit) (n : Nat) : roundUp n unit < n + unit := by
  have hle := Nat.div_mul_le_self (n + (unit - 1)) unit
  rw [roundUp]
  omega

/-- The difference to a part of a sum is the rest of it. -/
theorem sub_add_left (left right : Nat) : sub (left + right) left = .ok right := by
  rw [sub, if_pos (Nat.le_add_right _ _), Nat.add_sub_cancel_left]

theorem eq_of_sub_eq_ok {left right difference : Nat} (h : sub left right = .ok difference) :
    difference = left - right := by
  unfold sub at h
  split at h <;> cases h
  rfl

/-- The word with a single bit set. -/
theorem shiftLeft_one {count : Nat} (h : count < bits) : shiftLeft 1 count = .ok (2 ^ count) := by
  rw [shiftLeft, if_pos h, Nat.shiftLeft_eq, Nat.one_mul,
    Nat.mod_eq_of_lt (Nat.pow_lt_pow_right Nat.one_lt_two h)]

theorem clearBit_le (word index : Nat) : clearBit word index ≤ word := by
  rw [clearBit]
  split
  · exact Nat.sub_le _ _
  · exact Nat.le_refl _

/-! ## Single bits of multiples -/

/-- The lowest bit of the index is the bit that the multiple has at the exponent. -/
theorem testBit_mul_two_pow (index k : Nat) :
    (index * 2 ^ k).testBit k = decide (index % 2 = 1) := by
  rw [Nat.testBit_eq_decide_div_mod_eq, Nat.mul_div_cancel _ (Nat.two_pow_pos k)]

/-- Clearing the lowest bit that may be set of a multiple halves the index, rounded down. -/
theorem clearBit_mul_two_pow (index k : Nat) :
    clearBit (index * 2 ^ k) k = index / 2 * 2 ^ (k + 1) := by
  have hpow : index / 2 * 2 ^ (k + 1) = (2 * (index / 2)) * 2 ^ k := by
    rw [Nat.pow_succ', Nat.mul_left_comm, Nat.mul_assoc]
  rw [clearBit, testBit_mul_two_pow, hpow]
  by_cases hodd : index % 2 = 1
  · have hindex : index = 2 * (index / 2) + 1 := by omega
    rw [decide_eq_true hodd, if_pos rfl]
    conv_lhs => rw [hindex]
    rw [Nat.add_mul, Nat.one_mul, Nat.add_sub_cancel]
  · have hindex : index = 2 * (index / 2) := by omega
    rw [decide_eq_false hodd, if_neg Bool.false_ne_true, ← hindex]

/-- Flipping the lowest bit that may be set of a multiple flips the last bit of the index. -/
theorem xor_mul_two_pow (index k : Nat) :
    (index * 2 ^ k) ^^^ 2 ^ k = (index ^^^ 1) * 2 ^ k := by
  rw [← Nat.shiftLeft_eq, ← Nat.shiftLeft_eq, Nat.shiftLeft_xor_distrib, Nat.one_shiftLeft]

/-- Flipping the lowest bit of an index leads to its neighbour in the pair that it belongs to. -/
theorem xor_one (index : Nat) :
    index ^^^ 1 = if index % 2 = 1 then index - 1 else index + 1 := by
  split
  · next h => exact Nat.xor_one_of_odd (Nat.odd_iff.2 h)
  · next h => exact Nat.xor_one_of_even (Nat.even_iff.2 (by omega))

end BuddySystem.Word
