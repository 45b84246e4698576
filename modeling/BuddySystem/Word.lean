import BuddySystem.Fault

/-!
# Machine words

Sizes, addresses and indices are natural numbers below `Word.bound`, the number of values of a
64-bit word. The operations here are the ones on words whose result may not be a word. Those
named for an arithmetic operation fault in that case, those ending in `?` have no result.
-/

namespace BuddySystem.Word

-- A power is the one of natural numbers also where there are powers in every monoid.
attribute [instance (high)] instPowNat

/-- The number of bits of a word. -/
abbrev bits : Nat := 64

/-- The least number that is not a word. -/
abbrev bound : Nat := 2 ^ (64 : Nat)

/-- The sum of two words. -/
def add (left right : Nat) : Checked Nat :=
  if left + right < bound then .ok (left + right) else .error .overflow

/-- The difference of two words. -/
def sub (left right : Nat) : Checked Nat :=
  if right ≤ left then .ok (left - right) else .error .overflow

/-- The product of two words. -/
def mul (left right : Nat) : Checked Nat :=
  if left * right < bound then .ok (left * right) else .error .overflow

/-- A word moved up by `count` bits. The distance has to be below the width of a word; bits
that leave the word at its upper end are lost. -/
def shiftLeft (word count : Nat) : Checked Nat :=
  if count < bits then .ok (word <<< count % bound) else .error .overflow

/-- The remainder of two words; there is none by zero. -/
def rem (left right : Nat) : Checked Nat :=
  if right = 0 then .error .overflow else .ok (left % right)

/-- The sum of two words, if it is a word. -/
def add? (left right : Nat) : Option Nat :=
  if left + right < bound then some (left + right) else none

/-- The word that is reached from `word` by a signed distance, counting modulo `bound`. -/
def offset (word : Nat) (distance : Int) : Nat :=
  ((word + distance) % bound).toNat

/-- The word without the bit `index`. -/
def clearBit (word index : Nat) : Nat :=
  if word.testBit index then word - 2 ^ index else word

/-! ## Powers of two -/

/-- Whether the number is a power of two. Zero is none. -/
def isPowerOfTwo (n : Nat) : Bool :=
  n ≠ 0 && 2 ^ n.log2 == n

/-- The least power of two that is no less than `n`. -/
def powerOfTwoFrom (n : Nat) : Nat :=
  if n ≤ 1 then 1 else 2 ^ ((n - 1).log2 + 1)

/-- The least power of two that is no less than `n`, if it is a word. -/
def powerOfTwoFrom? (n : Nat) : Option Nat :=
  if powerOfTwoFrom n < bound then some (powerOfTwoFrom n) else none

/-! ## Rounding -/

/-- The least multiple of `unit` that is no less than `n`. -/
def roundUp (n unit : Nat) : Nat :=
  (n + (unit - 1)) / unit * unit

/-- The least multiple of `unit` that is no less than `n`, as far as it can be computed with
words: the sum of `n` and `unit - 1` has to be one. -/
def roundUp? (n unit : Nat) : Option Nat :=
  if n + (unit - 1) < bound then some (roundUp n unit) else none

end BuddySystem.Word
