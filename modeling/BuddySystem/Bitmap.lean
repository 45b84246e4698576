import BuddySystem.Layout

/-!
# Bitmaps

A bitmap of a fixed number of bits, stored in 64-bit words from the lowest bit upwards. The
bits of the last word that lie past the end are clear, so whole words can be tested by `any`.
-/

namespace BuddySystem

/-- The number of words that hold `bits` bits. -/
def Bitmap.wordCount (bits : Nat) : Nat :=
  bits / Word.bits + (if bits % Word.bits = 0 then 0 else 1)

/-- A bitmap of `bits` bits. -/
structure Bitmap (bits : Nat) where
  words : Vector UInt64 (Bitmap.wordCount bits)
  deriving DecidableEq

namespace Bitmap

/-- The layout of the storage for `bits` bits. -/
def layout? (bits : Nat) : Option Layout :=
  Layout.array? (wordCount bits) 8 8

/-- The bitmap over this storage with every bit clear, whatever the storage holds. A bitmap has
at least one bit. -/
def clear {bits : Nat} (storage : Vector UInt64 (wordCount bits)) : Checked (Bitmap bits) := do
  Checked.require (0 < bits) .violated
  return ⟨storage.map fun _ => 0⟩

/-- The word that holds a bit is one of the bitmap's words. -/
theorem div_lt_wordCount {index bits : Nat} (h : index < bits) :
    index / Word.bits < wordCount bits := by
  simp only [wordCount, Word.bits]
  split <;> omega

/-- The word with a single bit set that picks out the bit `index`. -/
def mask (index : Nat) : UInt64 :=
  (1 : UInt64) <<< (index % Word.bits).toUInt64

variable {bits : Nat}

/-- The value of the bit `index`. -/
def get (map : Bitmap bits) (index : Nat) : Checked Bool :=
  if h : index < bits then
    have := div_lt_wordCount h
    .ok (map.words[index / Word.bits] &&& mask index != 0)
  else
    .error .violated

/-- The bitmap with the bit `index` set to `value`. -/
def set (map : Bitmap bits) (index : Nat) (value : Bool) : Checked (Bitmap bits) :=
  if h : index < bits then
    have := div_lt_wordCount h
    let word := map.words[index / Word.bits]
    let changed := if value then word ||| mask index else word &&& ~~~mask index
    .ok ⟨map.words.set (index / Word.bits) changed⟩
  else
    .error .violated

/-- Whether any bit is set. -/
def any (map : Bitmap bits) : Bool :=
  map.words.any (· != 0)

end Bitmap

end BuddySystem
