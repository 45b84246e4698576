import BuddySystem.Word

/-!
# Layouts of memory regions

A layout is a size together with an alignment. The alignment is a power of two, and the size
rounded up to the alignment stays within the signed half of the address space. Layouts are put
one after the other by `Layout.extend?`, with padding in between but none at the end.
-/

namespace BuddySystem

/-- The size and the alignment of a region of memory, in bytes. -/
structure Layout where
  size : Nat
  align : Nat
  deriving DecidableEq

namespace Layout

/-- The size rounded up to the alignment has to be less than this. -/
def sizeLimit : Nat := 2 ^ (63 : Nat)

/-- The layout of this size and alignment, if there is one. -/
def ofSize? (size align : Nat) : Option Layout :=
  if Word.isPowerOfTwo align && size ≤ sizeLimit - align then some ⟨size, align⟩ else none

/-- The layout of `count` entries of `size` bytes each, aligned to `align`. -/
def array? (count size align : Nat) : Option Layout :=
  ofSize? (count * size) align

/-- `second` placed behind `first` at the least offset that suits its alignment. Gives the
layout of both together and that offset. -/
def extend? (first second : Layout) : Option (Layout × Nat) := do
  let offset := Word.roundUp first.size second.align
  let size ← Word.add? offset second.size
  let both ← ofSize? size (max first.align second.align)
  return (both, offset)

end Layout

end BuddySystem
