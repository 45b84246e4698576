/-!
# Operations

What an evaluation does with the allocator under evaluation, one operation after the other.
-/

namespace BuddySystem

/-- A request for a number of bytes with an alignment. -/
structure Request where
  size : Nat
  align : Nat
  deriving DecidableEq

/-- An operation of an evaluation. -/
inductive Operation where
  | alloc (request : Request)
  /-- Gives back one of the blocks that are held. Its place is the number modulo the number of
  these blocks. -/
  | dealloc (index : Nat)
  deriving DecidableEq

end BuddySystem
