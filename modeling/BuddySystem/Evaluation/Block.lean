import BuddySystem.Evaluation.Memory
import BuddySystem.Evaluation.Operation

/-!
# Painted blocks

An allocated block is painted with a number, its id: the eight bytes of the id, lowest first, over
and over. A block whose bytes are still those of its id has not been overwritten.
-/

namespace BuddySystem

/-- The byte that painting with an id puts at a position of a block. -/
def paintByte (id : UInt64) (position : Nat) : UInt8 :=
  (id >>> (8 * (position % 8)).toUInt64).toUInt8

/-- Paints the bytes of a slice with an id. -/
def Memory.paint (memory : Memory) (slice : Slice) (id : UInt64) : Memory :=
  memory.fill slice.addr slice.len (paintByte id)

/-- An allocated block. -/
structure Block where
  slice : Slice
  /-- The request that it was allocated for. -/
  request : Request
  /-- The id that it was painted with last. -/
  id : UInt64
  deriving DecidableEq

namespace Block

/-- A block that is painted with an id for the first time. -/
def init (slice : Slice) (request : Request) (id : UInt64) (memory : Memory) : Block × Memory :=
  (⟨slice, request, id⟩, memory.paint slice id)

/-- Paints a block with another id. -/
def paint (block : Block) (id : UInt64) (memory : Memory) : Block × Memory :=
  ({ block with id }, memory.paint block.slice id)

/-- Whether a block has the bytes that it was painted with last. -/
def verify (block : Block) (memory : Memory) : Bool :=
  memory.holds block.slice.addr block.slice.len (paintByte block.id)

/-- Writes a byte at a position of a block. A position outside of the block is ignored. -/
def poke (block : Block) (position : Nat) (byte : UInt8) (memory : Memory) : Memory :=
  if position < block.slice.len then memory.write (block.slice.addr + position) byte else memory

end Block

end BuddySystem
