import BuddySystem.Config
import BuddySystem.Error
import BuddySystem.Focus
import BuddySystem.Span

/-!
# Arenas

An arena serves requests with blocks whose lengths are powers of two. Every block of the tree has
one bit: it is set while the block is allocated or split, and clear while the block is free or
part of a larger free or allocated block. The free blocks that are not part of a larger free
block are in the list for their order.

`Arena.allocate` takes the head of the first list from the order of the request upwards that is
not empty, and halves the block until it has the order of the request. The front half is kept,
the other one becomes free. `Arena.deallocate` makes a block free and joins it with its buddy for
as long as the buddy is free too.

Both are steps that check themselves as they go. A refused request or a rejected pointer is their
result, a failed check ends them.
-/

namespace BuddySystem

/-- The bookkeeping of an arena, and where its memory is. -/
structure Arena (config : Config) where
  /-- The memory that is handed out. -/
  span : Span
  /-- The layout of the region that was obtained for the arena and its bookkeeping. -/
  region : Layout
  /-- For every node of the tree, whether its block is allocated or split. -/
  nodes : Bitmap config.nodeCount
  /-- The free blocks of each order. -/
  free : FreeLists config.blockCount
  deriving DecidableEq

namespace Arena

variable {config : Config}

/-! ## Looking at an arena -/

/-- The number of free blocks of an order. -/
def freeBlocks (arena : Arena config) (order : Nat) : Except Abort Nat :=
  if order ≤ config.maxOrder then
    (arena.free.len order).mapError .fault
  else
    .error .orderOutOfRange

/-- The sum of the lengths of the free blocks. -/
def freeBytes (arena : Arena config) : Checked Nat :=
  (List.range (config.maxOrder + 1)).foldlM (fun total order => do
    Word.add total (← Word.mul (← arena.free.len order) (← config.blockLen order))) 0

/-- Whether nothing is allocated: the whole arena is one free block. -/
def isIdle (arena : Arena config) : Checked Bool := do
  return (← arena.free.len config.maxOrder) == 1 && !arena.nodes.any

/-- Breaks off unless nothing is allocated. -/
def requireIdle (arena : Arena config) : Except Abort Unit := do
  unless ← arena.isIdle.mapError .fault do
    throw (.notIdle (← arena.freeBytes.mapError .fault) config.capacity)

/-- Whether a pointer points into the arena. -/
def owns (arena : Arena config) (addr : Nat) : Bool :=
  arena.span.contains addr

/-! ## Allocation -/

/-- The free lists of an arena. -/
def freeLists : Focus (Arena config) (FreeLists config.blockCount) :=
  ⟨Arena.free, fun free arena => { arena with free }⟩

/-- Sets the bit of a node. -/
def mark (node : Nat) (used : Bool) : Step (Arena config) Unit := do
  let nodes ← (← get).nodes.set node used
  modify fun arena => { arena with nodes }

/-- The first of `count` orders from `order` upwards whose list is not empty. -/
def firstFree (arena : Arena config) (order : Nat) : Nat → Checked (Option Nat)
  | 0 => return none
  | count + 1 => do
      if ← arena.free.isEmpty order then
        arena.firstFree (order + 1) count
      else
        return some order

/-- Halves the block at a leaf so many times that it has the order `target`. Each back half
becomes free. -/
def split (leaf target : Nat) : Nat → Step (Arena config) Unit
  | 0 => return ()
  | levels + 1 => do
      let order := target + levels
      freeLists.run (FreeLists.push order (← Word.add leaf (← Word.shiftLeft 1 order)))
      mark (← config.checkedNode leaf order) true
      split leaf target levels

/-- Allocates `size` bytes aligned to `align`. -/
def allocate (size align : Nat) : Step (Arena config) (Except Refusal Slice) := do
  let some target := config.order? size align
    | return .error (.unsupported size align)
  let some order ← (← get).firstFree target (config.maxOrder + 1 - target)
    | return .error (.exhausted target)
  let some leaf ← freeLists.run (FreeLists.pop order)
    | return .error .vanished
  mark (← config.checkedNode leaf order) true
  split leaf target (order - target)
  let slice ← (← get).span.slice (← Word.mul leaf config.blockSize) size
  return .ok slice

/-! ## Deallocation -/

/-- Whether a child of a node is allocated or split. -/
def hasUsedChild (arena : Arena config) (node : Nat) : Checked Bool := do
  if ← arena.nodes.get (2 * node + 1) then
    return true
  arena.nodes.get (2 * node + 2)

/-- The leaf and the order of the allocated block that a pointer, a size and an alignment
describe. A block that is allocated has no child that is allocated or split, while a split block
always has one. -/
def locate (arena : Arena config) (addr size align : Nat) :
    Checked (Except Rejection (Nat × Nat)) := do
  unless arena.owns addr do
    return .error .notOwned
  let some order := config.order? size align
    | return .error .invalidLayout
  let offset ← arena.span.offsetOf addr
  unless (← Word.rem offset (← config.blockLen order)) = 0 do
    return .error .misaligned
  let leaf := offset / config.blockSize
  let node ← config.checkedNode leaf order
  unless ← arena.nodes.get node do
    return .error .notAllocated
  if order > 0 then
    if ← arena.hasUsedChild node then
      return .error .sizeMismatch
  return .ok (leaf, order)

/-- Makes a block free whose bit is clear already, joined with its buddy as long as there is a
free one. `node` is the number of the block, and `levels` tells how far the root is above it. -/
def coalesce (leaf order node : Nat) : Nat → Step (Arena config) Unit
  | 0 => freeLists.run (FreeLists.push order leaf)
  | levels + 1 => do
      let buddy := Config.buddy leaf order
      if ← (← get).nodes.get (← config.checkedNode buddy order) then
        freeLists.run (FreeLists.push order leaf)
      else
        freeLists.run (FreeLists.remove order buddy)
        let parent := (← Word.sub node 1) / 2
        mark parent false
        coalesce (Word.clearBit leaf order) (order + 1) parent levels

/-- Takes back the memory at a pointer that was allocated with this size and alignment. -/
def deallocate (addr size align : Nat) : Step (Arena config) (Except Rejection Unit) := do
  match ← (← get).locate addr size align with
  | .error reason => return .error reason
  | .ok (leaf, order) =>
      let node ← config.checkedNode leaf order
      mark node false
      coalesce leaf order node (config.maxOrder - order)
      return .ok ()

end Arena

end BuddySystem
