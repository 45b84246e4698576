import BuddySystem.Bitmap
import BuddySystem.FreeLists

/-!
# Configurations

A configuration fixes the size of an arena and of its smallest blocks. Both are powers of two, so
it is given by their exponents. Everything that follows from these two numbers is computed here:
the tree of blocks with the numbers of its nodes, the order of the block that serves a request,
and the region that holds an arena together with its bookkeeping.

The blocks of order `k` are the runs of `2 ^ k` leaves that start at a multiple of `2 ^ k`. The
nodes of the tree are numbered level by level from the root, which is node 0, so the children of
node `i` are the nodes `2 * i + 1` and `2 * i + 2`.
-/

namespace BuddySystem

/-- The size of an arena and of its smallest blocks. -/
structure Config where
  /-- The smallest blocks have `2 ^ blockBits` bytes. -/
  blockBits : Nat
  /-- The whole arena is a block of this order. -/
  maxOrder : Nat
  /-- The arena is larger than its smallest blocks. -/
  maxOrder_pos : 0 < maxOrder
  /-- The size of the arena is a word. -/
  bits_lt : blockBits + maxOrder < Word.bits
  deriving DecidableEq

namespace Config

/-- The configuration with these sizes in bytes. Both have to be powers of two, the first the
greater one. -/
def ofSizes? (capacity blockSize : Nat) : Option Config :=
  let blockBits := blockSize.log2
  let maxOrder := capacity.log2 - blockBits
  if h : 0 < maxOrder ∧ blockBits + maxOrder < Word.bits ∧
      blockSize = 2 ^ blockBits ∧ capacity = 2 ^ (blockBits + maxOrder) then
    some ⟨blockBits, maxOrder, h.1, h.2.1⟩
  else
    none

/-- The size of the arena in bytes. -/
def capacity (config : Config) : Nat :=
  2 ^ (config.blockBits + config.maxOrder)

/-- The size of the smallest blocks in bytes. -/
def blockSize (config : Config) : Nat :=
  2 ^ config.blockBits

/-- The number of smallest blocks, which are the leaves of the tree. -/
def blockCount (config : Config) : Nat :=
  2 ^ config.maxOrder

/-- The number of nodes of the tree. -/
def nodeCount (config : Config) : Nat :=
  2 * config.blockCount - 1

/-- The greatest alignment that a request may ask for. The arena itself is aligned to it. -/
def maxAlign (config : Config) : Nat :=
  config.capacity

/-- The length in bytes of the blocks of an order. -/
def blockLen (config : Config) (order : Nat) : Checked Nat :=
  Word.shiftLeft config.blockSize order

/-! ## Requests -/

/-- The order of the block that serves a request, if a block can serve it. Its length is the
least power of two that is no less than the size, the alignment and the size of the smallest
blocks. -/
def order? (config : Config) (size align : Nat) : Option Nat := do
  guard (size ≠ 0 ∧ Word.isPowerOfTwo align ∧ align ≤ config.maxAlign)
  let len ← Word.powerOfTwoFrom? (max (max size align) config.blockSize)
  guard (len ≤ config.capacity)
  return (len / config.blockSize).log2

/-! ## The tree of blocks -/

/-- The number of the node of an order that starts at a leaf. The nodes of depth `d` have the
numbers from `2 ^ d - 1` on. -/
def node (config : Config) (leaf order : Nat) : Nat :=
  2 ^ (config.maxOrder - order) - 1 + leaf / 2 ^ order

/-- The number of the node of an order that starts at a leaf, for an order of the tree and a
leaf at which a block of it starts. -/
def checkedNode (config : Config) (leaf order : Nat) : Checked Nat := do
  Checked.require (order ≤ config.maxOrder) .violated
  Checked.require (leaf % 2 ^ order = 0) .violated
  Word.add (2 ^ (config.maxOrder - order) - 1) (leaf / 2 ^ order)

/-- The first leaf of the other half of the block that a block of this order is a half of. -/
def buddy (leaf order : Nat) : Nat :=
  leaf ^^^ 2 ^ order

/-! ## The region -/

/-- Where the arena and its bookkeeping lie in the region that holds them. The arena comes
first. -/
structure Region where
  /-- The layout of everything together. -/
  full : Layout
  /-- The offset of the bitmap of the nodes. -/
  nodesOffset : Nat
  /-- The offset of the links of the free lists. -/
  linksOffset : Nat
  deriving DecidableEq

/-- The region of an arena with its bookkeeping, if it has a layout. -/
def region? (config : Config) : Option Region := do
  let arena ← Layout.ofSize? config.capacity config.maxAlign
  let (withNodes, nodesOffset) ← arena.extend? (← Bitmap.layout? config.nodeCount)
  let (full, linksOffset) ← withNodes.extend? (← FreeLists.layout? config.blockCount)
  return ⟨full, nodesOffset, linksOffset⟩

end Config

end BuddySystem
