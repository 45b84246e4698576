import BuddySystem.Layout

/-!
# Free lists

One list of free blocks per order, most recently added first. A block is known by its first
leaf. No two free blocks share a leaf, so one link per leaf is enough to thread every list, and
a block is taken out of the middle of its list without searching for it.

Links are 32-bit words. The greatest word, `LinkWord.nil`, stands for "no block", so there are at
most `LinkWord.maxLeaves` leaves. `FreeLists.toList` follows the links of one list and shows its
leaves.
-/

namespace BuddySystem

/-- The leaf of a block, or `LinkWord.nil`, as it is stored in a link. -/
abbrev LinkWord := UInt32

/-- The word that stands for "no block". -/
def LinkWord.nil : LinkWord := 0xFFFFFFFF

/-- Leaves are numbered below this, so that none of them is stored as `LinkWord.nil`. -/
def LinkWord.maxLeaves : Nat := LinkWord.nil.toNat

/-- The neighbours of a free block in its list. -/
structure Link where
  /-- The block before this one; `LinkWord.nil` at the head of the list. -/
  prev : LinkWord
  /-- The block behind this one; `LinkWord.nil` at the end of the list. -/
  next : LinkWord
  deriving DecidableEq

/-- The link of a block that is in no list, and of one that is alone in its list. -/
def Link.unlinked : Link := ⟨LinkWord.nil, LinkWord.nil⟩

/-- The number of orders for which there are lists. -/
def FreeLists.numOrders : Nat := Word.bits

/-- Free lists over `leaves` leaves. -/
structure FreeLists (leaves : Nat) where
  /-- The first block of each list. -/
  heads : Vector LinkWord FreeLists.numOrders
  /-- The length of each list. -/
  lens : Vector Nat FreeLists.numOrders
  /-- The link of each leaf. -/
  links : Vector Link leaves
  deriving DecidableEq

namespace FreeLists

/-- The layout of the links of `leaves` leaves. -/
def layout? (leaves : Nat) : Option Layout :=
  Layout.array? leaves 8 4

/-- The lists over `leaves` leaves when all of them are empty. -/
def empty (leaves : Nat) : FreeLists leaves where
  heads := Vector.replicate _ LinkWord.nil
  lens := Vector.replicate _ 0
  links := Vector.replicate _ Link.unlinked

/-- Empty lists, for a number of leaves that links can tell apart. -/
def create (leaves : Nat) : Checked (FreeLists leaves) := do
  Checked.require (0 < leaves ∧ leaves ≤ LinkWord.maxLeaves) .violated
  return empty leaves

theorem create_eq_ok {leaves : Nat} (h : 0 < leaves ∧ leaves ≤ LinkWord.maxLeaves) :
    create leaves = .ok (empty leaves) := by
  rw [create, Checked.require, if_pos h]
  rfl

variable {leaves : Nat}

/-! ## Reading -/

/-- The first block of the list for `order`. -/
def head (lists : FreeLists leaves) (order : Nat) : Checked LinkWord :=
  if h : order < numOrders then .ok lists.heads[order] else .error .outOfRange

/-- Whether the list for `order` is empty. -/
def isEmpty (lists : FreeLists leaves) (order : Nat) : Checked Bool := do
  return (← lists.head order) == LinkWord.nil

/-- The length of the list for `order`. -/
def len (lists : FreeLists leaves) (order : Nat) : Checked Nat :=
  if h : order < numOrders then .ok lists.lens[order] else .error .outOfRange

/-- The stored form of a leaf. -/
def word (_lists : FreeLists leaves) (leaf : Nat) : Checked LinkWord :=
  if leaf < leaves then .ok leaf.toUInt32 else .error .violated

/-- The link of the block that a stored leaf names. -/
def link (lists : FreeLists leaves) (leaf : LinkWord) : Checked Link :=
  if h : leaf.toNat < leaves then .ok lists.links[leaf.toNat] else .error .violated

/-- The leaves that are met on the way from `start` along at most `fuel` links. -/
def follow (lists : FreeLists leaves) : Nat → LinkWord → List Nat
  | 0, _ => []
  | fuel + 1, start =>
      if start = LinkWord.nil then [] else
        match lists.link start with
        | .ok link => start.toNat :: lists.follow fuel link.next
        | .error _ => []

/-- The leaves of the free blocks of an order, most recently added first. -/
def toList (lists : FreeLists leaves) (order : Nat) : List Nat :=
  match lists.head order with
  | .ok start => lists.follow leaves start
  | .error _ => []

/-! ## Changing single entries -/

/-- Puts a block at the head of the list for `order`, without touching any link. -/
def setHead (order : Nat) (leaf : LinkWord) : Step (FreeLists leaves) Unit := fun lists =>
  if h : order < numOrders then
    .ok () { lists with heads := lists.heads.set order leaf }
  else
    .error .outOfRange lists

/-- Replaces the length of the list for `order`. -/
def updateLen (order : Nat) (change : Nat → Checked Nat) : Step (FreeLists leaves) Unit :=
  fun lists =>
    if h : order < numOrders then
      match change lists.lens[order] with
      | .ok len => .ok () { lists with lens := lists.lens.set order len }
      | .error fault => .error fault lists
    else
      .error .outOfRange lists

/-- Replaces the link of the block that a stored leaf names. -/
def updateLink (leaf : LinkWord) (change : Link → Link) : Step (FreeLists leaves) Unit :=
  fun lists =>
    if h : leaf.toNat < leaves then
      .ok () { lists with links := lists.links.set leaf.toNat (change lists.links[leaf.toNat]) }
    else
      .error .violated lists

theorem run_setHead {order : Nat} (h : order < numOrders) (leaf : LinkWord)
    (lists : FreeLists leaves) :
    (setHead order leaf).run lists =
      .ok () { lists with heads := lists.heads.set order leaf } := by
  simp only [EStateM.run, setHead, dif_pos h]

theorem run_updateLen {order len : Nat} (h : order < numOrders) {change : Nat → Checked Nat}
    {lists : FreeLists leaves} (hlen : change lists.lens[order] = .ok len) :
    (updateLen order change).run lists =
      .ok () { lists with lens := lists.lens.set order len } := by
  simp only [EStateM.run, updateLen, dif_pos h, hlen]

theorem run_updateLink {leaf : LinkWord} (h : leaf.toNat < leaves) (change : Link → Link)
    (lists : FreeLists leaves) :
    (updateLink leaf change).run lists =
      .ok () { lists with
        links := lists.links.set leaf.toNat (change lists.links[leaf.toNat]) } := by
  simp only [EStateM.run, updateLink, dif_pos h]

/-! ## Adding and removing blocks -/

/-- Adds the block at `leaf` to the head of the list for `order`. -/
def push (order leaf : Nat) : Step (FreeLists leaves) Unit := do
  let added ← (← get).word leaf
  let oldHead ← (← get).head order
  if oldHead ≠ LinkWord.nil then
    updateLink oldHead fun link => { link with prev := added }
  updateLink added fun _ => ⟨LinkWord.nil, oldHead⟩
  setHead order added
  updateLen order (Word.add · 1)

/-- Takes the block at `leaf` out of the list for `order`, which has to contain it. A block
without a predecessor has to be the head of the list. -/
def remove (order leaf : Nat) : Step (FreeLists leaves) Unit := do
  let removed ← (← get).word leaf
  let ⟨prev, next⟩ ← (← get).link removed
  if prev = LinkWord.nil then
    Checked.require ((← (← get).head order) = removed) .violated
    setHead order next
  else
    updateLink prev fun link => { link with next }
  if next ≠ LinkWord.nil then
    updateLink next fun link => { link with prev }
  updateLink removed fun _ => Link.unlinked
  updateLen order (Word.sub · 1)

/-- Takes the head off the list for `order` and gives its leaf, or nothing if the list is
empty. -/
def pop (order : Nat) : Step (FreeLists leaves) (Option Nat) := do
  let first ← (← get).head order
  if first = LinkWord.nil then
    return none
  remove order first.toNat
  return some first.toNat

/-- Takes at most `most` blocks off the list for `order`, and gives their leaves. -/
def popAtMost (order : Nat) : Nat → Step (FreeLists leaves) (List Nat)
  | 0 => return []
  | most + 1 => do
      match ← pop order with
      | some leaf => return leaf :: (← popAtMost order most)
      | none => return []

/-- Takes blocks off the list for `order` until it is empty, and gives their leaves. Every block
that is taken makes the length smaller by one, so if there are more blocks than the length says, a
check fails at the first of them. -/
def drain (order : Nat) : Step (FreeLists leaves) (List Nat) := do
  popAtMost order ((← (← get).len order) + 1)

end FreeLists

end BuddySystem
