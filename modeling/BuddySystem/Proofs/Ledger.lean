import BuddySystem.Proofs.FreeLists
import BuddySystem.Proofs.Occupancy

/-!
# Ledgers

A ledger is an arena without bits and links: the set of the live blocks, and a plain list of free
leaves for every order. `Ledger.allocate` and `Ledger.deallocate` are the operations of an arena on
it, with membership in a list in place of the bit of a node.

The lists of a ledger are `Balanced` if they hold exactly the vacant nodes. An operation passes
through states in which one block is in hand, neither live nor in a list. The lemmas here say what
taking, halving, merging and putting back the block in hand do to the lists and to the used nodes;
they carry the proofs about arenas.
-/

namespace BuddySystem

open FreeLists Occupancy

/-- The live blocks, and for every order the leaves of the free blocks. -/
structure Ledger where
  live : Finset Node
  free : Contents

namespace Ledger

/-- The ledger in which the root is free. -/
def idle (maxOrder : Nat) : Ledger :=
  ⟨∅, Contents.add (fun _ => []) maxOrder 0⟩

/-- The first of `count` orders from `order` upwards whose list is not empty. -/
def firstFree (free : Contents) (order : Nat) : Nat → Option Nat
  | 0 => none
  | count + 1 => if (free order).isEmpty then firstFree free (order + 1) count else some order

/-- The free lists after the block at `leaf` was halved down to the order `target`. -/
def spill (leaf target : Nat) : Nat → Contents → Contents
  | 0, free => free
  | levels + 1, free =>
      spill leaf target levels (free.add (target + levels) (leaf + 2 ^ (target + levels)))

/-- The free lists after a block was put back, merged with its buddy as long as that one is
free. -/
def join (block : Node) : Nat → Contents → Contents
  | 0, free => free.add block.order block.leaf
  | levels + 1, free =>
      if block.buddy.leaf ∈ free block.order then
        join block.parent levels (free.remove block.order block.buddy.leaf)
      else
        free.add block.order block.leaf

/-- Makes a block of the order `target` live, and gives its leaf. -/
def allocate (maxOrder target : Nat) (ledger : Ledger) : Option (Nat × Ledger) := do
  let order ← firstFree ledger.free target (maxOrder + 1 - target)
  let leaf ← (ledger.free order).head?
  return (leaf, {
    live := insert ⟨leaf, target⟩ ledger.live
    free := spill leaf target (order - target) (ledger.free.remove order leaf) })

/-- Makes a live block free. -/
def deallocate (maxOrder : Nat) (block : Node) (ledger : Ledger) : Ledger where
  live := ledger.live.erase block
  free := join block (maxOrder - block.order) ledger.free

variable {maxOrder : Nat} {live filled : Finset Node} {free : Contents} {block : Node}

/-- The lists hold exactly the vacant nodes. -/
structure Balanced (maxOrder : Nat) (live : Finset Node) (free : Contents) : Prop where
  nodup : ∀ order, (free order).Nodup
  mem_iff : ∀ node : Node, node.leaf ∈ free node.order ↔ Vacant maxOrder live node

/-! ## Searching -/

/-- The order that is found is the first one with a block. -/
theorem firstFree_eq_some {order count found : Nat} (h : firstFree free order count = some found) :
    order ≤ found ∧ found < order + count ∧ free found ≠ [] := by
  induction count generalizing order with
  | zero => simp [firstFree] at h
  | succ count ih =>
      rw [firstFree] at h
      split at h
      · obtain ⟨hle, hlt, hne⟩ := ih h
        exact ⟨by omega, by omega, hne⟩
      · next hne =>
          obtain rfl : order = found := Option.some.inj h
          exact ⟨Nat.le_refl _, by omega, by simpa using hne⟩

/-- If no order is found, the lists of all orders that were searched are empty. -/
theorem firstFree_eq_none {order count : Nat} (h : firstFree free order count = none) :
    ∀ k, order ≤ k → k < order + count → free k = [] := by
  induction count generalizing order with
  | zero => intro k hle hlt; omega
  | succ count ih =>
      intro k hle hlt
      rw [firstFree] at h
      split at h
      · next hempty =>
          by_cases heq : k = order
          · rw [heq]
            simpa using hempty
          · exact ih h k (by omega) (by omega)
      · simp at h

/-! ## Lists and vacant nodes -/

/-- The lists of an idle arena are balanced: only the root is vacant, and only it is listed. -/
theorem balanced_idle (maxOrder : Nat) :
    Balanced maxOrder ∅ (Contents.add (fun _ => []) maxOrder 0) where
  nodup := Contents.nodup_add (fun _ => List.nodup_nil) List.not_mem_nil
  mem_iff node := by
    -- Nothing is live, so only the root has no parent that would have to be touched.
    simp only [Contents.mem_add, List.not_mem_nil, or_false]
    constructor
    · intro hroot
      obtain ⟨hleaf, horder⟩ := hroot
      obtain rfl : node = Node.root maxOrder := by
        obtain ⟨leaf, order⟩ := node
        simp only at hleaf horder
        rw [hleaf, horder, Node.root]
      exact ⟨Node.root_inTree maxOrder, not_touched_empty, .inl rfl⟩
    · intro hvacant
      obtain ⟨hnode, -, horder | htouched⟩ := hvacant
      · have heq := hnode.inside_root.eq_of_order_le (Nat.le_of_eq horder.symm)
        exact ⟨congrArg Node.leaf heq, horder⟩
      · exact absurd htouched not_touched_empty

/-- The leaf of a block that can become free is in no list. -/
theorem Balanced.not_mem (h : Balanced maxOrder filled free) (hblock : Vacant maxOrder live block)
    (hfill : ∀ c, Touched filled c ↔ Touched live c ∨ block.Overlaps c) (order : Nat) :
    block.leaf ∉ free order := by
  intro hmem
  obtain ⟨hvacant, hne⟩ := (hblock.fill_iff hfill).1 ((h.mem_iff ⟨block.leaf, order⟩).1 hmem)
  -- Both nodes start at the same leaf.
  have hover : Node.Overlaps ⟨block.leaf, order⟩ block :=
    ⟨block.leaf_lt_stop, Node.leaf_lt_stop ⟨block.leaf, order⟩⟩
  exact hne (hvacant.eq_of_overlaps hblock hover)

/-- Filling a vacant block takes it off its list. -/
theorem Balanced.fill (h : Balanced maxOrder live free) (hblock : Vacant maxOrder live block)
    (hfill : ∀ c, Touched filled c ↔ Touched live c ∨ block.Overlaps c) :
    Balanced maxOrder filled (free.remove block.order block.leaf) where
  nodup := Contents.nodup_remove h.nodup
  mem_iff node := by
    rw [Contents.mem_remove (h.nodup block.order), h.mem_iff, hblock.fill_iff hfill, ne_eq]
    obtain ⟨leaf, order⟩ := node
    obtain ⟨bleaf, border⟩ := block
    rw [Node.mk.injEq]

/-- A block that becomes vacant is put into its list. -/
theorem Balanced.vacate (h : Balanced maxOrder filled free) (hblock : Vacant maxOrder live block)
    (hfill : ∀ c, Touched filled c ↔ Touched live c ∨ block.Overlaps c) :
    Balanced maxOrder live (free.add block.order block.leaf) where
  nodup := Contents.nodup_add h.nodup (h.not_mem hblock hfill block.order)
  mem_iff node := by
    rw [Contents.mem_add, h.mem_iff, hblock.fill_iff hfill]
    have heq : node.leaf = block.leaf ∧ node.order = block.order ↔ node = block := by
      obtain ⟨leaf, order⟩ := node
      obtain ⟨bleaf, border⟩ := block
      rw [Node.mk.injEq]
    rw [heq]
    constructor
    · intro h
      rcases h with rfl | ⟨hvacant, -⟩
      · exact hblock
      · exact hvacant
    · intro hvacant
      by_cases hnode : node = block
      · exact .inl hnode
      · exact .inr ⟨hvacant, hnode⟩

/-! ## Allocating -/

/-- What is allocated is the front of the first block of the first list that has one. -/
theorem allocate_eq_some {ledger rest : Ledger} {target leaf : Nat}
    (h : ledger.allocate maxOrder target = some (leaf, rest)) :
    ∃ levels tail, firstFree ledger.free target (maxOrder + 1 - target) = some (target + levels) ∧
      ledger.free (target + levels) = leaf :: tail ∧
      rest = ⟨insert ⟨leaf, target⟩ ledger.live,
        spill leaf target levels (ledger.free.remove (target + levels) leaf)⟩ := by
  simp only [allocate, Option.bind_eq_bind, Option.pure_def, Option.bind_eq_some_iff,
    Option.some.injEq, Prod.mk.injEq] at h
  obtain ⟨order, hfound, first, hfirst, rfl, rfl⟩ := h
  obtain ⟨levels, rfl⟩ := Nat.exists_eq_add_of_le (firstFree_eq_some hfound).1
  obtain ⟨tail, htail⟩ := List.head?_eq_some_iff.1 hfirst
  exact ⟨levels, tail, hfound, htail, by rw [Nat.add_sub_cancel_left]⟩

/-- Nothing is allocated only if every list that could be used is empty. -/
theorem firstFree_of_allocate_eq_none {ledger : Ledger} {target : Nat}
    (h : ledger.allocate maxOrder target = none) :
    firstFree ledger.free target (maxOrder + 1 - target) = none := by
  cases hfound : firstFree ledger.free target (maxOrder + 1 - target) with
  | none => rfl
  | some order =>
      obtain ⟨-, -, hne⟩ := firstFree_eq_some hfound
      obtain ⟨leaf, tail, hcons⟩ := List.exists_cons_of_ne_nil hne
      simp [allocate, hfound, hcons] at h

/-- The block that is allocated shares no leaf with a live one. -/
theorem Balanced.of_allocate {ledger rest : Ledger} {target leaf : Nat}
    (hfree : Balanced maxOrder ledger.live ledger.free)
    (h : ledger.allocate maxOrder target = some (leaf, rest)) :
    rest.live = insert ⟨leaf, target⟩ ledger.live ∧
      (Node.mk leaf target).InTree maxOrder ∧ ¬Touched ledger.live ⟨leaf, target⟩ := by
  obtain ⟨levels, tail, -, htail, rfl⟩ := allocate_eq_some h
  have hvacant := (hfree.mem_iff ⟨leaf, target + levels⟩).1 (by simp [htail])
  obtain ⟨hnode, hin⟩ := Node.front_inside hvacant.inTree
  exact ⟨rfl, hnode, fun htouched => hvacant.not_touched (htouched.mono hin)⟩

/-- A block is found unless every block of the order has a live leaf. -/
theorem Balanced.allocate_eq_none_iff {ledger : Ledger} {target : Nat}
    (hfree : Balanced maxOrder ledger.live ledger.free) :
    ledger.allocate maxOrder target = none ↔
      ∀ node : Node, node.InTree maxOrder → node.order = target → Touched ledger.live node := by
  constructor
  · intro hnone node hnode horder
    by_contra huntouched
    obtain ⟨c, hc, hin⟩ := exists_vacant hnode huntouched
    have hmem := (hfree.mem_iff c).2 hc
    have hle := hin.order_le
    have hmax := hc.inTree.1
    rw [firstFree_eq_none (firstFree_of_allocate_eq_none hnone) c.order (by omega) (by omega)]
      at hmem
    exact List.not_mem_nil hmem
  · intro htouched
    cases hfound : ledger.allocate maxOrder target with
    | none => rfl
    | some served =>
        obtain ⟨leaf, rest⟩ := served
        obtain ⟨-, hnode, huntouched⟩ := hfree.of_allocate hfound
        exact absurd (htouched _ hnode rfl) huntouched

/-! ## The block in hand -/

/-- Taking a vacant block off its list. -/
theorem Balanced.take (h : Balanced maxOrder live free) (hblock : Vacant maxOrder live block) :
    Balanced maxOrder (insert block live) (free.remove block.order block.leaf) :=
  h.fill hblock fun _ => touched_insert

/-- A vacant block that is taken becomes used, and no other node does. -/
theorem used_insert_of_vacant (hlive : Placed maxOrder live) (hblock : Vacant maxOrder live block)
    {c : Node} (hc : c.InTree maxOrder) :
    Used (insert block live) c ↔ Used live c ∨ c = block := by
  rw [used_insert, Node.inside_iff hblock.inTree hc]
  constructor
  · intro h
    rcases h with h | rfl | ⟨hlt, hin⟩
    · exact .inl h
    · exact .inr rfl
    · exact .inl ((hblock.used_parent hlive hlt).mono hin)
  · intro h
    rcases h with h | rfl
    · exact .inl h
    · exact .inr (.inl rfl)

/-- The back half of the block in hand, when only the front half is kept. -/
theorem vacant_back {leaf order : Nat} (hblock : (Node.mk leaf (order + 1)).InTree maxOrder)
    (huntouched : ¬Touched live ⟨leaf, order + 1⟩) :
    Vacant maxOrder (insert ⟨leaf, order⟩ live) ⟨leaf + 2 ^ order, order⟩ ∧
      ∀ c, Touched (insert ⟨leaf, order + 1⟩ live) c ↔
        Touched (insert ⟨leaf, order⟩ live) c ∨ (Node.mk (leaf + 2 ^ order) order).Overlaps c := by
  obtain ⟨hfront, hparent, hbuddy⟩ := Node.front_inTree hblock
  rw [← hbuddy, ← hparent]
  refine ⟨vacant_buddy hfront hblock.1 fun h => huntouched ?_, touched_insert_parent hfront⟩
  exact hparent ▸ h.mono (Node.buddy_inside_parent hfront)

/-- Keeping the front half of the block in hand puts the back half into its list. -/
theorem Balanced.halve {leaf order : Nat}
    (h : Balanced maxOrder (insert ⟨leaf, order + 1⟩ live) free)
    (hblock : (Node.mk leaf (order + 1)).InTree maxOrder)
    (huntouched : ¬Touched live ⟨leaf, order + 1⟩) :
    Balanced maxOrder (insert ⟨leaf, order⟩ live) (free.add order (leaf + 2 ^ order)) := by
  obtain ⟨hvacant, hfill⟩ := vacant_back hblock huntouched
  exact h.vacate hvacant hfill

/-- The front half that is kept becomes used, and no other node does. -/
theorem used_insert_front {leaf order : Nat}
    (hblock : (Node.mk leaf (order + 1)).InTree maxOrder) {c : Node} (hc : c.InTree maxOrder) :
    Used (insert ⟨leaf, order⟩ live) c ↔
      Used (insert ⟨leaf, order + 1⟩ live) c ∨ c = ⟨leaf, order⟩ := by
  obtain ⟨hfront, hparent, -⟩ := Node.front_inTree hblock
  have hlt : order < maxOrder := hblock.1
  rw [used_insert, used_insert, Node.inside_iff hfront hc, hparent, eq_comm (a := c), or_assoc,
    or_comm (a := Node.mk leaf order = c)]
  simp only [hlt, true_and]

/-- The buddy of the block in hand is free exactly if it is not used. -/
theorem Balanced.buddy_mem_iff (h : Balanced maxOrder (insert block live) free)
    (hlive : Placed maxOrder live) (hblock : block.InTree maxOrder) (hlt : block.order < maxOrder)
    (huntouched : ¬Touched live block) :
    block.buddy.leaf ∈ free block.order ↔ ¬Used live block.buddy := by
  refine (h.mem_iff block.buddy).trans ?_
  constructor
  · intro hvacant hused
    exact hvacant.not_touched (touched_insert.2 (.inl hused.touched))
  · intro hunused
    refine vacant_buddy hblock hlt fun htouched => ?_
    obtain ⟨other, hmem, hin, hne⟩ :=
      (htouched.used_or hlive (Node.buddy_inTree hblock hlt)).resolve_left hunused
    -- A live block around the buddy would lie around the parent.
    have hparent := ((Node.inside_iff (Node.buddy_inTree hblock hlt)
      (hlive.inTree other hmem)).1 hin).resolve_left hne
    rw [Node.parent_buddy hblock] at hparent
    exact huntouched ⟨other, hmem, ((Node.inside_parent hblock).trans hparent.2).overlaps.symm⟩

/-- Merging the block in hand with its free buddy takes the buddy off its list. -/
theorem Balanced.merge (h : Balanced maxOrder (insert block live) free)
    (hblock : block.InTree maxOrder) (hbuddy : block.buddy.leaf ∈ free block.order) :
    Balanced maxOrder (insert block.parent live) (free.remove block.order block.buddy.leaf) :=
  h.fill ((h.mem_iff block.buddy).1 hbuddy) (touched_insert_parent hblock)

/-- A block and its buddy that are both without live leaves make up such a parent. -/
theorem not_touched_parent (hblock : block.InTree maxOrder) (huntouched : ¬Touched live block)
    (hbuddy : ¬Touched live block.buddy) : ¬Touched live block.parent := by
  intro htouched
  obtain ⟨other, hmem, hover⟩ := htouched
  rcases (Node.parent_overlaps_iff hblock).1 hover.symm with hover | hover
  · exact huntouched ⟨other, hmem, hover.symm⟩
  · exact hbuddy ⟨other, hmem, hover.symm⟩

/-- Of a node and its buddy at most one is vacant. -/
theorem not_vacant_buddy (h : Vacant maxOrder live block) (hlt : block.order < maxOrder) :
    ¬Vacant maxOrder live block.buddy := by
  intro hbuddy
  refine not_touched_parent h.inTree h.not_touched hbuddy.not_touched ?_
  exact h.2.2.resolve_left (Nat.ne_of_lt hlt)

/-- Putting the block in hand back, when it cannot be merged. -/
theorem vacant_of_buddy_used (hblock : block.InTree maxOrder) (huntouched : ¬Touched live block)
    (hstop : block.order = maxOrder ∨ Used live block.buddy) : Vacant maxOrder live block :=
  ⟨hblock, huntouched, hstop.imp_right fun h =>
    h.touched.mono (Node.buddy_inside_parent hblock)⟩

/-! ## Undoing -/

/-- Putting the front of a block back that was halved merges it with all back halves. -/
theorem join_spill {leaf target levels : Nat}
    (hblock : (Node.mk leaf (target + levels)).InTree maxOrder) (more : Nat) (free : Contents) :
    join ⟨leaf, target⟩ (levels + more) (spill leaf target levels free) =
      join ⟨leaf, target + levels⟩ more free := by
  -- The induction is on the halvings, and undoes the first of them last.
  induction levels generalizing more free with
  | zero => rw [Nat.zero_add, spill, Nat.add_zero]
  | succ levels ih =>
      rw [← Nat.add_assoc] at hblock
      obtain ⟨hfront, hparent, hbuddy⟩ := Node.front_inTree hblock
      rw [spill, Nat.add_right_comm, Nat.add_assoc levels more 1, ih hfront, join, hparent, hbuddy,
        Contents.add_self, if_pos List.mem_cons_self, Contents.remove_add]
      rfl

/-- A vacant block that was taken off the front of its list is put back there. -/
theorem Balanced.join_remove {rest : List Nat} (h : Balanced maxOrder live free)
    (hcons : free block.order = block.leaf :: rest) :
    join block (maxOrder - block.order) (free.remove block.order block.leaf) = free := by
  have hback := Contents.add_remove_of_cons hcons
  have hblock := (h.mem_iff block).1 (by simp [hcons])
  cases hlevels : maxOrder - block.order with
  | zero => rw [join, hback]
  | succ levels =>
      have hbuddy : block.buddy.leaf ∉ free block.order := fun hmem =>
        not_vacant_buddy hblock (by omega) ((h.mem_iff block.buddy).1 hmem)
      rw [join, Contents.remove_self, if_neg fun hmem => hbuddy (List.mem_of_mem_erase hmem), hback]

/-- Making a block free that was just allocated restores the ledger. -/
theorem Balanced.deallocate_allocate {ledger rest : Ledger} {target leaf : Nat}
    (hfree : Balanced maxOrder ledger.live ledger.free)
    (h : ledger.allocate maxOrder target = some (leaf, rest)) :
    rest.deallocate maxOrder ⟨leaf, target⟩ = ledger := by
  obtain ⟨-, -, huntouched⟩ := hfree.of_allocate h
  obtain ⟨levels, tail, -, htail, rfl⟩ := allocate_eq_some h
  have hblock := ((hfree.mem_iff ⟨leaf, target + levels⟩).1 (by simp [htail])).inTree
  have hnew : Node.mk leaf target ∉ ledger.live := fun hmem =>
    huntouched ⟨_, hmem, (Node.Inside.refl _).overlaps⟩
  have hle : target + levels ≤ maxOrder := hblock.1
  have hlevels : maxOrder - target = levels + (maxOrder - (target + levels)) := by omega
  have hjoin : join ⟨leaf, target + levels⟩ (maxOrder - (target + levels))
      (ledger.free.remove (target + levels) leaf) = ledger.free :=
    hfree.join_remove htail
  simp only [deallocate, Finset.erase_insert hnew, hlevels, join_spill hblock, hjoin]

/-- While nothing is live, the root is the only free block. -/
theorem Balanced.free_of_idle (h : Balanced maxOrder ∅ free) : free = (idle maxOrder).free := by
  have hidle : Balanced maxOrder ∅ (idle maxOrder).free := balanced_idle maxOrder
  funext order
  have hperm : (free order).Perm ((idle maxOrder).free order) := by
    rw [List.perm_ext_iff_of_nodup (h.nodup order) (hidle.nodup order)]
    exact fun leaf => (h.mem_iff ⟨leaf, order⟩).trans (hidle.mem_iff ⟨leaf, order⟩).symm
  by_cases horder : order = maxOrder
  · subst horder
    simp only [idle, Contents.add_self] at hperm ⊢
    exact List.perm_singleton.1 hperm
  · simp only [idle, Contents.add_of_ne horder] at hperm ⊢
    exact List.perm_nil.1 hperm

end Ledger

end BuddySystem
