import BuddySystem.Proofs.Ledger
import Mathlib.Algebra.BigOperators.Group.Finset.Basic
import Mathlib.Algebra.Order.BigOperators.Group.Finset
import Mathlib.Order.Interval.Finset.Nat

/-!
# Counting leaves

Every leaf is in exactly one live or free block, so the live blocks and the free blocks together
have as many leaves as the whole tree (`Balanced.leafCount_add`). The free blocks are counted by the
lengths of their lists.
-/

namespace BuddySystem

open FreeLists Occupancy

/-- The leaves of a block. -/
def Node.leaves (node : Node) : Finset Nat :=
  Finset.Ico node.leaf node.stop

namespace Ledger

/-- The number of leaves of the blocks in lists of certain lengths. -/
def leafCount (maxOrder : Nat) (free : Contents) : Nat :=
  ∑ order ∈ Finset.range (maxOrder + 1), (free order).length * 2 ^ order

/-- The blocks in the lists. -/
def listed (maxOrder : Nat) (free : Contents) : Finset Node :=
  (Finset.range (maxOrder + 1)).biUnion fun order =>
    (free order).toFinset.image fun leaf => ⟨leaf, order⟩

variable {maxOrder : Nat} {live : Finset Node} {free : Contents} {node other : Node}

theorem card_leaves (node : Node) : node.leaves.card = 2 ^ node.order := by
  rw [Node.leaves, Nat.card_Ico, Node.stop, Nat.add_sub_cancel_left]

theorem disjoint_leaves (h : ¬node.Overlaps other) : Disjoint node.leaves other.leaves := by
  rw [Finset.disjoint_left]
  intro leaf hnode hother
  obtain ⟨hle, hlt⟩ := Finset.mem_Ico.1 hnode
  obtain ⟨hle', hlt'⟩ := Finset.mem_Ico.1 hother
  exact h ⟨by omega, by omega⟩

theorem mem_listed : node ∈ listed maxOrder free ↔
    node.order ≤ maxOrder ∧ node.leaf ∈ free node.order := by
  obtain ⟨leaf, order⟩ := node
  simp only [listed, Finset.mem_biUnion, Finset.mem_range, Finset.mem_image, List.mem_toFinset,
    Node.mk.injEq]
  constructor
  · intro h
    obtain ⟨order, hle, leaf, hmem, rfl, rfl⟩ := h
    exact ⟨Nat.le_of_lt_succ hle, hmem⟩
  · intro h
    exact ⟨order, Nat.lt_succ_of_le h.1, leaf, h.2, rfl, rfl⟩

/-- The lengths of the lists count the leaves of the blocks in them. -/
theorem sum_listed (hnodup : ∀ order, (free order).Nodup) :
    ∑ node ∈ listed maxOrder free, 2 ^ node.order = leafCount maxOrder free := by
  rw [listed, Finset.sum_biUnion, leafCount]
  · refine Finset.sum_congr rfl fun order _ => ?_
    have hinj : Set.InjOn (fun leaf => Node.mk leaf order) (free order).toFinset :=
      fun _ _ _ _ heq => congrArg Node.leaf heq
    rw [Finset.sum_image hinj, ← List.toFinset_card_of_nodup (hnodup order)]
    exact Finset.sum_const_nat fun _ _ => rfl
  · -- Blocks from the lists of different orders are different.
    intro order _ other _ hne
    rw [Function.onFun, Finset.disjoint_left]
    intro node hnode hother
    obtain ⟨_, -, rfl⟩ := Finset.mem_image.1 hnode
    obtain ⟨_, -, heq⟩ := Finset.mem_image.1 hother
    exact hne (congrArg Node.order heq).symm

/-- The listed nodes are the vacant ones. -/
theorem Balanced.mem_listed_iff (h : Balanced maxOrder live free) :
    node ∈ listed maxOrder free ↔ Vacant maxOrder live node := by
  rw [mem_listed, h.mem_iff]
  exact and_iff_right_of_imp fun hvacant => hvacant.inTree.1

/-- The live and the listed blocks have as many leaves as the tree. -/
theorem Balanced.leafCount_add (h : Balanced maxOrder live free) (hlive : Placed maxOrder live) :
    leafCount maxOrder free + ∑ block ∈ live, 2 ^ block.order = 2 ^ maxOrder := by
  have hmem : ∀ node, node ∈ listed maxOrder free ∪ live ↔
      node ∈ live ∨ Vacant maxOrder live node := fun node => by
    rw [Finset.mem_union, h.mem_listed_iff, or_comm]
  have hdisjoint : Disjoint (listed maxOrder free) live := by
    rw [Finset.disjoint_left]
    intro node hnode hnodelive
    exact (h.mem_listed_iff.1 hnode).not_touched
      ⟨node, hnodelive, (Node.Inside.refl node).overlaps⟩
  have hcover :
      (listed maxOrder free ∪ live).biUnion Node.leaves = Finset.range (2 ^ maxOrder) := by
    ext leaf
    rw [Finset.mem_biUnion, Finset.mem_range]
    constructor
    · intro hleaf
      obtain ⟨node, hnode, hleaf⟩ := hleaf
      have hinTree := ((hmem node).1 hnode).elim (hlive.inTree node) Vacant.inTree
      exact Nat.lt_of_lt_of_le (Finset.mem_Ico.1 hleaf).2 hinTree.2.2
    · intro hleaf
      obtain ⟨node, hnode, hle, hlt⟩ := exists_block hleaf
      exact ⟨node, (hmem node).2 hnode, Finset.mem_Ico.2 ⟨hle, hlt⟩⟩
  calc leafCount maxOrder free + ∑ block ∈ live, 2 ^ block.order
      = ∑ node ∈ listed maxOrder free ∪ live, 2 ^ node.order := by
        rw [Finset.sum_union hdisjoint, sum_listed h.nodup]
    _ = ∑ node ∈ listed maxOrder free ∪ live, node.leaves.card := by
        simp only [card_leaves]
    _ = ((listed maxOrder free ∪ live).biUnion Node.leaves).card := by
        refine (Finset.card_biUnion fun node hnode other hother hne => ?_).symm
        refine disjoint_leaves fun hover => hne ?_
        exact hlive.eq_of_overlaps ((hmem node).1 hnode) ((hmem other).1 hother) hover
    _ = 2 ^ maxOrder := by rw [hcover, Finset.card_range]

end Ledger

end BuddySystem
