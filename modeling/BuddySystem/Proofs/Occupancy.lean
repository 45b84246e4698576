import BuddySystem.Proofs.Tree
import Mathlib.Data.Finset.Basic

/-!
# Live blocks in the tree

A set of live blocks determines which nodes of the tree are `Used`, because they contain a live
block, and which are `Vacant`, because they are the largest blocks around that share no leaf with a
live one. Every leaf is in exactly one live or vacant block (`exists_block`,
`Placed.eq_of_overlaps`).

A vacant block that is filled stops being vacant, and nothing else changes (`Vacant.fill_iff`). Read
backwards this says what is vacant when a block becomes free.
-/

namespace BuddySystem.Occupancy

variable {maxOrder : Nat} {live filled : Finset Node} {a b c : Node}

/-- Whether a node shares a leaf with a live block. -/
def Touched (live : Finset Node) (node : Node) : Prop :=
  ∃ block ∈ live, block.Overlaps node

/-- Whether a node is a live block or has one below it. -/
def Used (live : Finset Node) (node : Node) : Prop :=
  ∃ block ∈ live, block.Inside node

/-- Whether a node is a largest block without a live leaf: its parent has one, if there is a
parent. -/
def Vacant (maxOrder : Nat) (live : Finset Node) (node : Node) : Prop :=
  node.InTree maxOrder ∧ ¬Touched live node ∧
    (node.order = maxOrder ∨ Touched live node.parent)

/-- Live blocks are nodes of the tree that do not share leaves. -/
structure Placed (maxOrder : Nat) (live : Finset Node) : Prop where
  inTree : ∀ block ∈ live, block.InTree maxOrder
  apart : ∀ block ∈ live, ∀ other ∈ live, block.Overlaps other → block = other

instance (live : Finset Node) (node : Node) : Decidable (Used live node) :=
  inferInstanceAs (Decidable (∃ block ∈ live, _))

/-! ## Touched and used nodes -/

theorem not_touched_empty : ¬Touched ∅ a := by
  simp [Touched]

/-- One more live block touches the nodes that it overlaps. -/
theorem touched_insert : Touched (insert b live) c ↔ Touched live c ∨ b.Overlaps c := by
  simp only [Touched, Finset.mem_insert, exists_eq_or_imp, or_comm]

theorem Touched.mono (h : Touched live a) (hab : a.Inside b) : Touched live b := by
  obtain ⟨block, hmem, hover⟩ := h
  exact ⟨block, hmem, (hover.symm.mono hab).symm⟩

theorem Used.touched (h : Used live a) : Touched live a := by
  obtain ⟨block, hmem, hin⟩ := h
  exact ⟨block, hmem, hin.overlaps⟩

theorem Used.mono (h : Used live a) (hab : a.Inside b) : Used live b := by
  obtain ⟨block, hmem, hin⟩ := h
  exact ⟨block, hmem, hin.trans hab⟩

/-- One more live block uses the nodes that it lies inside. -/
theorem used_insert : Used (insert b live) c ↔ Used live c ∨ b.Inside c := by
  simp only [Used, Finset.mem_insert, exists_eq_or_imp, or_comm]

/-- A node is used if it is a live block or one is strictly inside it. -/
theorem used_iff : Used live c ↔ c ∈ live ∨ ∃ block ∈ live, block.StrictlyInside c := by
  constructor
  · intro hused
    obtain ⟨block, hmem, hin⟩ := hused
    by_cases heq : block = c
    · exact .inl (heq ▸ hmem)
    · exact .inr ⟨block, hmem, hin, heq⟩
  · intro hused
    rcases hused with hmem | ⟨block, hmem, hin, -⟩
    · exact ⟨c, hmem, .refl c⟩
    · exact ⟨block, hmem, hin⟩

/-- What a live block touches is used or lies strictly inside the block. -/
theorem Touched.used_or (hlive : Placed maxOrder live) (hc : c.InTree maxOrder)
    (h : Touched live c) : Used live c ∨ ∃ block ∈ live, c.StrictlyInside block := by
  obtain ⟨block, hmem, hover⟩ := h
  rcases hover.inside_or_inside (hlive.inTree block hmem) hc with hin | hin
  · exact .inl ⟨block, hmem, hin⟩
  · by_cases heq : c = block
    · exact .inl ⟨block, hmem, heq ▸ .refl c⟩
    · exact .inr ⟨block, hmem, hin, heq⟩

/-- A live block has no used node strictly inside it. -/
theorem Placed.not_used_of_strictlyInside (hlive : Placed maxOrder live) (hb : b ∈ live)
    (h : c.StrictlyInside b) : ¬Used live c := by
  intro hused
  obtain ⟨block, hmem, hin⟩ := hused
  have heq : block = b := hlive.apart block hmem b hb (hin.trans h.1).overlaps
  exact h.2 (h.1.antisymm (heq ▸ hin))

/-! ## Vacant nodes -/

theorem Vacant.inTree (h : Vacant maxOrder live b) : b.InTree maxOrder := h.1

theorem Vacant.not_touched (h : Vacant maxOrder live b) : ¬Touched live b := h.2.1

/-- Around every node without a live leaf there is a vacant one. -/
theorem exists_vacant (hb : b.InTree maxOrder) (h : ¬Touched live b) :
    ∃ c, Vacant maxOrder live c ∧ b.Inside c := by
  -- On the way up to the root, the last node without a live leaf is vacant.
  induction hlevels : maxOrder - b.order generalizing b with
  | zero => exact ⟨b, ⟨hb, h, .inl (by have hle := hb.1; omega)⟩, .refl b⟩
  | succ levels ih =>
      have hlt : b.order < maxOrder := by omega
      by_cases hparent : Touched live b.parent
      · exact ⟨b, ⟨hb, h, .inr hparent⟩, .refl b⟩
      · have horder : b.parent.order = b.order + 1 := rfl
        obtain ⟨c, hc, hin⟩ := ih (Node.parent_inTree hb hlt) hparent (by omega)
        exact ⟨c, hc, (Node.inside_parent hb).trans hin⟩

/-- A block around a vacant one contains a live leaf. -/
theorem Vacant.touched_of_strictlyInside (hb : Vacant maxOrder live b) (hc : c.InTree maxOrder)
    (h : b.StrictlyInside c) : Touched live c := by
  obtain ⟨hlt, hin⟩ := ((Node.inside_iff hb.1 hc).1 h.1).resolve_left h.2
  exact (hb.2.2.resolve_left (Nat.ne_of_lt hlt)).mono hin

/-- Two vacant blocks that share a leaf are the same. -/
theorem Vacant.eq_of_overlaps (hb : Vacant maxOrder live b) (hc : Vacant maxOrder live c)
    (h : b.Overlaps c) : b = c := by
  by_contra hne
  rcases h.inside_or_inside hb.1 hc.1 with hin | hin
  · exact hc.2.1 (hb.touched_of_strictlyInside hc.1 ⟨hin, hne⟩)
  · exact hb.2.1 (hc.touched_of_strictlyInside hb.1 ⟨hin, Ne.symm hne⟩)

/-- Filling a vacant block changes what is vacant in this one place. -/
theorem Vacant.fill_iff (hb : Vacant maxOrder live b)
    (hfill : ∀ c, Touched filled c ↔ Touched live c ∨ b.Overlaps c) :
    Vacant maxOrder filled c ↔ Vacant maxOrder live c ∧ c ≠ b := by
  constructor
  · intro hvacant
    obtain ⟨hc, huntouched, hparent⟩ := hvacant
    rw [hfill, not_or] at huntouched
    obtain ⟨hlive, hapart⟩ := huntouched
    have hne : c ≠ b := fun heq => hapart (heq ▸ (Node.Inside.refl c).overlaps)
    refine ⟨⟨hc, hlive, hparent.imp_right fun h => ?_⟩, hne⟩
    rcases (hfill _).1 h with h | hover
    · exact h
    · -- The parent of `c` reaches into `b` but `c` does not, so it lies around `b`.
      by_cases hroot : c.order = maxOrder
      · have hin : b.Inside c := by
          have heq : c = Node.root maxOrder :=
            hc.inside_root.eq_of_order_le (Nat.le_of_eq hroot.symm)
          exact heq ▸ hb.1.inside_root
        exact absurd hin.overlaps hapart
      · have hpc := Node.parent_inTree hc (Nat.lt_of_le_of_ne hc.1 hroot)
        have hcp := Node.inside_parent hc
        rcases hover.inside_or_inside hb.1 hpc with hin | hin
        · refine hb.touched_of_strictlyInside hpc ⟨hin, ?_⟩
          intro heq
          subst heq
          exact hapart hcp.overlaps.symm
        · exact absurd (hcp.trans hin).overlaps.symm hapart
  · intro hvacant
    obtain ⟨hc, hne⟩ := hvacant
    refine ⟨hc.1, ?_, hc.2.2.imp_right fun h => (hfill _).2 (.inl h)⟩
    rw [hfill, not_or]
    exact ⟨hc.2.1, fun hover => hne (hb.eq_of_overlaps hc hover).symm⟩

/-- Every leaf is in a live or in a vacant block. -/
theorem exists_block {leaf : Nat} (hleaf : leaf < 2 ^ maxOrder) :
    ∃ block : Node, (block ∈ live ∨ Vacant maxOrder live block) ∧
      block.leaf ≤ leaf ∧ leaf < block.stop := by
  have hnode : (Node.mk leaf 0).InTree maxOrder :=
    ⟨Nat.zero_le _, Nat.mod_one leaf, hleaf⟩
  by_cases htouched : Touched live ⟨leaf, 0⟩
  · obtain ⟨block, hmem, hleft, hright⟩ := htouched
    refine ⟨block, .inl hmem, ?_, hright⟩
    simp only [Node.stop] at hleft
    omega
  · obtain ⟨block, hblock, hin⟩ := exists_vacant hnode htouched
    refine ⟨block, .inr hblock, hin.1, ?_⟩
    exact Nat.lt_of_lt_of_le (Node.leaf_lt_stop ⟨leaf, 0⟩) hin.2

/-- Two live or vacant blocks that share a leaf are the same. -/
theorem Placed.eq_of_overlaps (hlive : Placed maxOrder live)
    (ha : a ∈ live ∨ Vacant maxOrder live a) (hb : b ∈ live ∨ Vacant maxOrder live b)
    (h : a.Overlaps b) : a = b := by
  rcases ha with ha | ha <;> rcases hb with hb | hb
  · exact hlive.apart a ha b hb h
  · exact absurd ⟨a, ha, h⟩ hb.not_touched
  · exact absurd ⟨b, hb, h.symm⟩ ha.not_touched
  · exact ha.eq_of_overlaps hb h

/-- Two live blocks that start at the same leaf are the same. -/
theorem Placed.eq_of_leaf_eq (hlive : Placed maxOrder live) (ha : a ∈ live) (hb : b ∈ live)
    (h : a.leaf = b.leaf) : a = b :=
  hlive.apart a ha b hb ⟨h ▸ b.leaf_lt_stop, h ▸ a.leaf_lt_stop⟩

/-- The parent of a vacant block is used. -/
theorem Vacant.used_parent (hlive : Placed maxOrder live) (hb : Vacant maxOrder live b)
    (hlt : b.order < maxOrder) : Used live b.parent := by
  have hparent := Node.parent_inTree hb.1 hlt
  have htouched := hb.2.2.resolve_left (Nat.ne_of_lt hlt)
  refine (htouched.used_or hlive hparent).resolve_right ?_
  intro haround
  obtain ⟨block, hmem, hin, -⟩ := haround
  exact hb.2.1 ⟨block, hmem, ((Node.inside_parent hb.1).trans hin).overlaps.symm⟩

/-! ## Placing blocks -/

/-- A block that no live block touches can be placed. -/
theorem Placed.insert (hlive : Placed maxOrder live) (hb : b.InTree maxOrder)
    (huntouched : ¬Touched live b) : Placed maxOrder (insert b live) where
  inTree block hmem := by
    rcases Finset.mem_insert.1 hmem with rfl | hmem
    · exact hb
    · exact hlive.inTree block hmem
  apart block hblock other hother hover := by
    rcases Finset.mem_insert.1 hblock with rfl | hold <;>
      rcases Finset.mem_insert.1 hother with rfl | hold'
    · rfl
    · exact absurd ⟨other, hold', hover.symm⟩ huntouched
    · exact absurd ⟨block, hold, hover⟩ huntouched
    · exact hlive.apart block hold other hold' hover

/-- Some of the blocks that are placed are placed as well. -/
theorem Placed.subset (hlive : Placed maxOrder filled) (hsub : live ⊆ filled) :
    Placed maxOrder live where
  inTree block hmem := hlive.inTree block (hsub hmem)
  apart block hblock other hother := hlive.apart block (hsub hblock) other (hsub hother)

/-- A live block touches no other one. -/
theorem Placed.not_touched_erase (hlive : Placed maxOrder live) (hb : b ∈ live) :
    ¬Touched (live.erase b) b := by
  intro htouched
  obtain ⟨block, hmem, hover⟩ := htouched
  obtain ⟨hne, hmem⟩ := Finset.mem_erase.1 hmem
  exact hne (hlive.apart block hmem b hb hover)

/-! ## Halves -/

/-- If half of a node is live and nothing else in it, then its other half is vacant. -/
theorem vacant_buddy (hb : b.InTree maxOrder) (hlt : b.order < maxOrder)
    (huntouched : ¬Touched live b.buddy) : Vacant maxOrder (insert b live) b.buddy := by
  refine ⟨Node.buddy_inTree hb hlt, ?_, .inr ?_⟩
  · rw [touched_insert, not_or]
    exact ⟨huntouched, Node.not_overlaps_buddy hb⟩
  · rw [Node.parent_buddy hb, touched_insert]
    exact .inr (Node.inside_parent hb).overlaps

/-- Filling the other half of a node whose one half is live makes the node live. -/
theorem touched_insert_parent (hb : b.InTree maxOrder) (c : Node) :
    Touched (insert b.parent live) c ↔ Touched (insert b live) c ∨ b.buddy.Overlaps c := by
  rw [touched_insert, touched_insert, Node.parent_overlaps_iff hb, or_assoc]

end BuddySystem.Occupancy
