import BuddySystem.Config
import BuddySystem.Proofs.Word
import Mathlib.Logic.Function.Iterate

/-!
# The tree of blocks

A node of the tree is known by its first leaf and its order, and stands for the run of leaves that
its block consists of. Two nodes that share a leaf lie one inside the other
(`Node.Overlaps.inside`), so the nodes that a node lies inside are the node itself, its parent and
so on up to the root (`Node.inside_iff`). A node and its buddy are the halves of their parent.

`Node.number` is the number of a node in the bitmap of an arena. The numbers of different nodes are
different, and every bit belongs to a node.
-/

namespace BuddySystem

/-- A node of the tree of blocks. -/
structure Node where
  /-- The first leaf of the block. -/
  leaf : Nat
  /-- The block has `2 ^ order` leaves. -/
  order : Nat
  deriving DecidableEq

namespace Node

/-- The leaf behind the last one of the block. -/
def stop (node : Node) : Nat :=
  node.leaf + 2 ^ node.order

/-- Whether a tree whose root has the order `maxOrder` has this node. -/
def InTree (maxOrder : Nat) (node : Node) : Prop :=
  node.order ≤ maxOrder ∧ node.leaf % 2 ^ node.order = 0 ∧ node.stop ≤ 2 ^ maxOrder

/-- Whether every leaf of the first block is one of the second. -/
def Inside (inner outer : Node) : Prop :=
  outer.leaf ≤ inner.leaf ∧ inner.stop ≤ outer.stop

/-- Whether the first block is a proper part of the second: the second node is a strict ancestor
of the first. -/
def StrictlyInside (inner outer : Node) : Prop :=
  inner.Inside outer ∧ inner ≠ outer

/-- Whether two blocks share a leaf. -/
def Overlaps (left right : Node) : Prop :=
  left.leaf < right.stop ∧ right.leaf < left.stop

instance (maxOrder : Nat) (node : Node) : Decidable (node.InTree maxOrder) :=
  inferInstanceAs (Decidable (_ ∧ _))

instance (inner outer : Node) : Decidable (inner.Inside outer) :=
  inferInstanceAs (Decidable (_ ∧ _))

instance (inner outer : Node) : Decidable (inner.StrictlyInside outer) :=
  inferInstanceAs (Decidable (_ ∧ _))

instance (left right : Node) : Decidable (left.Overlaps right) :=
  inferInstanceAs (Decidable (_ ∧ _))

/-- The node that this one is a half of. -/
def parent (node : Node) : Node :=
  ⟨node.leaf / 2 ^ (node.order + 1) * 2 ^ (node.order + 1), node.order + 1⟩

/-- The other half of the parent. -/
def buddy (node : Node) : Node :=
  ⟨Config.buddy node.leaf node.order, node.order⟩

/-- Whether the first node is reached from the second one by going to the parent at least once. -/
def StrictAncestor (ancestor node : Node) : Prop :=
  ∃ levels, 0 < levels ∧ parent^[levels] node = ancestor

/-- The root of the tree. -/
def root (maxOrder : Nat) : Node := ⟨0, maxOrder⟩

variable {maxOrder : Nat} {a b c : Node}

theorem leaf_lt_stop (node : Node) : node.leaf < node.stop := by
  have hpos := Nat.two_pow_pos node.order
  unfold stop
  omega

/-- The node with this index among those of its order. -/
def ofIndex (index order : Nat) : Node := ⟨index * 2 ^ order, order⟩

/-- There are twice as many nodes of an order as of the next one. -/
theorem two_pow_depth {order : Nat} (h : order < maxOrder) :
    2 ^ (maxOrder - order) = 2 * 2 ^ (maxOrder - (order + 1)) := by
  rw [← Nat.pow_succ']
  congr 1
  omega

/-- The nodes of an order in the tree are numbered from zero on. -/
theorem ofIndex_inTree {index order : Nat} :
    (ofIndex index order).InTree maxOrder ↔ order ≤ maxOrder ∧ index < 2 ^ (maxOrder - order) := by
  simp only [InTree, ofIndex, stop, Nat.mul_mod_left, true_and]
  refine and_congr_right fun hle => ?_
  rw [← Nat.succ_mul, ← Nat.pow_sub_mul_pow 2 hle, Nat.mul_le_mul_right_iff (Nat.two_pow_pos _)]
  exact Nat.succ_le_iff

/-- Every node of the tree has an index among those of its order. -/
theorem InTree.exists_index (h : a.InTree maxOrder) :
    ∃ index, index < 2 ^ (maxOrder - a.order) ∧ a = ofIndex index a.order := by
  have heq : a = ofIndex (a.leaf / 2 ^ a.order) a.order := by
    rw [ofIndex, Nat.div_mul_cancel (Nat.dvd_of_mod_eq_zero h.2.1)]
  have hindex := (ofIndex_inTree.1 (heq ▸ h)).2
  exact ⟨_, hindex, heq⟩

theorem InTree.leaf_lt (h : a.InTree maxOrder) : a.leaf < 2 ^ maxOrder :=
  Nat.lt_of_lt_of_le a.leaf_lt_stop h.2.2

theorem root_inTree (maxOrder : Nat) : (root maxOrder).InTree maxOrder := by
  simp [InTree, root, stop]

/-! ## Blocks inside one another -/

theorem Inside.refl (a : Node) : a.Inside a :=
  ⟨Nat.le_refl _, Nat.le_refl _⟩

theorem Inside.trans (hab : a.Inside b) (hbc : b.Inside c) : a.Inside c :=
  ⟨Nat.le_trans hbc.1 hab.1, Nat.le_trans hab.2 hbc.2⟩

theorem Inside.order_le (h : a.Inside b) : a.order ≤ b.order := by
  obtain ⟨hleaf, hstop⟩ := h
  unfold stop at hstop
  exact (Nat.pow_le_pow_iff_right Nat.one_lt_two).1 (by omega : 2 ^ a.order ≤ 2 ^ b.order)

/-- A block that lies inside one that is not longer is that block. -/
theorem Inside.eq_of_order_le (h : a.Inside b) (hle : b.order ≤ a.order) : a = b := by
  have horder : a.order = b.order := Nat.le_antisymm h.order_le hle
  obtain ⟨hleaf, hstop⟩ := h
  unfold stop at hstop
  rw [horder] at hstop
  obtain ⟨aleaf, aorder⟩ := a
  obtain ⟨bleaf, border⟩ := b
  simp only [Node.mk.injEq] at *
  omega

/-- Two blocks that lie inside each other are the same. -/
theorem Inside.antisymm (hab : a.Inside b) (hba : b.Inside a) : a = b :=
  hab.eq_of_order_le hba.order_le

theorem Overlaps.symm (h : a.Overlaps b) : b.Overlaps a :=
  ⟨h.2, h.1⟩

theorem Inside.overlaps (h : a.Inside b) : a.Overlaps b := by
  have hlt := a.leaf_lt_stop
  obtain ⟨hleaf, hstop⟩ := h
  constructor <;> omega

/-- What overlaps a block overlaps every block around it. -/
theorem Overlaps.mono (h : a.Overlaps c) (hab : a.Inside b) : b.Overlaps c := by
  obtain ⟨hleft, hright⟩ := h
  obtain ⟨hleaf, hstop⟩ := hab
  constructor <;> omega

/-- Of two nodes that share a leaf the one that is not longer lies inside the other one. -/
theorem Overlaps.inside (ha : a.InTree maxOrder) (hb : b.InTree maxOrder) (h : a.Overlaps b)
    (hle : a.order ≤ b.order) : a.Inside b := by
  obtain ⟨i, -, hia⟩ := ha.exists_index
  obtain ⟨j, -, hjb⟩ := hb.exists_index
  have hi : a.leaf = i * 2 ^ a.order := congrArg Node.leaf hia
  have hj : b.leaf = j * 2 ^ b.order := congrArg Node.leaf hjb
  obtain ⟨levels, hlevels⟩ := Nat.exists_eq_add_of_le hle
  have hpos := Nat.two_pow_pos a.order
  -- In units of the shorter length both blocks are runs of whole numbers.
  have hb' : b.leaf = j * 2 ^ levels * 2 ^ a.order := by
    rw [hj, hlevels, Nat.pow_add, Nat.mul_assoc, Nat.mul_comm (2 ^ levels)]
  have hbs : b.stop = (j * 2 ^ levels + 2 ^ levels) * 2 ^ a.order := by
    rw [stop, hb', hlevels, Nat.pow_add, Nat.add_mul, Nat.mul_comm (2 ^ a.order)]
  have has : a.stop = (i + 1) * 2 ^ a.order := by
    rw [stop, hi, Nat.add_mul, Nat.one_mul]
  obtain ⟨hleft, hright⟩ := h
  rw [hi, hbs] at hleft
  rw [hb', has] at hright
  have hlt := Nat.lt_of_mul_lt_mul_right hleft
  have hge := Nat.lt_of_mul_lt_mul_right hright
  constructor
  · rw [hb', hi]
    exact Nat.mul_le_mul_right _ (by omega)
  · rw [hbs, has]
    exact Nat.mul_le_mul_right _ (by omega)

/-- Of two blocks that share a leaf one lies inside the other. -/
theorem Overlaps.inside_or_inside (ha : a.InTree maxOrder) (hb : b.InTree maxOrder)
    (h : a.Overlaps b) : a.Inside b ∨ b.Inside a := by
  rcases Nat.le_total a.order b.order with hle | hle
  · exact .inl (h.inside ha hb hle)
  · exact .inr (h.symm.inside hb ha hle)

/-- Every block lies inside the root. -/
theorem InTree.inside_root (h : a.InTree maxOrder) : a.Inside (root maxOrder) :=
  ⟨Nat.zero_le _, by simpa [root, stop] using h.2.2⟩

/-! ## Halves -/

/-- The parent has half the index, among the nodes of the next order. -/
theorem parent_ofIndex (index order : Nat) :
    (ofIndex index order).parent = ofIndex (index / 2) (order + 1) := by
  simp only [parent, ofIndex, Nat.pow_succ', Nat.mul_div_mul_right _ _ (Nat.two_pow_pos order)]

/-- The index of the buddy differs in the last bit. -/
theorem buddy_ofIndex (index order : Nat) :
    (ofIndex index order).buddy = ofIndex (index ^^^ 1) order := by
  simp only [buddy, ofIndex, Config.buddy, Word.xor_mul_two_pow]

/-- Every node below the root has a parent in the tree. -/
theorem parent_inTree (h : a.InTree maxOrder) (hlt : a.order < maxOrder) :
    a.parent.InTree maxOrder := by
  obtain ⟨index, hindex, heq⟩ := h.exists_index
  rw [heq, parent_ofIndex, ofIndex_inTree]
  have hpow := two_pow_depth hlt
  constructor <;> omega

/-- Every node below the root has a buddy in the tree. -/
theorem buddy_inTree (h : a.InTree maxOrder) (hlt : a.order < maxOrder) :
    a.buddy.InTree maxOrder := by
  obtain ⟨index, hindex, heq⟩ := h.exists_index
  rw [heq, buddy_ofIndex, ofIndex_inTree]
  refine ⟨h.1, Nat.xor_lt_two_pow hindex (Nat.one_lt_two_pow (by omega))⟩

/-- A node and its buddy have the same parent. -/
theorem parent_buddy (h : a.InTree maxOrder) : a.buddy.parent = a.parent := by
  obtain ⟨index, -, heq⟩ := h.exists_index
  rw [heq, buddy_ofIndex, parent_ofIndex, parent_ofIndex, Word.xor_one]
  congr 1
  split <;> omega

/-- A node and its buddy are the two halves of their parent, in one order or the other. -/
theorem InTree.halves (h : a.InTree maxOrder) :
    a.parent.stop = a.parent.leaf + 2 * 2 ^ a.order ∧
      (a.leaf = a.parent.leaf ∧ a.buddy.leaf = a.parent.leaf + 2 ^ a.order ∨
        a.leaf = a.parent.leaf + 2 ^ a.order ∧ a.buddy.leaf = a.parent.leaf) := by
  obtain ⟨index, -, heq⟩ := h.exists_index
  have hparent : a.parent.leaf = 2 * (index / 2) * 2 ^ a.order := by
    rw [heq, parent_ofIndex]
    simp only [ofIndex, Nat.pow_succ']
    rw [Nat.mul_left_comm, Nat.mul_assoc]
  have hleaf : a.leaf = index * 2 ^ a.order := congrArg Node.leaf heq
  have hbuddy : a.buddy.leaf = (index ^^^ 1) * 2 ^ a.order := by
    conv_lhs => rw [heq, buddy_ofIndex]
    rfl
  refine ⟨by simp only [stop, parent, Nat.pow_succ'], ?_⟩
  rw [hleaf, hbuddy, hparent, Word.xor_one]
  split
  · next hodd =>
      right
      obtain ⟨half, rfl⟩ : ∃ half, index = 2 * half + 1 := ⟨index / 2, by omega⟩
      rw [show (2 * half + 1) / 2 = half by omega, Nat.add_mul, Nat.one_mul]
      exact ⟨rfl, rfl⟩
  · next heven =>
      left
      obtain ⟨half, rfl⟩ : ∃ half, index = 2 * half := ⟨index / 2, by omega⟩
      rw [show 2 * half / 2 = half by omega, Nat.add_mul, Nat.one_mul]
      exact ⟨rfl, rfl⟩

/-- A block lies inside its parent. -/
theorem inside_parent (h : a.InTree maxOrder) : a.Inside a.parent := by
  obtain ⟨hstop, hhalves⟩ := h.halves
  unfold Inside
  rw [hstop, stop]
  omega

/-- The buddy of a block lies inside the parent of the block. -/
theorem buddy_inside_parent (h : a.InTree maxOrder) : a.buddy.Inside a.parent := by
  obtain ⟨hstop, hhalves⟩ := h.halves
  have hbuddy : a.buddy.stop = a.buddy.leaf + 2 ^ a.order := rfl
  unfold Inside
  omega

/-- A block and its buddy share no leaf. -/
theorem not_overlaps_buddy (h : a.InTree maxOrder) : ¬ a.Overlaps a.buddy := by
  obtain ⟨-, hhalves⟩ := h.halves
  have hbuddy : a.buddy.stop = a.buddy.leaf + 2 ^ a.order := rfl
  unfold Overlaps
  rw [hbuddy, stop]
  omega

/-- What overlaps the parent overlaps one of its halves. -/
theorem parent_overlaps_iff (h : a.InTree maxOrder) :
    a.parent.Overlaps c ↔ a.Overlaps c ∨ a.buddy.Overlaps c := by
  obtain ⟨hstop, hhalves⟩ := h.halves
  have hbuddy : a.buddy.stop = a.buddy.leaf + 2 ^ a.order := rfl
  have hlt := c.leaf_lt_stop
  unfold Overlaps
  rw [hstop, hbuddy, stop.eq_1 a]
  omega

/-- A node lies inside itself and inside what its parent lies inside. -/
theorem inside_iff (ha : a.InTree maxOrder) (hb : b.InTree maxOrder) :
    a.Inside b ↔ a = b ∨ a.order < maxOrder ∧ a.parent.Inside b := by
  constructor
  · intro h
    by_cases heq : a = b
    · exact .inl heq
    · have hlt : a.order < b.order := by
        by_contra hle
        exact heq (h.eq_of_order_le (Nat.le_of_not_lt hle))
      have hroot : a.order < maxOrder := Nat.lt_of_lt_of_le hlt hb.1
      refine .inr ⟨hroot, ?_⟩
      exact (h.overlaps.mono (inside_parent ha)).inside (parent_inTree ha hroot) hb hlt
  · intro h
    rcases h with rfl | ⟨-, h⟩
    · exact .refl a
    · exact (inside_parent ha).trans h

/-- A node that is not the root lies strictly inside what its parent lies inside. -/
theorem strictlyInside_iff (ha : a.InTree maxOrder) (hlt : a.order < maxOrder)
    (hb : b.InTree maxOrder) : a.StrictlyInside b ↔ a.parent.Inside b := by
  rw [StrictlyInside, inside_iff ha hb]
  constructor
  · intro h
    obtain ⟨heq | ⟨-, hin⟩, hne⟩ := h
    · exact absurd heq hne
    · exact hin
  · intro hin
    refine ⟨.inr ⟨hlt, hin⟩, ?_⟩
    intro heq
    subst heq
    exact Nat.not_succ_le_self a.order hin.order_le

/-- Each step to the parent adds one to the order. -/
theorem order_iterate_parent (levels : Nat) (node : Node) :
    (parent^[levels] node).order = node.order + levels := by
  induction levels generalizing node with
  | zero => rfl
  | succ levels ih =>
      rw [Function.iterate_succ_apply, ih]
      show node.order + 1 + levels = _
      omega

/-- The ancestors of a node lie around it. -/
theorem inside_iterate_parent {levels : Nat} (ha : a.InTree maxOrder)
    (hb : (parent^[levels] a).InTree maxOrder) : a.Inside (parent^[levels] a) := by
  induction levels generalizing a with
  | zero => exact .refl a
  | succ levels ih =>
      have hle := hb.1
      rw [order_iterate_parent] at hle
      rw [Function.iterate_succ_apply] at hb ⊢
      exact (inside_parent ha).trans (ih (parent_inTree ha (by omega)) hb)

/-- A node of the tree lies strictly around another one exactly if it is a strict ancestor. -/
theorem strictlyInside_iff_strictAncestor (ha : a.InTree maxOrder) (hb : b.InTree maxOrder) :
    a.StrictlyInside b ↔ b.StrictAncestor a := by
  constructor
  · intro hin
    induction hlevels : b.order - a.order generalizing a with
    | zero => exact absurd (hin.1.eq_of_order_le (by omega)) hin.2
    | succ levels ih =>
        have hlt : a.order < maxOrder := by
          have hle := hb.1
          omega
        by_cases heq : a.parent = b
        · exact ⟨1, Nat.one_pos, heq⟩
        · have hparent := (strictlyInside_iff ha hlt hb).1 hin
          have horder : a.parent.order = a.order + 1 := rfl
          obtain ⟨n, -, hn⟩ := ih (parent_inTree ha hlt) ⟨hparent, heq⟩ (by omega)
          exact ⟨n + 1, Nat.succ_pos n, by rw [Function.iterate_succ_apply, hn]⟩
  · intro hancestor
    obtain ⟨levels, hpos, rfl⟩ := hancestor
    refine ⟨inside_iterate_parent ha hb, fun heq => ?_⟩
    have horder := congrArg order heq
    rw [order_iterate_parent] at horder
    omega

/-- Clearing one bit of the first leaf gives the first leaf of the parent. -/
theorem clearBit_leaf (h : a.InTree maxOrder) : Word.clearBit a.leaf a.order = a.parent.leaf := by
  obtain ⟨index, -, heq⟩ := h.exists_index
  rw [heq, parent_ofIndex]
  exact Word.clearBit_mul_two_pow index a.order

/-- A proper part of the parent lies inside one of its halves. -/
theorem inside_or_inside_buddy (ha : a.InTree maxOrder) (hlt : a.order < maxOrder)
    (hc : c.InTree maxOrder) (h : c.StrictlyInside a.parent) :
    c.Inside a ∨ c.Inside a.buddy := by
  have horder : c.order ≤ a.order := by
    by_contra hgt
    exact h.2 (h.1.eq_of_order_le (Nat.lt_of_not_le hgt))
  rcases (parent_overlaps_iff ha).1 h.1.overlaps.symm with hover | hover
  · exact .inl (hover.symm.inside hc ha horder)
  · exact .inr (hover.symm.inside hc (buddy_inTree ha hlt) horder)

/-- The halves of a node have the indices `2 * index` and `2 * index + 1`. -/
theorem exists_index_halves {leaf order : Nat}
    (h : (Node.mk leaf (order + 1)).InTree maxOrder) :
    ∃ index, index < 2 ^ (maxOrder - (order + 1)) ∧
      Node.mk leaf (order + 1) = ofIndex index (order + 1) ∧
      Node.mk leaf order = ofIndex (2 * index) order ∧
      Node.mk (leaf + 2 ^ order) order = ofIndex (2 * index + 1) order := by
  obtain ⟨index, hindex, heq⟩ := h.exists_index
  have hleaf : leaf = 2 * index * 2 ^ order := by
    have hindexed : leaf = index * 2 ^ (order + 1) := congrArg Node.leaf heq
    rw [hindexed, Nat.pow_succ', Nat.mul_left_comm, Nat.mul_assoc]
  refine ⟨index, hindex, heq, ?_, ?_⟩
  · rw [hleaf, ofIndex]
  · rw [hleaf, ofIndex, Nat.add_mul, Nat.one_mul]

/-- The front half of a node starts at the same leaf, and its buddy is the back half. -/
theorem front_inTree {leaf order : Nat} (h : (Node.mk leaf (order + 1)).InTree maxOrder) :
    (Node.mk leaf order).InTree maxOrder ∧
      (Node.mk leaf order).parent = ⟨leaf, order + 1⟩ ∧
      (Node.mk leaf order).buddy = ⟨leaf + 2 ^ order, order⟩ := by
  obtain ⟨index, hindex, hnode, hfront, hback⟩ := exists_index_halves h
  have hlt : order < maxOrder := h.1
  have hpow := two_pow_depth hlt
  rw [hfront, hback, hnode, ofIndex_inTree, parent_ofIndex, buddy_ofIndex, Word.xor_one,
    if_neg (by omega), show 2 * index / 2 = index by omega]
  exact ⟨⟨Nat.le_of_lt hlt, by omega⟩, rfl, rfl⟩

/-- A node that is halved any number of times leaves a node at the same leaf. -/
theorem front_inside {leaf order levels : Nat}
    (h : (Node.mk leaf (order + levels)).InTree maxOrder) :
    (Node.mk leaf order).InTree maxOrder ∧
      (Node.mk leaf order).Inside ⟨leaf, order + levels⟩ := by
  induction levels with
  | zero => exact ⟨h, .refl _⟩
  | succ levels ih =>
      obtain ⟨hfront, hparent, -⟩ := front_inTree h
      obtain ⟨hnode, hin⟩ := ih hfront
      exact ⟨hnode, hin.trans (hparent ▸ inside_parent hfront)⟩

/-! ## Nodes of a configuration -/

/-- The number of a node in the bitmap. -/
def number (config : Config) (node : Node) : Nat :=
  config.node node.leaf node.order

variable {config : Config}

/-- A block starts at a multiple of its length in bytes. -/
theorem len_dvd (h : a.InTree maxOrder) :
    config.blockSize * 2 ^ a.order ∣ a.leaf * config.blockSize := by
  rw [Nat.mul_comm a.leaf]
  exact Nat.mul_dvd_mul_left _ (Nat.dvd_of_mod_eq_zero h.2.1)

/-- The nodes of an order are numbered one after the other, after those of greater orders. -/
theorem number_ofIndex (index order : Nat) :
    (ofIndex index order).number config = 2 ^ (config.maxOrder - order) - 1 + index := by
  simp only [number, ofIndex, Config.node, Nat.mul_div_cancel _ (Nat.two_pow_pos order)]

/-- The number of a node of the tree is the number of a bit. -/
theorem number_lt (h : a.InTree config.maxOrder) : a.number config < config.nodeCount := by
  obtain ⟨index, hindex, heq⟩ := h.exists_index
  have hpow : 2 ^ (config.maxOrder - a.order) ≤ 2 ^ config.maxOrder :=
    Nat.pow_le_pow_right Nat.two_pos (Nat.sub_le _ _)
  rw [heq, number_ofIndex, Config.nodeCount, Config.blockCount]
  omega

theorem nodeCount_lt_bound (config : Config) : config.nodeCount < Word.bound := by
  have hbits := config.bits_lt
  have hpow : 2 ^ config.maxOrder ≤ 2 ^ 63 :=
    Nat.pow_le_pow_right Nat.two_pos (by simp only [Word.bits] at hbits; omega)
  have hpos := Nat.two_pow_pos config.maxOrder
  rw [Config.nodeCount, Config.blockCount, Word.bound]
  omega

/-- The checks on the way to the number of a node of the tree succeed. -/
theorem checkedNode_eq (h : a.InTree config.maxOrder) :
    config.checkedNode a.leaf a.order = .ok (a.number config) := by
  have hlt : a.number config < Word.bound :=
    Nat.lt_trans (number_lt h) (nodeCount_lt_bound config)
  have hadd : Word.add (2 ^ (config.maxOrder - a.order) - 1) (a.leaf / 2 ^ a.order) =
      .ok (a.number config) :=
    if_pos hlt
  simp only [Config.checkedNode, Checked.require, if_pos h.1, if_pos h.2.1, hadd, bind,
    Except.bind]

/-- Different nodes have different numbers. -/
theorem number_inj (ha : a.InTree config.maxOrder) (hb : b.InTree config.maxOrder)
    (h : a.number config = b.number config) : a = b := by
  obtain ⟨i, hi, haeq⟩ := ha.exists_index
  obtain ⟨j, hj, hbeq⟩ := hb.exists_index
  rw [haeq, hbeq, number_ofIndex, number_ofIndex] at h
  have hapos := Nat.two_pow_pos (config.maxOrder - a.order)
  have hbpos := Nat.two_pow_pos (config.maxOrder - b.order)
  have hnumbers : 2 ^ (config.maxOrder - a.order) + i = 2 ^ (config.maxOrder - b.order) + j := by
    omega
  -- The depth of a node is the logarithm of its number plus one.
  have hdepth : config.maxOrder - a.order = config.maxOrder - b.order := by
    have hloga : (2 ^ (config.maxOrder - a.order) + i).log2 = config.maxOrder - a.order :=
      (Nat.log2_eq_iff (by omega)).2 ⟨by omega, by rw [Nat.pow_succ]; omega⟩
    have hlogb : (2 ^ (config.maxOrder - b.order) + j).log2 = config.maxOrder - b.order :=
      (Nat.log2_eq_iff (by omega)).2 ⟨by omega, by rw [Nat.pow_succ]; omega⟩
    rw [← hloga, hnumbers, hlogb]
  have horder : a.order = b.order := by
    have h1 := ha.1
    have h2 := hb.1
    omega
  rw [haeq, hbeq, horder]
  congr 1
  rw [hdepth] at hnumbers
  omega

/-- Every number below that of the nodes is the number of a node. -/
theorem exists_number_eq {index : Nat} (h : index < config.nodeCount) :
    ∃ node : Node, node.InTree config.maxOrder ∧ node.number config = index := by
  -- The depth of the node is the logarithm of its number plus one.
  obtain ⟨depth, hdepth⟩ : ∃ depth, depth = (index + 1).log2 := ⟨_, rfl⟩
  have hbounds := (Nat.log2_eq_iff (Nat.succ_ne_zero index)).1 hdepth.symm
  have hmax : depth ≤ config.maxOrder := by
    rw [Config.nodeCount, Config.blockCount] at h
    have hlt : 2 ^ depth < 2 ^ (config.maxOrder + 1) := by
      rw [Nat.pow_succ']
      omega
    exact Nat.le_of_lt_succ ((Nat.pow_lt_pow_iff_right Nat.one_lt_two).1 hlt)
  have hsub : config.maxOrder - (config.maxOrder - depth) = depth := by omega
  rw [Nat.pow_succ'] at hbounds
  refine ⟨ofIndex (index + 1 - 2 ^ depth) (config.maxOrder - depth), ?_, ?_⟩
  · rw [ofIndex_inTree, hsub]
    constructor <;> omega
  · rw [number_ofIndex, hsub]
    omega

/-- The parent of a node that is not the root, computed on numbers. -/
theorem number_parent (h : a.InTree config.maxOrder) (hlt : a.order < config.maxOrder) :
    0 < a.number config ∧ (a.number config - 1) / 2 = a.parent.number config := by
  obtain ⟨index, -, heq⟩ := h.exists_index
  have hpow := two_pow_depth hlt
  have hpos := Nat.two_pow_pos (config.maxOrder - (a.order + 1))
  rw [heq, parent_ofIndex, number_ofIndex, number_ofIndex]
  constructor <;> omega

/-- The halves of a node, computed on numbers. -/
theorem number_halves {leaf order : Nat}
    (h : (Node.mk leaf (order + 1)).InTree config.maxOrder) :
    (Node.mk leaf order).number config = 2 * (Node.mk leaf (order + 1)).number config + 1 ∧
      (Node.mk (leaf + 2 ^ order) order).number config =
        2 * (Node.mk leaf (order + 1)).number config + 2 := by
  obtain ⟨index, hindex, hnode, hfront, hback⟩ := exists_index_halves h
  have hpow := two_pow_depth (show order < config.maxOrder from h.1)
  have hpos := Nat.two_pow_pos (config.maxOrder - (order + 1))
  rw [hfront, hback, hnode, number_ofIndex, number_ofIndex, number_ofIndex]
  constructor <;> omega

end Node

end BuddySystem
