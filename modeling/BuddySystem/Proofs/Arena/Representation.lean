import BuddySystem.Proofs.Arena.Runs

/-!
# The representation of the live blocks

What the bits and the lists of an arena say about its live blocks (`Occupied.Represented`): a bit is
set for every live block and for its ancestors, the lists hold the largest blocks without a live
leaf, and together the live and the listed blocks are a partition of the leaves.
`represented_run` says that this is so after every run.
-/

namespace BuddySystem

open FreeLists Occupancy Arena

namespace Occupied

variable {config : Config}

/-- Whether a block is in the list for its order. -/
def Listed (occupied : Occupied config) (block : Node) : Prop :=
  block.leaf ∈ occupied.arena.free.toList block.order

/-- The bits and the lists of an arena represent its live blocks. -/
structure Represented (occupied : Occupied config) : Prop where
  /-- A bit is set exactly for the live blocks and their strict ancestors. -/
  bit : ∀ node : Node, node.InTree config.maxOrder →
    ∃ used, occupied.arena.nodes.get (config.node node.leaf node.order) = .ok used ∧
      (used = true ↔
        node ∈ occupied.live ∨ ∃ block ∈ occupied.live, node.StrictAncestor block)
  /-- The links in both directions, the heads and the lengths agree on what is in each list. -/
  linked : occupied.arena.free.Holds occupied.arena.free.toList
  nodup : ∀ order, (occupied.arena.free.toList order).Nodup
  /-- The lists hold the nodes that overlap no live block and whose parent does, if there is one. -/
  listed_iff : ∀ node : Node, occupied.Listed node ↔
    node.InTree config.maxOrder ∧ (∀ block ∈ occupied.live, ¬block.Overlaps node) ∧
      (node.order = config.maxOrder ∨ ∃ block ∈ occupied.live, block.Overlaps node.parent)
  /-- No free block has a free buddy. -/
  merged : ∀ node : Node, node.order < config.maxOrder → occupied.Listed node →
    ¬occupied.Listed node.buddy
  /-- A node that is set and not live has a child that is set. -/
  split : ∀ node : Node, node.InTree config.maxOrder →
    occupied.arena.nodes.get (config.node node.leaf node.order) = .ok true →
    node ∉ occupied.live →
      0 < node.order ∧
        occupied.arena.hasUsedChild (config.node node.leaf node.order) = .ok true
  /-- A live block has no child that is set. -/
  whole : ∀ block ∈ occupied.live, 0 < block.order →
    occupied.arena.hasUsedChild (config.node block.leaf block.order) = .ok false
  /-- The live and the listed blocks are nodes of the tree. -/
  inTree : ∀ block : Node, block ∈ occupied.live ∨ occupied.Listed block →
    block.InTree config.maxOrder
  /-- Every leaf is in exactly one live or listed block. -/
  cover : ∀ leaf < config.blockCount,
    ∃! block : Node, (block ∈ occupied.live ∨ occupied.Listed block) ∧
      block.leaf ≤ leaf ∧ leaf < block.stop

variable {start : Arena config} {occupied : Occupied config} {node : Node}

/-- The listed nodes are the vacant ones. -/
theorem listed_iff_vacant (h : occupied.arena.Keeps start occupied.ledger) :
    occupied.Listed node ↔ Vacant config.maxOrder occupied.live node :=
  h.balanced.mem_iff node

/-- The bit of a node tells whether it is a live block or an ancestor of one. -/
theorem get_iff (h : occupied.arena.Keeps start occupied.ledger)
    (hnode : node.InTree config.maxOrder) :
    ∃ used, occupied.arena.nodes.get (config.node node.leaf node.order) = .ok used ∧
      (used = true ↔
        node ∈ occupied.live ∨ ∃ block ∈ occupied.live, node.StrictAncestor block) := by
  refine ⟨_, h.shows_ledger.get_eq hnode, ?_⟩
  rw [decide_eq_true_iff, used_iff]
  refine or_congr_right (exists_congr fun block => and_congr_right fun hmem => ?_)
  exact Node.strictlyInside_iff_strictAncestor (h.placed.inTree block hmem) hnode

/-- A node that is not a leaf has a child that is set if a live block lies strictly inside it. -/
theorem hasUsedChild_iff (h : occupied.arena.Keeps start occupied.ledger)
    (hnode : node.InTree config.maxOrder) (hpos : 0 < node.order) :
    ∃ used, occupied.arena.hasUsedChild (config.node node.leaf node.order) = .ok used ∧
      (used = true ↔ ∃ block ∈ occupied.live, block.StrictlyInside node) := by
  obtain ⟨leaf, order⟩ := node
  cases order with
  | zero => exact absurd hpos (Nat.lt_irrefl 0)
  | succ order =>
      exact ⟨_, h.shows_ledger.hasUsedChild_eq h.placed hnode, decide_eq_true_iff⟩

/-- An arena that keeps its live blocks represents them. -/
theorem represented_of_keeps (h : occupied.arena.Keeps start occupied.ledger) :
    occupied.Represented where
  bit node hnode := get_iff h hnode
  linked := h.shows_ledger.lists
  nodup := h.balanced.nodup
  listed_iff node := by
    rw [listed_iff_vacant h, Vacant, Touched, Touched]
    simp only [not_exists, not_and]
  merged node hlt hnode hbuddy := by
    rw [listed_iff_vacant h] at hnode hbuddy
    exact Ledger.not_vacant_buddy hnode hlt hbuddy
  split node hnode hget hlive := by
    have hbit := (h.shows_ledger.get_eq hnode).symm.trans hget
    have hused : Used occupied.live node := of_decide_eq_true (Except.ok.inj hbit)
    obtain ⟨block, hmem, hin⟩ := (used_iff.1 hused).resolve_left hlive
    have hpos : 0 < node.order := by
      by_contra hzero
      exact hin.2 (hin.1.eq_of_order_le (by omega))
    obtain ⟨used, hchild, hiff⟩ := hasUsedChild_iff h hnode hpos
    exact ⟨hpos, by rw [hchild, hiff.2 ⟨block, hmem, hin⟩]⟩
  whole block hmem hpos := by
    obtain ⟨used, hchild, hiff⟩ := hasUsedChild_iff h (h.placed.inTree block hmem) hpos
    have hfalse : used = false := by
      rw [← Bool.not_eq_true, hiff]
      intro hsplit
      obtain ⟨other, hother, hin⟩ := hsplit
      exact h.placed.not_used_of_strictlyInside hmem hin ⟨other, hother, .refl other⟩
    rw [hchild, hfalse]
  inTree block hblock := by
    rw [listed_iff_vacant h] at hblock
    exact hblock.elim (h.placed.inTree block) Vacant.inTree
  cover leaf hleaf := by
    simp only [listed_iff_vacant h]
    obtain ⟨block, hblock, hle, hlt⟩ := exists_block hleaf
    refine ⟨block, ⟨hblock, hle, hlt⟩, ?_⟩
    intro other hshares
    obtain ⟨hother, hle', hlt'⟩ := hshares
    exact h.placed.eq_of_overlaps hother hblock ⟨by omega, by omega⟩

end Occupied

/-- After every run the bits and the lists of an arena represent its live blocks. -/
theorem represented_run {config : Config} {σ : Type} {provider : Provider σ} {before after : σ}
    {start : Arena config} (h : (build config provider).run before = .ok (.ok start) after)
    (uses : List Use) : (Occupied.run start uses).Represented :=
  Occupied.represented_of_keeps (keeps_run h uses)

/-- A small arena with two live blocks represents them. -/
theorem represented_run_small :
    ∃ start after, (build Config.small Host.heap).run Host.fresh = .ok (.ok start) after ∧
      (Occupied.run start [.allocate 16 16, .allocate 17 4, .deallocate 3 1 1]).live =
        {⟨0, 0⟩, ⟨2, 1⟩} ∧
      (Occupied.run start [.allocate 16 16, .allocate 17 4, .deallocate 3 1 1]).Represented := by
  obtain ⟨start, after, h⟩ := exists_build_small
  refine ⟨start, after, h, ?_, represented_run h _⟩
  cases h
  decide +kernel

end BuddySystem
