import BuddySystem.Arena.Build
import BuddySystem.Proofs.Arena.Guarded
import Mathlib.Data.List.Iterate
import Mathlib.Data.Set.Function

/-!
# Numbers of nodes

The nodes of a tree are numbered without gaps, and the number of a node tells those of its parent
and its halves. When a block is given back, its leaf and order are followed up the tree by bits,
and its number by halving. Both stay together: whenever the loop of `Arena.deallocate` has computed
a number, it is the one of the leaf and the order at hand (`Turn.Tracks`), so the number of the
root is never halved.

What the variables of this loop hold is told by `Traced.deallocate`, which does what
`Arena.deallocate` does and notes them down. `heapOrdered` puts this together for every
configuration and for arenas in any state, whether a deallocation succeeds or fails in them.
-/

namespace BuddySystem

variable {config : Config}

/-! ## The nodes of a tree -/

/-- The leaves and orders at which there is a block. -/
def Config.nodes (config : Config) : Set Node :=
  {node | node.order ≤ config.maxOrder ∧ node.leaf < config.blockCount ∧
    node.leaf % 2 ^ node.order = 0}

/-- A block that starts before the last leaf does not end behind it. -/
theorem Config.mem_nodes {node : Node} : node ∈ config.nodes ↔ node.InTree config.maxOrder := by
  constructor
  · intro h
    obtain ⟨hle, hlt, haligned⟩ := h
    obtain ⟨index, hindex⟩ := Nat.dvd_of_mod_eq_zero haligned
    rw [Nat.mul_comm] at hindex
    have heq : node = Node.ofIndex index node.order := by
      rw [Node.ofIndex, ← hindex]
    rw [heq, Node.ofIndex_inTree]
    refine ⟨hle, ?_⟩
    rw [Config.blockCount, hindex, ← Nat.pow_sub_mul_pow 2 hle] at hlt
    exact Nat.lt_of_mul_lt_mul_right hlt
  · intro h
    exact ⟨h.1, h.leaf_lt, h.2.1⟩

/-- The numbers of a node and its buddy are the ones that follow from the number of their parent,
in one order or the other. -/
theorem Node.number_buddy {node : Node} (h : node.InTree config.maxOrder)
    (hlt : node.order < config.maxOrder) :
    node.number config = 2 * node.parent.number config + 1 ∧
        node.buddy.number config = 2 * node.parent.number config + 2 ∨
      node.number config = 2 * node.parent.number config + 2 ∧
        node.buddy.number config = 2 * node.parent.number config + 1 := by
  have hbuddy := buddy_inTree h hlt
  obtain ⟨hpos, hhalf⟩ := number_parent h hlt
  obtain ⟨hposBuddy, hhalfBuddy⟩ := number_parent hbuddy hlt
  rw [parent_buddy h] at hhalfBuddy
  have hne : node.number config ≠ node.buddy.number config := by
    intro heq
    have hself : node = node.buddy := number_inj h hbuddy heq
    exact not_overlaps_buddy h (hself ▸ (Inside.refl node).overlaps)
  omega

/-! ## Following a block up the tree -/

/-- What the variables of the loop that joins a block with its buddies hold. -/
structure Turn where
  /-- The first leaf of the block. -/
  leaf : Nat
  /-- The order of the block. -/
  order : Nat
  /-- The number of the block. -/
  node : Nat
  deriving DecidableEq

namespace Turn

/-- The variables after the block has been joined with its buddy. -/
def next (turn : Turn) : Turn :=
  ⟨Word.clearBit turn.leaf turn.order, turn.order + 1, (turn.node - 1) / 2⟩

/-- Whether the number is the one of the leaf and the order. -/
structure Tracks (config : Config) (turn : Turn) : Prop where
  order_le : turn.order ≤ config.maxOrder
  aligned : turn.leaf % 2 ^ turn.order = 0
  node_eq : turn.node = config.node turn.leaf turn.order

variable {turn : Turn}

/-- The number that is computed of a leaf and an order is that of their node. -/
theorem Tracks.of_checkedNode {leaf order node : Nat}
    (h : config.checkedNode leaf order = .ok node) : Tracks config ⟨leaf, order, node⟩ := by
  simp only [Config.checkedNode, Checked.bind_eq_ok, Checked.require_eq_ok] at h
  obtain ⟨-, hle, -, haligned, hsum⟩ := h
  refine ⟨hle, haligned, ?_⟩
  unfold Word.add at hsum
  split at hsum <;> cases hsum
  rfl

/-- A block that is not the whole arena is not numbered 0, and after it has been joined with its
buddy the number is still the one of the leaf and the order. -/
theorem Tracks.next (h : turn.Tracks config) (hlt : turn.order < config.maxOrder) :
    0 < turn.node ∧ turn.next.Tracks config := by
  obtain ⟨index, hindex⟩ := Nat.dvd_of_mod_eq_zero h.aligned
  rw [Nat.mul_comm] at hindex
  have hnode : turn.node = 2 ^ (config.maxOrder - turn.order) - 1 + index := by
    rw [h.node_eq, hindex]
    exact Node.number_ofIndex index turn.order
  have hleaf : turn.next.leaf = index / 2 * 2 ^ (turn.order + 1) := by
    rw [Turn.next, hindex, Word.clearBit_mul_two_pow]
  have hdepth := Node.two_pow_depth hlt
  have hpos := Nat.two_pow_pos (config.maxOrder - (turn.order + 1))
  refine ⟨by omega, ⟨hlt, ?_, ?_⟩⟩
  · rw [hleaf]
    exact Nat.mul_mod_left _ _
  · rw [hleaf]
    show (turn.node - 1) / 2 = (Node.ofIndex (index / 2) (turn.order + 1)).number config
    rw [Node.number_ofIndex]
    omega

/-- So it is as long as the block is not the whole arena. -/
theorem Tracks.iterate (h : turn.Tracks config) {count : Nat}
    (hle : turn.order + count ≤ config.maxOrder) : (Turn.next^[count] turn).Tracks config := by
  induction count generalizing turn with
  | zero => exact h
  | succ count ih =>
      rw [Function.iterate_succ_apply]
      refine ih (h.next (by omega)).2 ?_
      show turn.order + 1 + count ≤ config.maxOrder
      omega

/-- The leaf does not grow. -/
theorem leaf_iterate_le (count : Nat) (turn : Turn) :
    (Turn.next^[count] turn).leaf ≤ turn.leaf := by
  induction count generalizing turn with
  | zero => exact Nat.le_refl _
  | succ count ih =>
      rw [Function.iterate_succ_apply]
      exact Nat.le_trans (ih turn.next) (Word.clearBit_le turn.leaf turn.order)

end Turn

/-! ## Deallocation with notes -/

/-- An offset into a span is less than its extent. -/
theorem Span.lt_extent_of_offsetOf {span : Span} {addr offset : Nat}
    (h : span.offsetOf addr = .ok offset) : offset < span.extent := by
  simp only [Span.offsetOf, Checked.bind_eq_ok, Checked.require_eq_ok] at h
  obtain ⟨-, hcontains, hsub⟩ := h
  have hoffset := Word.eq_of_sub_eq_ok hsub
  simp only [Span.contains, Bool.and_eq_true, decide_eq_true_eq] at hcontains
  unfold Span.stop at hcontains
  omega

/-- The leaf of a block that was located is where the pointer points to, and its number has been
looked up. -/
theorem Arena.of_locate {arena : Arena config} {addr size align leaf order : Nat}
    (h : arena.locate addr size align = .ok (.ok (leaf, order))) :
    ∃ offset node, arena.span.offsetOf addr = .ok offset ∧ leaf = offset / config.blockSize ∧
      config.checkedNode leaf order = .ok node := by
  unfold Arena.locate at h
  split at h
  case isFalse => cases h
  case isTrue =>
    split at h
    case h_2 => cases h
    case h_1 found _ =>
      simp only [Checked.bind_eq_ok] at h
      obtain ⟨offset, hoffset, len, -, rest, -, h⟩ := h
      split at h
      case isFalse => cases h
      case isTrue =>
        simp only [Checked.bind_eq_ok] at h
        obtain ⟨node, hnode, used, -, h⟩ := h
        -- What is left are the bits, which decide whether the block that was found is returned.
        have hblock : (offset / config.blockSize, found) = (leaf, order) := by
          split at h
          case isFalse => cases h
          case isTrue =>
            split at h
            case isFalse => cases h; rfl
            case isTrue =>
              rw [Checked.bind_eq_ok] at h
              obtain ⟨split, -, h⟩ := h
              cases split <;> cases h
              rfl
        cases hblock
        exact ⟨offset, node, hoffset, rfl, hnode⟩

namespace Traced

/-- An arena, and what the variables have held. -/
abbrev State (config : Config) : Type := Arena config × List Turn

/-- Notes what the variables hold. -/
def note (turn : Turn) : Step (State config) Unit :=
  modify fun state => (state.1, state.2 ++ [turn])

/-- `Arena.coalesce` that notes the variables down when the number of a parent is known. -/
def coalesce (leaf order node : Nat) : Nat → Step (State config) Unit
  | 0 => Focus.first.run (Arena.freeLists.run (FreeLists.push order leaf))
  | levels + 1 => do
      let buddy := Config.buddy leaf order
      if ← (← get).1.nodes.get (← config.checkedNode buddy order) then
        Focus.first.run (Arena.freeLists.run (FreeLists.push order leaf))
      else
        Focus.first.run (Arena.freeLists.run (FreeLists.remove order buddy))
        let parent := (← Word.sub node 1) / 2
        note ⟨Word.clearBit leaf order, order + 1, parent⟩
        Focus.first.run (Arena.mark parent false)
        coalesce (Word.clearBit leaf order) (order + 1) parent levels

/-- `Arena.deallocate` that notes the variables of its loop down whenever a number is known. -/
def deallocate (addr size align : Nat) : Step (State config) (Except Rejection Unit) := do
  match ← (← get).1.locate addr size align with
  | .error reason => return .error reason
  | .ok (leaf, order) =>
      let node ← config.checkedNode leaf order
      note ⟨leaf, order, node⟩
      Focus.first.run (Arena.mark node false)
      coalesce leaf order node (config.maxOrder - order)
      return .ok ()

/-- What the variables hold in turn when a pointer is given back, until this is done or fails. -/
def turns (arena : Arena config) (addr size align : Nat) : List Turn :=
  (stateOf ((deallocate addr size align).run (arena, []))).2

/-! ## The notes change nothing -/

theorem mirrors_focus {α : Type} (step : Step (Arena config) α) :
    Mirrors Prod.fst (Focus.first.run step : Step (State config) α) step :=
  .focus Focus.first (fun _ _ => rfl) step

/-- Merging buddies with notes merges them. -/
theorem mirrors_coalesce (leaf order node levels : Nat) :
    Mirrors Prod.fst (coalesce leaf order node levels : Step (State config) Unit)
      (Arena.coalesce leaf order node levels) := by
  induction levels generalizing leaf order node with
  | zero => exact mirrors_focus _
  | succ levels ih =>
      rw [coalesce, Arena.coalesce]
      refine .get_bind fun state => .bind (.lift _ _) fun number => ?_
      refine .bind (.lift _ _) fun used => .ite (mirrors_focus _) ?_
      refine .bind (mirrors_focus _) fun _ => .bind (.lift _ _) fun parent => ?_
      exact .modify_bind (fun _ => rfl) (.bind (mirrors_focus _) fun _ => ih _ _ _)

/-- A deallocation with notes is a deallocation. -/
theorem mirrors_deallocate (addr size align : Nat) :
    Mirrors Prod.fst (deallocate addr size align : Step (State config) (Except Rejection Unit))
      (Arena.deallocate addr size align) := by
  refine .get_bind fun state => .bind (.lift _ _) fun located => ?_
  cases located with
  | error reason => exact .pure _ _
  | ok block =>
      refine .bind (.lift _ _) fun node => .modify_bind (fun _ => rfl) ?_
      exact .bind (mirrors_focus _) fun _ => .bind (mirrors_coalesce _ _ _ _) fun _ => .pure _ _

/-! ## What is noted -/

/-- Whether the notes that a step leaves, also if it fails, are as said. -/
def Leaves {α : Type} (step : Step (State config) α) (turns : List Turn)
    (expected : List Turn → Prop) : Prop :=
  ∀ arena, expected (stateOf (step.run (arena, turns))).2

namespace Leaves

variable {α β : Type} {step : Step (State config) α} {next : α → Step (State config) β}
  {turns : List Turn} {expected : List Turn → Prop}

theorem imp {other : List Turn → Prop} (h : Leaves step turns expected)
    (himp : ∀ notes, expected notes → other notes) : Leaves step turns other :=
  fun arena => himp _ (h arena)

theorem get (turns : List Turn) :
    Leaves (MonadState.get : Step (State config) (State config)) turns (· = turns) :=
  fun _ => rfl

/-- A step on the arena notes nothing. -/
theorem focus (step : Step (Arena config) α) (hturns : expected turns) :
    Leaves (Focus.first.run step : Step (State config) α) turns expected := by
  intro arena
  rw [stateOf_focus]
  exact hturns

/-- A step that notes nothing leaves what the rest does, or what was there if it fails. -/
theorem bind (hsilent : Leaves step turns (· = turns)) (hturns : expected turns)
    (hnext : ∀ value, Leaves (next value) turns expected) :
    Leaves (step >>= next) turns expected := by
  intro arena
  have hkept := hsilent arena
  rw [EStateM.run_bind]
  cases hrun : step.run (arena, turns) with
  | error fault after =>
      rw [hrun] at hkept
      exact (congrArg expected hkept).mpr hturns
  | ok value after =>
      rw [hrun] at hkept
      obtain ⟨between, left⟩ := after
      obtain rfl : left = turns := hkept
      exact hnext value between

/-- What follows on a check may use that it succeeded. -/
theorem lift_bind {checked : Checked α} (hturns : expected turns)
    (hnext : ∀ value, checked = .ok value → Leaves (next value) turns expected) :
    Leaves (liftM checked >>= next) turns expected := by
  cases checked with
  | error fault => exact fun _ => hturns
  | ok value => exact hnext value rfl

/-- What follows on a note finds it at the end. -/
theorem note_bind {turn : Turn} {next : Unit → Step (State config) β}
    (h : Leaves (next ()) (turns ++ [turn]) expected) :
    Leaves (note turn >>= next) turns expected :=
  h

theorem bind_pure (h : Leaves step turns expected) (value : β) :
    Leaves (step >>= fun _ => pure value) turns expected := by
  intro arena
  have hleft := h arena
  rw [EStateM.run_bind]
  cases hrun : step.run (arena, turns) <;> rw [hrun] at hleft <;> exact hleft

end Leaves

/-- Whether the notes go on from a turn with the next ones, so many at most. -/
def Onward (turn : Turn) (most : Nat) (before after : List Turn) : Prop :=
  ∃ count ≤ most, after = before ++ List.iterate Turn.next turn.next count

namespace Onward

variable {turn : Turn} {most : Nat} {before after : List Turn}

theorem refl (turn : Turn) (most : Nat) (before : List Turn) : Onward turn most before before :=
  ⟨0, Nat.zero_le most, (List.append_nil before).symm⟩

/-- Notes that go on from the next turn, which is noted, go on from this one. -/
theorem step (h : Onward turn.next most (before ++ [turn.next]) after) :
    Onward turn (most + 1) before after := by
  obtain ⟨count, hcount, heq⟩ := h
  refine ⟨count + 1, Nat.succ_le_succ hcount, ?_⟩
  rw [heq, List.append_assoc]
  rfl

end Onward

/-- The loop goes up the tree, one turn after the other. -/
theorem leaves_coalesce (turn : Turn) (levels : Nat) (turns : List Turn) :
    Leaves (coalesce turn.leaf turn.order turn.node levels : Step (State config) Unit) turns
      (Onward turn levels turns) := by
  -- Where the loop ends or fails, nothing is noted after what was noted by then.
  have hnone := Onward.refl turn levels turns
  induction levels generalizing turn turns with
  | zero => exact .focus _ hnone
  | succ levels ih =>
      rw [coalesce]
      refine .bind (.get _) hnone fun state => .lift_bind hnone fun number _ => ?_
      refine .lift_bind hnone fun used _ => ?_
      split
      · exact .focus _ hnone
      · refine .bind (.focus _ rfl) hnone fun _ => .lift_bind hnone fun rest hrest => ?_
        obtain rfl := Word.eq_of_sub_eq_ok hrest
        have hnoted := Onward.refl turn.next levels (turns ++ [turn.next])
        refine .note_bind (.bind (.focus _ rfl) hnoted.step fun _ => ?_)
        exact (ih turn.next (turns ++ [turn.next]) hnoted).imp fun notes hnotes => hnotes.step

/-- The variables start out with the block that was located, and its number. -/
theorem turns_of_locate {arena : Arena config} {addr size align leaf order node : Nat}
    (hlocate : arena.locate addr size align = .ok (.ok (leaf, order)))
    (hnode : config.checkedNode leaf order = .ok node) :
    ∃ count ≤ config.maxOrder - order,
      turns arena addr size align = List.iterate Turn.next ⟨leaf, order, node⟩ (count + 1) := by
  let first : Turn := ⟨leaf, order, node⟩
  let levels := config.maxOrder - order
  have hrest : Leaves (do
      note first
      Focus.first.run (Arena.mark node false)
      coalesce leaf order node levels
      return .ok () : Step (State config) (Except Rejection Unit)) []
      (Onward first levels [first]) :=
    .note_bind (.bind (.focus _ rfl) (.refl first levels [first]) fun _ =>
      (leaves_coalesce first levels [first]).bind_pure _)
  obtain ⟨count, hcount, hturns⟩ := hrest arena
  refine ⟨count, hcount, ?_⟩
  rw [turns, deallocate, EStateM.run_bind, EStateM.run_get]
  dsimp only
  rw [hlocate, EStateM.run_bind, run_liftM_ok]
  dsimp only
  rw [hnode]
  exact hturns

/-- There are turns only if a block was located. -/
theorem locate_of_mem {arena : Arena config} {addr size align : Nat} {turn : Turn}
    (h : turn ∈ turns arena addr size align) :
    ∃ leaf order, arena.locate addr size align = .ok (.ok (leaf, order)) := by
  rw [turns, deallocate, EStateM.run_bind, EStateM.run_get] at h
  dsimp only at h
  cases hlocate : arena.locate addr size align with
  | error fault =>
      rw [hlocate] at h
      cases h
  | ok located =>
      cases located with
      | error reason =>
          rw [hlocate] at h
          cases h
      | ok block => exact ⟨block.1, block.2, rfl⟩

/-- In every turn the number is the one of the leaf and the order, and the leaf is not behind the
one that the pointer points to. -/
theorem tracks_of_mem {arena : Arena config} {addr size align : Nat} {turn : Turn}
    (h : turn ∈ turns arena addr size align) :
    turn.Tracks config ∧
      ∃ offset, arena.span.offsetOf addr = .ok offset ∧ turn.leaf ≤ offset / config.blockSize := by
  obtain ⟨leaf, order, hlocate⟩ := locate_of_mem h
  obtain ⟨offset, node, hoffset, hleaf, hnode⟩ := Arena.of_locate hlocate
  obtain ⟨count, hcount, hturns⟩ := turns_of_locate hlocate hnode
  have hfirst := Turn.Tracks.of_checkedNode hnode
  have hle : order ≤ config.maxOrder := hfirst.order_le
  rw [hturns, List.mem_iterate] at h
  obtain ⟨index, hindex, rfl⟩ := h
  have hroot : order + index ≤ config.maxOrder := by omega
  refine ⟨hfirst.iterate hroot, offset, hoffset, ?_⟩
  rw [← hleaf]
  exact Turn.leaf_iterate_le index ⟨leaf, order, node⟩

/-- There is a block at the leaf and the order of a turn, unless the arena is too long. -/
theorem mem_nodes_of_mem {arena : Arena config} (hextent : arena.span.extent ≤ config.capacity)
    {addr size align : Nat} {turn : Turn} (h : turn ∈ turns arena addr size align) :
    ⟨turn.leaf, turn.order⟩ ∈ config.nodes := by
  obtain ⟨htracks, offset, hoffset, hle⟩ := tracks_of_mem h
  refine ⟨htracks.order_le, Nat.lt_of_le_of_lt hle ?_, htracks.aligned⟩
  rw [Nat.div_lt_iff_lt_mul config.blockSize_pos, ← config.capacity_eq]
  exact Nat.lt_of_lt_of_le (Span.lt_extent_of_offsetOf hoffset) hextent

end Traced

/-! ## Bits and numbers -/

/-- How the numbers of nodes go with the tree, and with the loop that follows a block up the
tree. -/
structure HeapOrdered (config : Config) : Prop where
  /-- The number of a node is what is computed with words, and the checks on the way succeed. -/
  computed : ∀ leaf order, ⟨leaf, order⟩ ∈ config.nodes →
    config.checkedNode leaf order = .ok (config.node leaf order) ∧
      config.wordNode leaf order = .ok (config.node leaf order)
  /-- The nodes are numbered without gaps, and different ones have different numbers. -/
  bijOn : Set.BijOn (fun node : Node => config.node node.leaf node.order) config.nodes
    (Set.Iio (2 * config.blockCount - 1))
  /-- The halves of a node have the two numbers that go with its own. -/
  halves : ∀ leaf order, ⟨leaf, order⟩ ∈ config.nodes → 0 < order →
    let number := config.node leaf order
    let back := leaf + 2 ^ (order - 1)
    ⟨leaf, order - 1⟩ ∈ config.nodes ∧ ⟨back, order - 1⟩ ∈ config.nodes ∧
      config.node leaf (order - 1) = 2 * number + 1 ∧ config.node back (order - 1) = 2 * number + 2
  /-- Clearing a bit of the leaf leads to the parent, and flipping it to the parent's other half. -/
  siblings : ∀ leaf order, ⟨leaf, order⟩ ∈ config.nodes → order < config.maxOrder →
    let front := Word.clearBit leaf order
    let buddy := Config.buddy leaf order
    let number := config.node front (order + 1)
    ⟨front, order + 1⟩ ∈ config.nodes ∧ ⟨buddy, order⟩ ∈ config.nodes ∧
      (config.node leaf order = 2 * number + 1 ∧ config.node buddy order = 2 * number + 2 ∨
        config.node leaf order = 2 * number + 2 ∧ config.node buddy order = 2 * number + 1)
  /-- To note the variables of the loop down changes nothing. -/
  mirrors : ∀ addr size align : Nat,
    Mirrors Prod.fst (Traced.deallocate addr size align : Step (Traced.State config) _)
      (Arena.deallocate addr size align)
  /-- The first turn is at the block that was located, and from one turn to the next a bit of the
  leaf is cleared and the number is halved. -/
  onward : ∀ (arena : Arena config) (addr size align leaf order : Nat),
    arena.locate addr size align = .ok (.ok (leaf, order)) → ∃ count,
      Traced.turns arena addr size align =
        List.iterate Turn.next ⟨leaf, order, config.node leaf order⟩ (count + 1)
  /-- In every turn the number is the one of the leaf and the order. -/
  tracks : ∀ (arena : Arena config) (addr size align : Nat),
    ∀ turn ∈ Traced.turns arena addr size align,
      turn.order ≤ config.maxOrder ∧ turn.leaf % 2 ^ turn.order = 0 ∧
        turn.node = config.node turn.leaf turn.order
  /-- A number that is halved is not 0. -/
  positive : ∀ (arena : Arena config) (addr size align : Nat),
    ∀ turn ∈ Traced.turns arena addr size align, turn.order < config.maxOrder → 0 < turn.node
  /-- There is a block at the leaf and the order, unless the arena is too long. -/
  placed : ∀ arena : Arena config, arena.span.extent ≤ config.capacity →
    ∀ addr size align : Nat, ∀ turn ∈ Traced.turns arena addr size align,
      ⟨turn.leaf, turn.order⟩ ∈ config.nodes

/-- The numbers of nodes go with the tree in every configuration. -/
theorem heapOrdered (config : Config) : HeapOrdered config where
  computed leaf order hmem := by
    have hchecked := Node.checkedNode_eq (Config.mem_nodes.1 hmem)
    exact ⟨hchecked, (config.wordNode_eq leaf order).trans hchecked⟩
  bijOn := by
    refine ⟨fun node hnode => ?_, fun node hnode other hother heq => ?_, fun number hlt => ?_⟩
    · exact Node.number_lt (Config.mem_nodes.1 hnode)
    · exact Node.number_inj (Config.mem_nodes.1 hnode) (Config.mem_nodes.1 hother) heq
    · obtain ⟨node, hnode, hnumber⟩ := Node.exists_number_eq hlt
      exact ⟨node, Config.mem_nodes.2 hnode, hnumber⟩
  halves leaf order hmem hpos := by
    obtain ⟨order, rfl⟩ := Nat.exists_eq_add_one_of_ne_zero hpos.ne'
    have hnode := Config.mem_nodes.1 hmem
    obtain ⟨hfront, -, hbuddy⟩ := Node.front_inTree hnode
    have hback := Node.buddy_inTree hfront hnode.1
    rw [hbuddy] at hback
    exact ⟨Config.mem_nodes.2 hfront, Config.mem_nodes.2 hback, Node.number_halves hnode⟩
  siblings leaf order hmem hlt := by
    have hnode := Config.mem_nodes.1 hmem
    have hfront : Node.mk (Word.clearBit leaf order) (order + 1) = (Node.mk leaf order).parent := by
      rw [Node.clearBit_leaf hnode]
      rfl
    have hnumbers := Node.number_buddy hnode hlt
    have hparent := Config.mem_nodes.2 (Node.parent_inTree hnode hlt)
    rw [← hfront] at hnumbers hparent
    exact ⟨hparent, Config.mem_nodes.2 (Node.buddy_inTree hnode hlt), hnumbers⟩
  mirrors := Traced.mirrors_deallocate
  onward _ _ _ _ leaf order hlocate := by
    obtain ⟨-, node, -, -, hnode⟩ := Arena.of_locate hlocate
    obtain ⟨count, -, hturns⟩ := Traced.turns_of_locate hlocate hnode
    have hnumber : node = config.node leaf order := (Turn.Tracks.of_checkedNode hnode).node_eq
    exact ⟨count, hnumber ▸ hturns⟩
  tracks _ _ _ _ _ hturn :=
    have htracks := (Traced.tracks_of_mem hturn).1
    ⟨htracks.order_le, htracks.aligned, htracks.node_eq⟩
  positive _ _ _ _ _ hturn hlt := ((Traced.tracks_of_mem hturn).1.next hlt).1
  placed _ hextent _ _ _ _ hturn := Traced.mem_nodes_of_mem hextent hturn

-- The second leaf of four is given back. It is joined with the first one, then with the other half.
example :
    (do
      let start : Arena Config.small ← Arena.fresh ⟨64, 64, by decide⟩ ⟨⟨104, 64⟩, 64, 72⟩
      let used := stateOf ((do
        let _ ← Arena.allocate 16 1
        let _ ← Arena.allocate 16 1
        Arena.deallocate 64 16 1).run start)
      return Traced.turns used 80 16 1 : Checked (List Turn)) =
      .ok [⟨1, 0, 4⟩, ⟨0, 1, 1⟩, ⟨0, 2, 0⟩] := by
  decide +kernel

end BuddySystem
