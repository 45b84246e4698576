import BuddySystem.Proofs.Arena.Guarded
import BuddySystem.Proofs.Bitmap
import BuddySystem.Proofs.Config
import BuddySystem.Proofs.Ledger

/-!
# The bookkeeping of an arena

`Arena.Shows` says which nodes an arena has marked and which leaves are in its free lists, and that
it has the memory of another arena, which nothing changes. Marking a node and adding or removing a
free block are described by it (`run_mark`, `run_freeLists`).

Between two operations an arena is related to a ledger by `Arena.Keeps`: its marked nodes are the
used ones, and its lists are those of the ledger and hold the vacant nodes.
-/

namespace BuddySystem.Arena

open FreeLists Occupancy Ledger

variable {config : Config} {start arena : Arena config} {used : Node → Prop} {free : Contents}

/-- An arena with the memory of `start` has marked exactly the nodes `used`, and its lists hold
`free`. -/
structure Shows (arena start : Arena config) (used : Node → Prop) (free : Contents) : Prop where
  span : arena.span = start.span
  region : arena.region = start.region
  extent : start.span.extent = config.capacity
  bit : ∀ node : Node, node.InTree config.maxOrder →
    (arena.nodes.bit (node.number config) = true ↔ used node)
  /-- The padding of the bitmap is clear. -/
  beyond : ∀ index, config.nodeCount ≤ index → arena.nodes.bit index = false
  lists : arena.free.Holds free

/-- An arena keeps its bits and lists as a ledger says. -/
structure Keeps (arena start : Arena config) (ledger : Ledger) : Prop where
  shows_ledger : arena.Shows start (Used ledger.live) ledger.free
  balanced : Balanced config.maxOrder ledger.live ledger.free
  placed : Placed config.maxOrder ledger.live

/-- Only the nodes of the tree matter. -/
theorem Shows.congr {marked : Node → Prop} (h : arena.Shows start used free)
    (hused : ∀ c : Node, c.InTree config.maxOrder → (used c ↔ marked c)) :
    arena.Shows start marked free :=
  { h with bit := fun node hnode => (h.bit node hnode).trans (hused node hnode) }

/-! ## Bits -/

/-- Reading the bit of a node. -/
theorem Shows.get_eq (h : arena.Shows start used free) {node : Node}
    (hnode : node.InTree config.maxOrder) [Decidable (used node)] :
    arena.nodes.get (node.number config) = .ok (decide (used node)) := by
  have hbit : arena.nodes.bit (node.number config) = decide (used node) := by
    rw [Bool.eq_iff_iff, h.bit node hnode, decide_eq_true_iff]
  rw [Bitmap.get_eq_bit _ (Node.number_lt hnode), hbit]

/-- Changing the bit of a node. -/
theorem Shows.run_mark (h : arena.Shows start used free) (marked : Node → Prop) {node : Node}
    (hnode : node.InTree config.maxOrder) (value : Bool)
    (hself : marked node ↔ value = true)
    (hother : ∀ c : Node, c.InTree config.maxOrder → c ≠ node → (marked c ↔ used c)) :
    ∃ after, (mark (node.number config) value).run arena = .ok () after ∧
      after.Shows start marked free := by
  have hlt := Node.number_lt hnode
  obtain ⟨nodes, hset, hbit⟩ := Bitmap.set_eq_ok arena.nodes hlt value
  refine ⟨{ arena with nodes }, ?_,
    { h with bit := fun c hc => ?_, beyond := fun index hindex => ?_ }⟩
  · simp only [mark, EStateM.run_bind, EStateM.run_get, hset, run_liftM_ok, EStateM.run_modify]
  · rw [hbit]
    by_cases heq : c = node
    · rw [heq, if_pos rfl, hself]
    · rw [if_neg fun hnumber => heq (Node.number_inj hc hnode hnumber), hother c hc heq]
      exact h.bit c hc
  · rw [hbit, if_neg (by omega)]
    exact h.beyond index hindex

/-! ## Lists -/

/-- A step on the lists that succeeds changes their contents. -/
theorem Shows.run_freeLists (h : arena.Shows start used free) {α : Type} {value : α}
    {step : Step (FreeLists config.blockCount) α} {contents : Contents}
    (hstep : ∃ lists, step.run arena.free = .ok value lists ∧ lists.Holds contents) :
    ∃ after, (freeLists.run step).run arena = .ok value after ∧
      after.Shows start used contents := by
  obtain ⟨lists, hrun, hlists⟩ := hstep
  refine ⟨{ arena with free := lists }, ?_, { h with lists := hlists }⟩
  rw [Focus.run_run, show freeLists.view arena = arena.free from rfl, hrun]
  rfl

/-- Making a block free that can become free. -/
theorem Shows.run_push (h : arena.Shows start used free) {live filled : Finset Node} {block : Node}
    (hfree : Balanced config.maxOrder filled free) (hblock : Vacant config.maxOrder live block)
    (hfill : ∀ c, Touched filled c ↔ Touched live c ∨ block.Overlaps c) :
    ∃ after,
      (freeLists.run (FreeLists.Guarded.push block.order block.leaf)).run arena = .ok () after ∧
      after.Shows start used (free.add block.order block.leaf) := by
  have horder := Nat.lt_of_le_of_lt hblock.inTree.1 config.maxOrder_lt
  exact h.run_freeLists (FreeLists.Guarded.run_push h.lists horder hblock.inTree.leaf_lt
    (hfree.not_mem hblock hfill))

/-- The search for a free block finds what it finds in the contents. -/
theorem Shows.firstFree_eq (h : arena.Shows start used free) {order count : Nat}
    (hle : order + count ≤ config.maxOrder + 1) :
    arena.firstFree order count = .ok (Ledger.firstFree free order count) := by
  have hmax := config.maxOrder_lt
  induction count generalizing order with
  | zero => rfl
  | succ count ih =>
      rw [Arena.firstFree, Ledger.firstFree, h.lists.isEmpty_eq (by omega)]
      simp only [bind, Except.bind]
      split
      · exact ih (by omega)
      · rfl

end BuddySystem.Arena
