import BuddySystem.Arena
import BuddySystem.Proofs.Config
import BuddySystem.Proofs.FreeLists
import BuddySystem.Proofs.Step
import BuddySystem.Proofs.Tree

/-!
# Operations with more checks

The free lists trust whoever uses them: a block that is taken out of a list has to be in it, and one
that is put into a list must not be in any. Not every mistake of this kind fails a check. Here are
the operations of an arena with checks for all of it. They check, too, that a list with a block to
take has a first one, that the number of the block in hand goes with its leaf and order while
blocks are merged, and that words are enough for every sum, every difference and every distance of
a shift on the way.

A guarded operation entails the operation that it is made from, so the plain one succeeds, with the
same answer and in the same state, whenever the guarded one does.
-/

namespace BuddySystem

namespace FreeLists.Guarded

variable {leaves : Nat}

/-- Adds a block, which must not be in any list. -/
def push (order leaf : Nat) : Step (FreeLists leaves) Unit := do
  let lists ← get
  Checked.require (∀ other < numOrders, leaf ∉ lists.toList other) .violated
  FreeLists.push order leaf

/-- Takes a block out of a list, which has to contain it. -/
def remove (order leaf : Nat) : Step (FreeLists leaves) Unit := do
  let lists ← get
  Checked.require (leaf ∈ lists.toList order) .violated
  FreeLists.remove order leaf

/-- Takes the head off a list, which has to contain it. -/
def pop (order : Nat) : Step (FreeLists leaves) (Option Nat) := do
  let first ← (← get).head order
  if first = LinkWord.nil then
    return none
  remove order first.toNat
  return some first.toNat

/-- Adding a leaf with a guard is adding it, unless the guard fails. -/
theorem push_entails (order leaf : Nat) :
    Entails (push order leaf : Step (FreeLists leaves) Unit) (FreeLists.push order leaf) := by
  intro before value after h
  rw [push, EStateM.run_bind, EStateM.run_get] at h
  exact Entails.of_require (Entails.refl _) _ _ _ h

/-- Removing a leaf with a guard is removing it, unless the guard fails. -/
theorem remove_entails (order leaf : Nat) :
    Entails (remove order leaf : Step (FreeLists leaves) Unit) (FreeLists.remove order leaf) := by
  intro before value after h
  rw [remove, EStateM.run_bind, EStateM.run_get] at h
  exact Entails.of_require (Entails.refl _) _ _ _ h

/-- Taking a leaf with a guard is taking it, unless the guard fails. -/
theorem pop_entails (order : Nat) :
    Entails (pop order : Step (FreeLists leaves) (Option Nat)) (FreeLists.pop order) := by
  refine .bind (.refl _) fun lists => .bind (.refl _) fun first => ?_
  exact .ite (.refl _) (.bind (remove_entails _ _) fun _ => .refl _)

/-! ## Guards that hold -/

variable {lists : FreeLists leaves} {contents : Contents} {order leaf : Nat}

/-- The guard holds when a leaf is added that is in no list. -/
theorem run_push (h : lists.Holds contents) (horder : order < numOrders) (hleaf : leaf < leaves)
    (hfresh : ∀ other, leaf ∉ contents other) :
    ∃ after, (push order leaf).run lists = .ok () after ∧
      after.Holds (contents.add order leaf) := by
  have hguard : ∀ other < numOrders, leaf ∉ lists.toList other := by
    rw [h.toList_eq]
    exact fun other _ => hfresh other
  simp only [push, EStateM.run_bind, EStateM.run_get, Checked.require, if_pos hguard, run_liftM_ok]
  exact FreeLists.run_push h horder hleaf hfresh

theorem run_remove_of_mem (h : leaf ∈ lists.toList order) :
    (remove order leaf).run lists = (FreeLists.remove order leaf).run lists := by
  simp only [remove, EStateM.run_bind, EStateM.run_get, Checked.require, if_pos h, run_liftM_ok]

/-- The guard holds when a leaf is removed from its list. -/
theorem run_remove (h : lists.Holds contents) (horder : order < numOrders)
    (hmem : leaf ∈ contents order) :
    ∃ after, (remove order leaf).run lists = .ok () after ∧
      after.Holds (contents.remove order leaf) := by
  rw [run_remove_of_mem (by rw [h.toList_eq]; exact hmem)]
  exact FreeLists.run_remove h horder hmem

/-- Taking the first block off a list that is not empty. -/
theorem run_pop (h : lists.Holds contents) {rest : List Nat} (horder : order < numOrders)
    (hcons : contents order = leaf :: rest) :
    ∃ after, (pop order).run lists = .ok (some leaf) after ∧
      after.Holds (contents.remove order leaf) := by
  have hmem : leaf ∈ lists.toList order := by simp [h.toList_eq, hcons]
  have hnat := toNat_toUInt32 h.leaves_le (h.lt order leaf (by simp [hcons]))
  have hguard : (pop order).run lists = (FreeLists.pop order).run lists := by
    simp only [pop, FreeLists.pop, EStateM.run_bind, EStateM.run_get, h.head_eq horder, hcons,
      List.head?_cons, ofLeaf?_some, run_liftM_ok, hnat]
    split
    · rfl
    · rw [EStateM.run_bind, EStateM.run_bind, run_remove_of_mem hmem]
  rw [hguard]
  exact FreeLists.run_pop h horder hcons

end FreeLists.Guarded

/-! ## Numbers as words -/

/-- `Config.checkedNode` as it is computed with words. -/
def Config.wordNode (config : Config) (leaf order : Nat) : Checked Nat := do
  Checked.require (order ≤ config.maxOrder) .violated
  let rest ← Word.sub (← Word.shiftLeft 1 order) 1
  Checked.require (leaf &&& rest = 0) .violated
  let depth ← Word.sub config.maxOrder order
  Word.add (← Word.sub (← Word.shiftLeft 1 depth) 1) (leaf >>> order)

/-- Computing the number of a node with words finds the same number or the same fault. -/
theorem Config.wordNode_eq (config : Config) (leaf order : Nat) :
    config.wordNode leaf order = config.checkedNode leaf order := by
  by_cases horder : order ≤ config.maxOrder
  · have hshift : ∀ count ≤ config.maxOrder, Word.shiftLeft 1 count = .ok (2 ^ count) :=
      fun count hcount => Word.shiftLeft_one (Nat.lt_of_le_of_lt hcount config.maxOrder_lt)
    have hsub : ∀ count, Word.sub (2 ^ count) 1 = .ok (2 ^ count - 1) := fun count =>
      if_pos Nat.one_le_two_pow
    have hdepth : Word.sub config.maxOrder order = .ok (config.maxOrder - order) := if_pos horder
    simp only [wordNode, checkedNode, hshift order horder, hsub, hdepth,
      hshift _ (Nat.sub_le config.maxOrder order), Nat.and_two_pow_sub_one_eq_mod,
      Nat.shiftRight_eq_div_pow, bind, Except.bind]
  · simp only [wordNode, checkedNode, Checked.require, if_neg horder, bind, Except.bind]

namespace Arena.Guarded

variable {config : Config}

/-- `Arena.owns` with the end of the arena computed by a sum that is checked. -/
def owns (arena : Arena config) (addr : Nat) : Checked Bool := do
  let stop ← Word.add arena.span.addr arena.span.extent
  return arena.span.addr ≤ addr && addr < stop

/-- `Arena.hasUsedChild` for a node whose children have words as numbers. -/
def hasUsedChild (arena : Arena config) (node : Nat) : Checked Bool := do
  Checked.require (2 * node + 2 < Word.bound) .violated
  arena.hasUsedChild node

/-- `Arena.locate` with guards. -/
def locate (arena : Arena config) (addr size align : Nat) :
    Checked (Except Rejection (Nat × Nat)) := do
  unless ← owns arena addr do
    return .error .notOwned
  let some order := config.order? size align
    | return .error .invalidLayout
  let offset ← arena.span.offsetOf addr
  unless (← Word.rem offset (← config.blockLen order)) = 0 do
    return .error .misaligned
  let leaf := offset / config.blockSize
  let node ← config.wordNode leaf order
  unless ← arena.nodes.get node do
    return .error .notAllocated
  if order > 0 then
    if ← hasUsedChild arena node then
      return .error .sizeMismatch
  return .ok (leaf, order)

/-- The end of an arena is an address. -/
theorem owns_eq (arena : Arena config) (addr : Nat) : owns arena addr = .ok (arena.owns addr) := by
  rw [owns, Word.add, if_pos arena.span.stop_lt]
  rfl

/-- The numbers of the nodes are words, so a child whose number is none is not a node. -/
theorem hasUsedChild_eq (arena : Arena config) (node : Nat) :
    hasUsedChild arena node = arena.hasUsedChild node := by
  by_cases hword : 2 * node + 2 < Word.bound
  · rw [hasUsedChild, Checked.require, if_pos hword]
    rfl
  · have hbound := Node.nodeCount_lt_bound config
    have hget : arena.nodes.get (2 * node + 1) = .error .violated := dif_neg (by omega)
    rw [hasUsedChild, Checked.require, if_neg hword, Arena.hasUsedChild, hget]
    rfl

/-- A pointer is located with words as without. -/
theorem locate_eq (arena : Arena config) (addr size align : Nat) :
    locate arena addr size align = arena.locate addr size align := by
  simp only [locate, owns_eq, Config.wordNode_eq, hasUsedChild_eq]
  rfl

/-- `Arena.split` with guarded lists. -/
def split (leaf target : Nat) : Nat → Step (Arena config) Unit
  | 0 => return ()
  | levels + 1 => do
      let order := target + levels
      freeLists.run (FreeLists.Guarded.push order (← Word.add leaf (← Word.shiftLeft 1 order)))
      mark (← config.wordNode leaf order) true
      split leaf target levels

/-- `Arena.allocate` with guarded lists. A list in which a block was found has to have a head. -/
def allocate (size align : Nat) : Step (Arena config) (Except Refusal Slice) := do
  let some target := config.order? size align
    | return .error (.unsupported size align)
  let some order ← (← get).firstFree target (config.maxOrder + 1 - target)
    | return .error (.exhausted target)
  let some leaf ← freeLists.run (FreeLists.Guarded.pop order)
    | throw .violated
  mark (← config.wordNode leaf order) true
  split leaf target (order - target)
  let slice ← (← get).span.slice (← Word.mul leaf config.blockSize) size
  return .ok slice

/-- `Arena.coalesce` with guarded lists. The number of the parent has to be that of the parent's
leaf and order. -/
def coalesce (leaf order node : Nat) : Nat → Step (Arena config) Unit
  | 0 => freeLists.run (FreeLists.Guarded.push order leaf)
  | levels + 1 => do
      Checked.require (order < Word.bits) .overflow
      let buddy := Config.buddy leaf order
      if ← (← get).nodes.get (← config.wordNode buddy order) then
        freeLists.run (FreeLists.Guarded.push order leaf)
      else
        freeLists.run (FreeLists.Guarded.remove order buddy)
        let parent := (← Word.sub node 1) / 2
        Checked.require (parent = config.node (Word.clearBit leaf order) (order + 1)) .violated
        mark parent false
        coalesce (Word.clearBit leaf order) (order + 1) parent levels

/-- `Arena.deallocate` with guarded lists. -/
def deallocate (addr size align : Nat) : Step (Arena config) (Except Rejection Unit) := do
  match ← locate (← get) addr size align with
  | .error reason => return .error reason
  | .ok (leaf, order) =>
      let node ← config.wordNode leaf order
      mark node false
      coalesce leaf order node (config.maxOrder - order)
      return .ok ()

theorem wordNode_entails (leaf order : Nat) :
    Entails (liftM (config.wordNode leaf order) : Step (Arena config) Nat)
      (liftM (config.checkedNode leaf order)) :=
  .of_eq (congrArg liftM (config.wordNode_eq leaf order))

/-- Splitting a block with guards is splitting it, unless a guard fails. -/
theorem split_entails (leaf target levels : Nat) :
    Entails (split leaf target levels : Step (Arena config) Unit)
      (Arena.split leaf target levels) := by
  induction levels with
  | zero => exact .refl _
  | succ levels ih =>
      refine .bind (.refl _) fun _ => .bind (.refl _) fun _ => ?_
      refine .bind (.focus _ (FreeLists.Guarded.push_entails _ _)) fun _ => ?_
      exact .bind (wordNode_entails _ _) fun _ => .bind (.refl _) fun _ => ih

/-- Serving a request with guards is serving it, unless a guard fails. -/
theorem allocate_entails (size align : Nat) :
    Entails (allocate size align : Step (Arena config) (Except Refusal Slice))
      (Arena.allocate size align) := by
  rw [allocate, Arena.allocate]
  cases config.order? size align with
  | none => exact .refl _
  | some target =>
      refine .bind (.refl _) fun _ => .bind (.refl _) fun order? => ?_
      cases order? with
      | none => exact .refl _
      | some order =>
          refine .bind (.focus _ (FreeLists.Guarded.pop_entails _)) fun leaf? => ?_
          cases leaf? with
          | none => exact .of_throw _ _
          | some leaf =>
              refine .bind (wordNode_entails _ _) fun _ => .bind (.refl _) fun _ => ?_
              exact .bind (split_entails _ _ _) fun _ => .refl _

/-- Merging buddies with guards is merging them, unless a guard fails. -/
theorem coalesce_entails (leaf order node levels : Nat) :
    Entails (coalesce leaf order node levels : Step (Arena config) Unit)
      (Arena.coalesce leaf order node levels) := by
  induction levels generalizing leaf order node with
  | zero => exact .focus _ (FreeLists.Guarded.push_entails _ _)
  | succ levels ih =>
      refine .of_require (.bind (.refl _) fun _ => ?_)
      refine .bind (wordNode_entails _ _) fun _ => .bind (.refl _) fun _ => ?_
      refine .ite (.focus _ (FreeLists.Guarded.push_entails _ _)) ?_
      refine .bind (.focus _ (FreeLists.Guarded.remove_entails _ _)) fun _ => ?_
      refine .bind (.refl _) fun _ => .of_require ?_
      exact .bind (.refl _) fun _ => ih _ _ _

/-- Taking memory back with guards is taking it back, unless a guard fails. -/
theorem deallocate_entails (addr size align : Nat) :
    Entails (deallocate addr size align : Step (Arena config) (Except Rejection Unit))
      (Arena.deallocate addr size align) := by
  have hlocate : ∀ arena : Arena config,
      Entails (liftM (locate arena addr size align) : Step (Arena config) _)
        (liftM (arena.locate addr size align)) :=
    fun arena => .of_eq (congrArg liftM (locate_eq arena addr size align))
  refine .bind (.refl _) fun arena => .bind (hlocate arena) fun located => ?_
  cases located with
  | error reason => exact .refl _
  | ok block =>
      refine .bind (wordNode_entails _ _) fun _ => .bind (.refl _) fun _ => ?_
      exact .bind (coalesce_entails _ _ _ _) fun _ => .refl _

end Arena.Guarded

end BuddySystem
