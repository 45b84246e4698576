import BuddySystem.Proofs.Arena.Bookkeeping

/-!
# Allocation

`Arena.allocate` acts on an arena as `Ledger.allocate` does on its ledger (`Keeps.allocate_cases`):
it succeeds exactly if the ledger has a block, gives the memory of that block, and leaves an arena
that keeps the changed ledger. The loop invariant of `Arena.split` is that the bits and the lists
are those of the live blocks together with the block that is being halved. All of this is shown of
the guarded operations, so no guard fails either.
-/

namespace BuddySystem.Arena

open FreeLists Occupancy Ledger

variable {config : Config} {start arena : Arena config} {free : Contents} {live : Finset Node}

/-- Halving the block in hand down to the order `target`. -/
theorem Shows.run_split {leaf target levels : Nat}
    (h : arena.Shows start (Used (insert ⟨leaf, target + levels⟩ live)) free)
    (hfree : Balanced config.maxOrder (insert ⟨leaf, target + levels⟩ live) free)
    (hblock : (Node.mk leaf (target + levels)).InTree config.maxOrder)
    (huntouched : ¬Touched live ⟨leaf, target + levels⟩) :
    ∃ after, (Guarded.split leaf target levels).run arena = .ok () after ∧
      after.Shows start (Used (insert ⟨leaf, target⟩ live)) (spill leaf target levels free) ∧
      Balanced config.maxOrder (insert ⟨leaf, target⟩ live) (spill leaf target levels free) := by
  induction levels generalizing arena free with
  | zero => exact ⟨arena, rfl, h, hfree⟩
  | succ levels ih =>
      rw [← Nat.add_assoc] at h hfree hblock huntouched
      obtain ⟨hvacant, hfill⟩ := vacant_back hblock huntouched
      obtain ⟨hfront, hparent, -⟩ := Node.front_inTree hblock
      have hshift : Word.shiftLeft 1 (target + levels) = .ok (2 ^ (target + levels)) :=
        Word.shiftLeft_one (Nat.lt_of_le_of_lt hfront.1 config.maxOrder_lt)
      have hadd : Word.add leaf (2 ^ (target + levels)) = .ok (leaf + 2 ^ (target + levels)) :=
        if_pos (config.leaf_lt_bound hfront.2.2)
      -- The back half goes into its list, the front half is marked and stays in hand.
      obtain ⟨pushed, hpush, hpushed⟩ := h.run_push hfree hvacant hfill
      obtain ⟨marked, hmark, hmarked⟩ :=
        hpushed.run_mark (Used (insert ⟨leaf, target + levels⟩ live)) hfront true
          (by simp [used_insert_front hblock hfront]) fun c hc hne => by
            simp [used_insert_front hblock hc, hne]
      have hapart : ¬Touched live ⟨leaf, target + levels⟩ := fun htouched =>
        huntouched (hparent ▸ htouched.mono (Node.inside_parent hfront))
      obtain ⟨after, hrun, hafter⟩ := ih hmarked (hfree.halve hblock huntouched) hfront hapart
      refine ⟨after, ?_, hafter⟩
      simp only [Guarded.split, EStateM.run_bind, hshift, run_liftM_ok, hadd, hpush,
        Config.wordNode_eq, Node.checkedNode_eq hfront, hmark, hrun]

/-- The memory of a block of the arena is a slice of it, for as many bytes as the block has. -/
theorem Shows.slice_eq {used : Node → Prop} (h : arena.Shows start used free) {node : Node}
    (hnode : node.InTree config.maxOrder) {size : Nat}
    (hsize : size ≤ config.blockSize * 2 ^ node.order) :
    Word.mul node.leaf config.blockSize = .ok (node.leaf * config.blockSize) ∧
      arena.span.slice (node.leaf * config.blockSize) size =
        .ok ⟨start.span.addr + node.leaf * config.blockSize, size⟩ := by
  have hlt : node.leaf * config.blockSize < config.capacity := by
    rw [config.capacity_eq]
    exact Nat.mul_lt_mul_of_pos_right hnode.leaf_lt config.blockSize_pos
  have hstop : node.leaf * config.blockSize + size ≤ config.capacity := by
    have hle : node.stop * config.blockSize ≤ config.capacity := by
      rw [config.capacity_eq]
      exact Nat.mul_le_mul_right _ hnode.2.2
    rw [Node.stop, Nat.add_mul, Nat.mul_comm (2 ^ node.order)] at hle
    omega
  have hword := config.capacity_lt
  have hadd : Word.add? (node.leaf * config.blockSize) size =
      some (node.leaf * config.blockSize + size) :=
    if_pos (by omega)
  refine ⟨if_pos (by omega), ?_⟩
  simp [Span.slice, Span.addrAt, Checked.require, hadd, h.extent, hstop, hlt, h.span, bind,
    Except.bind, pure, Except.pure]

/-- A request without an order is refused. -/
theorem run_allocate_unsupported {size align : Nat} (h : config.order? size align = none)
    (arena : Arena config) :
    (Guarded.allocate size align).run arena =
      .ok (.error (.unsupported size align)) arena := by
  simp only [Guarded.allocate, h, EStateM.run_pure]

/-- A request is refused if the ledger has no block for it. -/
theorem Keeps.run_allocate_exhausted {ledger : Ledger} (h : arena.Keeps start ledger)
    {size align target : Nat} (horder : config.order? size align = some target)
    (hnone : ledger.allocate config.maxOrder target = none) :
    (Guarded.allocate size align).run arena = .ok (.error (.exhausted target)) arena := by
  have hle := config.le_maxOrder_of_order? horder
  have hsearch : arena.firstFree target (config.maxOrder + 1 - target) = .ok none := by
    rw [h.shows_ledger.firstFree_eq (by omega), firstFree_of_allocate_eq_none hnone]
  simp only [Guarded.allocate, horder, EStateM.run_bind, EStateM.run_get, hsearch, run_liftM_ok,
    EStateM.run_pure]

/-- A request is served with the block that the ledger has for it. -/
theorem Keeps.run_allocate {ledger rest : Ledger} (h : arena.Keeps start ledger)
    {size align target leaf : Nat} (horder : config.order? size align = some target)
    (hsome : ledger.allocate config.maxOrder target = some (leaf, rest)) :
    ∃ after, (Guarded.allocate size align).run arena =
        .ok (.ok ⟨start.span.addr + leaf * config.blockSize, size⟩) after ∧
      after.Keeps start rest := by
  obtain ⟨hshows, hfree, hlive⟩ := h
  obtain ⟨-, hnode, huntouched⟩ := hfree.of_allocate hsome
  obtain ⟨levels, tail, hfound, htail, rfl⟩ := allocate_eq_some hsome
  have hle := config.le_maxOrder_of_order? horder
  have hvacant := (hfree.mem_iff ⟨leaf, target + levels⟩).1 (by simp [htail])
  have hmax := Nat.lt_of_le_of_lt hvacant.inTree.1 config.maxOrder_lt
  have hsearch : arena.firstFree target (config.maxOrder + 1 - target) =
      .ok (some (target + levels)) := by
    rw [hshows.firstFree_eq (by omega), hfound]
  -- The block is taken off its list, marked, and halved down to the order of the request.
  obtain ⟨popped, hpop, hpopped⟩ := hshows.run_freeLists
    (FreeLists.Guarded.run_pop hshows.lists hmax htail)
  obtain ⟨marked, hmark, hmarked⟩ :=
    hpopped.run_mark (Used (insert ⟨leaf, target + levels⟩ ledger.live)) hvacant.inTree true
      (by simp [used_insert_of_vacant hlive hvacant hvacant.inTree]) fun c hc hne => by
        simp [used_insert_of_vacant hlive hvacant hc, hne]
  obtain ⟨after, hsplit, hafter, hbalanced⟩ :=
    hmarked.run_split (hfree.take hvacant) hvacant.inTree hvacant.not_touched
  obtain ⟨hmul, hslice⟩ := hafter.slice_eq hnode (config.size_le_of_order? horder)
  refine ⟨after, ?_, hafter, hbalanced, hlive.insert hnode huntouched⟩
  simp only [Guarded.allocate, horder, EStateM.run_bind, EStateM.run_get, hsearch, run_liftM_ok,
    hpop, Config.wordNode_eq, Node.checkedNode_eq hvacant.inTree, hmark, Nat.add_sub_cancel_left,
    hsplit, hmul, hslice, EStateM.run_pure]

/-- A guarded request is refused and changes nothing, or it is served as the ledger says. -/
theorem Keeps.guarded_allocate_cases {ledger : Ledger} (h : arena.Keeps start ledger)
    (size align : Nat) :
    (∃ refusal, (Guarded.allocate size align).run arena = .ok (.error refusal) arena ∧
      ∀ target, config.order? size align = some target →
        ledger.allocate config.maxOrder target = none) ∨
    ∃ target leaf rest after, config.order? size align = some target ∧
      ledger.allocate config.maxOrder target = some (leaf, rest) ∧
      (Guarded.allocate size align).run arena =
        .ok (.ok ⟨start.span.addr + leaf * config.blockSize, size⟩) after ∧
      after.Keeps start rest := by
  cases horder : config.order? size align with
  | none => exact .inl ⟨_, run_allocate_unsupported horder arena, fun _ h => nomatch h⟩
  | some target =>
      cases hserved : ledger.allocate config.maxOrder target with
      | none =>
          refine .inl ⟨_, h.run_allocate_exhausted horder hserved, fun other hother => ?_⟩
          cases hother
          exact hserved
      | some served =>
          obtain ⟨leaf, rest⟩ := served
          obtain ⟨after, hrun, hafter⟩ := h.run_allocate horder hserved
          exact .inr ⟨target, leaf, rest, after, rfl, hserved, hrun, hafter⟩

/-- A request is refused and changes nothing, or it is served as the ledger says. -/
theorem Keeps.allocate_cases {ledger : Ledger} (h : arena.Keeps start ledger) (size align : Nat) :
    (∃ refusal, (allocate size align).run arena = .ok (.error refusal) arena ∧
      ∀ target, config.order? size align = some target →
        ledger.allocate config.maxOrder target = none) ∨
    ∃ target leaf rest after, config.order? size align = some target ∧
      ledger.allocate config.maxOrder target = some (leaf, rest) ∧
      (allocate size align).run arena =
        .ok (.ok ⟨start.span.addr + leaf * config.blockSize, size⟩) after ∧
      after.Keeps start rest := by
  have hplain : Entails (Guarded.allocate size align)
      (allocate size align : Step (Arena config) (Except Refusal Slice)) :=
    Guarded.allocate_entails size align
  rcases h.guarded_allocate_cases size align with
    ⟨refusal, hrun, hnone⟩ | ⟨target, leaf, rest, after, horder, hserved, hrun, hafter⟩
  · exact .inl ⟨refusal, hplain _ _ _ hrun, hnone⟩
  · exact .inr ⟨target, leaf, rest, after, horder, hserved, hplain _ _ _ hrun, hafter⟩

/-- A request is served if there is a place for its block with nothing live in it. -/
theorem Keeps.run_allocate_of_not_touched {ledger : Ledger} (h : arena.Keeps start ledger)
    {node : Node} (hnode : node.InTree config.maxOrder) (huntouched : ¬Touched ledger.live node)
    {size align : Nat} (horder : config.order? size align = some node.order) :
    ∃ leaf rest after, ledger.allocate config.maxOrder node.order = some (leaf, rest) ∧
      (allocate size align).run arena =
        .ok (.ok ⟨start.span.addr + leaf * config.blockSize, size⟩) after := by
  rcases h.allocate_cases size align with
    ⟨refusal, hrun, hnone⟩ | ⟨target, leaf, rest, after, htarget, hserved, hrun, -⟩
  · exact absurd (h.balanced.allocate_eq_none_iff.1 (hnone _ horder) node hnode rfl) huntouched
  · obtain rfl : node.order = target := Option.some.inj (horder.symm.trans htarget)
    exact ⟨leaf, rest, after, hserved, hrun⟩

end BuddySystem.Arena
