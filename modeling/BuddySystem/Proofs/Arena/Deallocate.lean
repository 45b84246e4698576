import BuddySystem.Proofs.Arena.Bookkeeping

/-!
# Deallocation

`judge` tells from the live blocks what a pointer, a size and an alignment describe: a live block,
or the reason why they describe none. `Arena.locate` comes to the same result although it reads no
more than three bits (`Keeps.locate_eq`). `Arena.deallocate` then acts on an arena as
`Ledger.deallocate` does on its ledger (`Keeps.run_deallocate`). The loop invariant of
`Arena.coalesce` is that the marked nodes are the used ones and those that the block in hand lies
strictly inside of, while no block that shares a leaf with it is in a list.
-/

namespace BuddySystem.Arena

open FreeLists Occupancy Ledger

variable {config : Config} {start arena : Arena config} {free : Contents} {live : Finset Node}
  {ledger : Ledger}

/-- What a pointer, a size and an alignment describe in an arena at `base`. -/
def judge (config : Config) (base : Nat) (live : Finset Node) (addr size align : Nat) :
    Except Rejection Node :=
  if ¬(base ≤ addr ∧ addr < base + config.capacity) then
    .error .notOwned
  else
    match config.order? size align with
    | none => .error .invalidLayout
    | some order =>
        let offset := addr - base
        let range : Node := ⟨offset / config.blockSize, order⟩
        if offset % (config.blockSize * 2 ^ order) ≠ 0 then
          .error .misaligned
        else if range ∈ live then
          .ok range
        else if ∃ block ∈ live, block.StrictlyInside range then
          .error .sizeMismatch
        else
          .error .notAllocated

/-- An offset that is a multiple of the length of a block leads to a block of this length. -/
theorem range_inTree {order offset : Nat} (horder : order ≤ config.maxOrder)
    (hlt : offset < config.capacity) (hmod : offset % (config.blockSize * 2 ^ order) = 0) :
    (Node.mk (offset / config.blockSize) order).InTree config.maxOrder ∧
      offset / config.blockSize * config.blockSize = offset := by
  obtain ⟨index, rfl⟩ := Nat.dvd_of_mod_eq_zero hmod
  have hleaf : config.blockSize * 2 ^ order * index / config.blockSize = index * 2 ^ order := by
    rw [Nat.mul_assoc, Nat.mul_div_cancel_left _ config.blockSize_pos, Nat.mul_comm]
  rw [hleaf]
  refine ⟨Node.ofIndex_inTree.2 ⟨horder, ?_⟩,
    by rw [Nat.mul_comm, Nat.mul_comm index, Nat.mul_assoc]⟩
  have hpow : config.capacity = config.blockSize * 2 ^ order * 2 ^ (config.maxOrder - order) := by
    rw [config.capacity_eq, Config.blockCount, Nat.mul_assoc, ← Nat.pow_add,
      Nat.add_sub_cancel' horder, Nat.mul_comm]
  rw [hpow] at hlt
  exact Nat.lt_of_mul_lt_mul_left hlt

/-- A pointer, a size and an alignment either describe no node of the tree, or the live blocks in
and around a node decide. -/
theorem judge_cases (config : Config) (base : Nat) (live : Finset Node) (addr size align : Nat) :
    (¬(base ≤ addr ∧ addr < base + config.capacity) ∧
      judge config base live addr size align = .error .notOwned) ∨
    (base ≤ addr ∧ addr < base + config.capacity) ∧
      (config.order? size align = none ∧
          judge config base live addr size align = .error .invalidLayout ∨
        ∃ order, config.order? size align = some order ∧
          ((addr - base) % (config.blockSize * 2 ^ order) ≠ 0 ∧
              judge config base live addr size align = .error .misaligned ∨
            ∃ node : Node, node.InTree config.maxOrder ∧ node.order = order ∧
              addr = base + node.leaf * config.blockSize ∧
              judge config base live addr size align =
                if node ∈ live then .ok node
                else if ∃ block ∈ live, block.StrictlyInside node then .error .sizeMismatch
                else .error .notAllocated)) := by
  rw [judge]
  by_cases howned : base ≤ addr ∧ addr < base + config.capacity
  · rw [if_neg (not_not.2 howned)]
    refine .inr ⟨howned, ?_⟩
    cases horder : config.order? size align with
    | none => exact .inl ⟨rfl, rfl⟩
    | some order =>
        refine .inr ⟨order, rfl, ?_⟩
        by_cases hmod : (addr - base) % (config.blockSize * 2 ^ order) = 0
        · have hmax := config.le_maxOrder_of_order? horder
          obtain ⟨hnode, hbytes⟩ := range_inTree hmax (by omega) hmod
          refine .inr ⟨_, hnode, rfl, ?_, if_neg (not_not.2 hmod)⟩
          rw [hbytes]
          omega
        · exact .inl ⟨hmod, if_pos hmod⟩
  · exact .inl ⟨howned, if_pos howned⟩

/-- Only a live block is found, at the pointer and with the order of the size and alignment. -/
theorem judge_eq_ok {base addr size align : Nat} {block : Node}
    (h : judge config base live addr size align = .ok block) :
    block ∈ live ∧ config.order? size align = some block.order ∧
      addr = base + block.leaf * config.blockSize := by
  rcases judge_cases config base live addr size align with
    ⟨-, hjudge⟩ | ⟨-, ⟨-, hjudge⟩ | ⟨order, horder, ⟨-, hjudge⟩ | ⟨node, -, rfl, rfl, hjudge⟩⟩⟩
  · cases hjudge.symm.trans h
  · cases hjudge.symm.trans h
  · cases hjudge.symm.trans h
  · rw [hjudge] at h
    split at h
    · next hmem =>
        cases h
        exact ⟨hmem, horder, rfl⟩
    · split at h <;> cases h

/-- A live block is found at its address, by every request of its order. -/
theorem judge_of_mem {base size align : Nat} {block : Node} (hlive : Placed config.maxOrder live)
    (hmem : block ∈ live) (horder : config.order? size align = some block.order) :
    judge config base live (base + block.leaf * config.blockSize) size align = .ok block := by
  have hblock := hlive.inTree block hmem
  have howned : block.leaf * config.blockSize < config.capacity := by
    rw [config.capacity_eq]
    exact Nat.mul_lt_mul_of_pos_right hblock.leaf_lt config.blockSize_pos
  have hmod : block.leaf * config.blockSize % (config.blockSize * 2 ^ block.order) = 0 :=
    Nat.mod_eq_zero_of_dvd (Node.len_dvd hblock)
  rw [judge, if_neg (by omega), horder]
  simp only [Nat.add_sub_cancel_left, hmod, Nat.mul_div_cancel _ config.blockSize_pos]
  rw [if_neg (not_not.2 rfl), if_pos hmem]

/-- Only the address of a live block, with a request of its order, is accepted. -/
theorem judge_eq_ok_iff {base addr size align : Nat} {block : Node}
    (hlive : Placed config.maxOrder live) :
    judge config base live addr size align = .ok block ↔
      block ∈ live ∧ config.order? size align = some block.order ∧
        addr = base + block.leaf * config.blockSize := by
  constructor
  · exact judge_eq_ok
  · intro hblock
    obtain ⟨hmem, horder, rfl⟩ := hblock
    exact judge_of_mem hlive hmem horder

/-! ## Locating a block -/

/-- A node has a marked child if a live block lies strictly inside it. -/
theorem Shows.hasUsedChild_eq (h : arena.Shows start (Used live) free)
    (hlive : Placed config.maxOrder live) {leaf order : Nat}
    (hnode : (Node.mk leaf (order + 1)).InTree config.maxOrder) :
    arena.hasUsedChild ((Node.mk leaf (order + 1)).number config) =
      .ok (decide (∃ block ∈ live, block.StrictlyInside ⟨leaf, order + 1⟩)) := by
  obtain ⟨hfront, hparent, hbuddy⟩ := Node.front_inTree hnode
  have hback := Node.buddy_inTree hfront hnode.1
  have hiff : (∃ block ∈ live, block.StrictlyInside ⟨leaf, order + 1⟩) ↔
      Used live ⟨leaf, order⟩ ∨ Used live ⟨leaf + 2 ^ order, order⟩ := by
    constructor
    · intro hsplit
      obtain ⟨block, hmem, hin⟩ := hsplit
      rw [← hparent] at hin
      rcases Node.inside_or_inside_buddy hfront hnode.1 (hlive.inTree block hmem) hin with hin | hin
      · exact .inl ⟨block, hmem, hin⟩
      · exact .inr ⟨block, hmem, hbuddy ▸ hin⟩
    · have hstrict : ∀ half : Node, half.order = order → half.Inside ⟨leaf, order + 1⟩ →
          Used live half → ∃ block ∈ live, block.StrictlyInside ⟨leaf, order + 1⟩ := by
        intro half horder hhalf hused
        obtain ⟨block, hmem, hin⟩ := hused
        refine ⟨block, hmem, hin.trans hhalf, ?_⟩
        intro heq
        have hle := hin.order_le
        rw [heq, horder] at hle
        exact Nat.not_succ_le_self order hle
      intro hused
      rcases hused with hused | hused
      · exact hstrict _ rfl (hparent ▸ Node.inside_parent hfront) hused
      · refine hstrict _ rfl ?_ hused
        rw [← hbuddy, ← hparent]
        exact Node.buddy_inside_parent hfront
  obtain ⟨hfrontNumber, hbackNumber⟩ := Node.number_halves hnode
  have hgetFront := h.get_eq hfront
  have hgetBack := h.get_eq (hbuddy ▸ hback)
  rw [hfrontNumber] at hgetFront
  rw [hbackNumber] at hgetBack
  rw [hasUsedChild, hgetFront, hgetBack]
  by_cases hused : Used live ⟨leaf, order⟩ <;>
    simp [hiff, hused, bind, Except.bind, pure, Except.pure]

/-- The bits of a node and of its children tell whether its block is live, split or neither. -/
theorem Keeps.locate_range (h : arena.Keeps start ledger) {node : Node}
    (hnode : node.InTree config.maxOrder) :
    (do
      unless ← arena.nodes.get (node.number config) do
        return .error .notAllocated
      if node.order > 0 then
        if ← arena.hasUsedChild (node.number config) then
          return .error .sizeMismatch
      return .ok (node.leaf, node.order) : Checked (Except Rejection (Nat × Nat))) =
      .ok (if node ∈ ledger.live then .ok (node.leaf, node.order)
        else if ∃ block ∈ ledger.live, block.StrictlyInside node then .error .sizeMismatch
        else .error .notAllocated) := by
  obtain ⟨hshows, -, hlive⟩ := h
  -- A live block is not split.
  have hexcl : node ∈ ledger.live → ¬∃ block ∈ ledger.live, block.StrictlyInside node := by
    intro hmem hsplit
    obtain ⟨block, hblock, hin⟩ := hsplit
    exact hlive.not_used_of_strictlyInside hmem hin ⟨block, hblock, .refl block⟩
  rw [hshows.get_eq hnode]
  by_cases hused : Used ledger.live node
  · obtain ⟨leaf, order⟩ := node
    cases order with
    | zero =>
        have hleast : ¬∃ block ∈ ledger.live, block.StrictlyInside ⟨leaf, 0⟩ := by
          intro hsplit
          obtain ⟨block, -, hin⟩ := hsplit
          exact hin.2 (hin.1.eq_of_order_le (Nat.zero_le _))
        have hmem := (used_iff.1 hused).resolve_right hleast
        simp [hused, hmem, bind, Except.bind, pure, Except.pure]
    | succ order =>
        rw [hshows.hasUsedChild_eq hlive hnode]
        by_cases hmem : (Node.mk leaf (order + 1)) ∈ ledger.live
        · simp [hused, hmem, hexcl hmem, bind, Except.bind, pure, Except.pure]
        · have hsplit := (used_iff.1 hused).resolve_left hmem
          simp [hused, hmem, hsplit, bind, Except.bind, pure, Except.pure]
  · rw [used_iff, not_or] at hused
    have hunused : ¬Used ledger.live node := by rw [used_iff, not_or]; exact hused
    rw [if_neg hused.1, if_neg hused.2]
    simp [hunused, bind, Except.bind, pure, Except.pure]

theorem Shows.owns_iff {used : Node → Prop} (h : arena.Shows start used free) {addr : Nat} :
    arena.owns addr = true ↔
      start.span.addr ≤ addr ∧ addr < start.span.addr + config.capacity := by
  simp [owns, Span.contains, Span.stop, h.span, h.extent]

theorem Shows.offsetOf_eq {used : Node → Prop} (h : arena.Shows start used free) {addr : Nat}
    (howned : start.span.addr ≤ addr ∧ addr < start.span.addr + config.capacity) :
    arena.span.offsetOf addr = .ok (addr - start.span.addr) := by
  have hcontains : arena.span.contains addr = true := h.owns_iff.2 howned
  rw [h.span] at hcontains ⊢
  simp [Span.offsetOf, Checked.require, hcontains, Word.sub, howned.1, bind, Except.bind]

/-- A pointer is located as the live blocks say, and without a failed check. -/
theorem Keeps.locate_eq (h : arena.Keeps start ledger) (addr size align : Nat) :
    arena.locate addr size align =
      .ok ((judge config start.span.addr ledger.live addr size align).map fun block =>
        (block.leaf, block.order)) := by
  have hshows := h.shows_ledger
  rw [locate]
  rcases judge_cases config start.span.addr ledger.live addr size align with
    ⟨howned, hjudge⟩ | ⟨howned, ⟨horder, hjudge⟩ | ⟨order, horder, hcases⟩⟩
  · rw [hjudge, if_neg (by rw [hshows.owns_iff]; exact howned)]
    rfl
  · rw [hjudge, if_pos (hshows.owns_iff.2 howned), horder]
    rfl
  · have hmax := config.le_maxOrder_of_order? horder
    have hrem : Word.rem (addr - start.span.addr) (config.blockSize * 2 ^ order) =
        .ok ((addr - start.span.addr) % (config.blockSize * 2 ^ order)) :=
      if_neg (Nat.mul_pos config.blockSize_pos (Nat.two_pow_pos order)).ne'
    rw [if_pos (hshows.owns_iff.2 howned), horder]
    simp only [bind, Except.bind, pure, Except.pure, hshows.offsetOf_eq howned,
      config.blockLen_eq hmax, hrem]
    rcases hcases with ⟨hmod, hjudge⟩ | ⟨node, hnode, rfl, rfl, hjudge⟩
    · rw [hjudge, if_neg hmod]
      rfl
    · have hrange := h.locate_range hnode
      have hcheck := Node.checkedNode_eq hnode
      have hleaf : node.leaf * config.blockSize / config.blockSize = node.leaf :=
        Nat.mul_div_cancel _ config.blockSize_pos
      have hmod : node.leaf * config.blockSize % (config.blockSize * 2 ^ node.order) = 0 :=
        Nat.mod_eq_zero_of_dvd (Node.len_dvd hnode)
      simp only [bind, Except.bind, pure, Except.pure] at hrange
      simp only [hjudge, Nat.add_sub_cancel_left, hmod, hleaf, hcheck, if_true]
      refine hrange.trans (congrArg Except.ok ?_)
      split
      · rfl
      · split <;> rfl

/-! ## Making a block free -/

/-- Putting the block in hand back, merged with its buddy as long as that one is free. -/
theorem Shows.run_coalesce {block : Node} {levels : Nat}
    (hlevels : config.maxOrder - block.order = levels)
    (h : arena.Shows start (fun c => Used live c ∨ block.StrictlyInside c) free)
    (hfree : Balanced config.maxOrder (insert block live) free)
    (hlive : Placed config.maxOrder live) (hblock : block.InTree config.maxOrder)
    (huntouched : ¬Touched live block) :
    ∃ after, (Guarded.coalesce block.leaf block.order (block.number config) levels).run arena =
        .ok () after ∧
      after.Shows start (Used live) (join block levels free) ∧
      Balanced config.maxOrder live (join block levels free) := by
  induction levels generalizing arena free block with
  | zero =>
      -- The block in hand is the root, around which there is nothing that could be marked.
      have hroot : block.order = config.maxOrder := by
        have hle := hblock.1
        omega
      have hvacant := vacant_of_buddy_used hblock huntouched (.inl hroot)
      obtain ⟨after, hpush, hafter⟩ := h.run_push hfree hvacant fun _ => touched_insert
      refine ⟨after, hpush, hafter.congr fun c hc => or_iff_left ?_,
        hfree.vacate hvacant fun _ => touched_insert⟩
      intro hinside
      obtain ⟨hin, hne⟩ := hinside
      exact hne (hin.eq_of_order_le (hroot ▸ hc.1))
  | succ levels ih =>
      have hlt : block.order < config.maxOrder := by omega
      have hbuddy := Node.buddy_inTree hblock hlt
      have hmem := hfree.buddy_mem_iff hlive hblock hlt huntouched
      have hcheck : config.wordNode (Config.buddy block.leaf block.order) block.order =
          .ok (block.buddy.number config) := by
        rw [Config.wordNode_eq]
        exact Node.checkedNode_eq hbuddy
      have hbits : block.order < Word.bits := Nat.lt_trans hlt config.maxOrder_lt
      have hget : arena.nodes.get (block.buddy.number config) =
          .ok (decide (Used live block.buddy)) := by
        have hapart : ¬block.StrictlyInside block.buddy := fun hin =>
          Node.not_overlaps_buddy hblock hin.1.overlaps
        simpa [hapart] using h.get_eq hbuddy
      by_cases hused : Used live block.buddy
      · -- The buddy is marked, so the block is not merged.
        have hvacant := vacant_of_buddy_used hblock huntouched (.inr hused)
        obtain ⟨after, hpush, hafter⟩ := h.run_push hfree hvacant fun _ => touched_insert
        rw [join, if_neg fun hin => hmem.1 hin hused]
        refine ⟨after, ?_, hafter.congr fun c hc => or_iff_left_of_imp fun hin => ?_,
          hfree.vacate hvacant fun _ => touched_insert⟩
        · simp only [Guarded.coalesce, EStateM.run_bind, EStateM.run_get, Checked.require,
            if_pos hbits, hcheck, run_liftM_ok, hget, decide_eq_true hused, if_true, hpush]
        · exact hused.mono ((Node.buddy_inside_parent hblock).trans
            ((Node.strictlyInside_iff hblock hlt hc).1 hin))
      · -- The buddy is free: the parent becomes the block in hand.
        have hparent := Node.parent_inTree hblock hlt
        have hout : ¬Touched live block.parent := by
          refine not_touched_parent hblock huntouched fun htouched => ?_
          exact (hfree.mem_iff block.buddy).1 (hmem.2 hused) |>.not_touched
            (touched_insert.2 (.inl htouched))
        have hunused : ¬Used live block.parent := fun hin => hout hin.touched
        obtain ⟨hpos, hnumber⟩ := Node.number_parent hblock hlt
        have hsub : Word.sub (block.number config) 1 = .ok (block.number config - 1) :=
          if_pos hpos
        obtain ⟨removed, hremove, hremoved⟩ := h.run_freeLists (FreeLists.Guarded.run_remove h.lists
          (Nat.lt_trans hlt config.maxOrder_lt) (hmem.2 hused))
        obtain ⟨marked, hmark, hmarked⟩ :=
          hremoved.run_mark (fun c => Used live c ∨ block.parent.StrictlyInside c) hparent false
            (by simp [Node.StrictlyInside, hunused])
            fun c hc hne => by
              rw [Node.strictlyInside_iff hblock hlt hc, Node.StrictlyInside,
                and_iff_left hne.symm]
        obtain ⟨after, hrun, hafter⟩ := ih (show config.maxOrder - (block.order + 1) = levels by
          omega) hmarked (hfree.merge hblock (hmem.2 hused)) hparent hout
        rw [join, if_pos (hmem.2 hused)]
        refine ⟨after, ?_, hafter⟩
        have hguard : block.parent.number config =
            config.node block.parent.leaf (block.order + 1) := rfl
        simp only [Node.buddy] at hremove
        simp only [Guarded.coalesce, EStateM.run_bind, EStateM.run_get, Checked.require,
          if_pos hbits, hcheck, run_liftM_ok, hget, decide_eq_false hused, Bool.false_eq_true,
          if_false, hremove, hsub, hnumber, Node.clearBit_leaf hblock, if_pos hguard, hmark]
        exact hrun

/-- A rejected pointer leaves the arena alone. -/
theorem run_deallocate_rejected {addr size align : Nat} {reason : Rejection}
    (hlocate : arena.locate addr size align = .ok (.error reason)) :
    (Guarded.deallocate addr size align).run arena = .ok (.error reason) arena := by
  rw [Guarded.deallocate, EStateM.run_bind, EStateM.run_get]
  dsimp only
  rw [EStateM.run_bind, Guarded.locate_eq, hlocate, run_liftM_ok]
  exact EStateM.run_pure _ arena

/-- A live block that was located becomes free. -/
theorem Keeps.run_deallocate (h : arena.Keeps start ledger) {addr size align : Nat} {block : Node}
    (hmem : block ∈ ledger.live)
    (hlocate : arena.locate addr size align = .ok (.ok (block.leaf, block.order))) :
    ∃ after, (Guarded.deallocate addr size align).run arena = .ok (.ok ()) after ∧
      after.Keeps start (ledger.deallocate config.maxOrder block) := by
  obtain ⟨hshows, hfree, hlive⟩ := h
  have hblock := hlive.inTree block hmem
  have huntouched := hlive.not_touched_erase hmem
  have hunused : ¬Used (ledger.live.erase block) block := fun hused => huntouched hused.touched
  have hrest := hlive.subset (Finset.erase_subset block ledger.live)
  have hinsert := Finset.insert_erase hmem
  obtain ⟨marked, hmark, hmarked⟩ :=
    hshows.run_mark (fun c => Used (ledger.live.erase block) c ∨ block.StrictlyInside c) hblock
      false (by simp [Node.StrictlyInside, hunused]) fun c hc hne => by
        rw [← hinsert, used_insert, hinsert, Node.StrictlyInside, and_iff_left hne.symm]
  obtain ⟨after, hrun, hafter, hbalanced⟩ :=
    hmarked.run_coalesce rfl (hinsert.symm ▸ hfree) hrest hblock huntouched
  refine ⟨after, ?_, hafter, hbalanced, hrest⟩
  rw [Guarded.deallocate, EStateM.run_bind, EStateM.run_get]
  dsimp only
  rw [EStateM.run_bind, Guarded.locate_eq, hlocate, run_liftM_ok]
  simp only [EStateM.run_bind, run_liftM_ok, Config.wordNode_eq, Node.checkedNode_eq hblock, hmark,
    hrun, EStateM.run_pure]

/-- A pointer is rejected with guards and nothing changes, or a live block becomes free. -/
theorem Keeps.guarded_deallocate_cases (h : arena.Keeps start ledger) (addr size align : Nat) :
    (∃ reason, judge config start.span.addr ledger.live addr size align = .error reason ∧
      (Guarded.deallocate addr size align).run arena = .ok (.error reason) arena) ∨
    ∃ block after, judge config start.span.addr ledger.live addr size align = .ok block ∧
      (Guarded.deallocate addr size align).run arena = .ok (.ok ()) after ∧
      after.Keeps start (ledger.deallocate config.maxOrder block) := by
  have hlocate := h.locate_eq addr size align
  cases hjudge : judge config start.span.addr ledger.live addr size align with
  | error reason =>
      rw [hjudge] at hlocate
      exact .inl ⟨reason, rfl, run_deallocate_rejected hlocate⟩
  | ok block =>
      rw [hjudge] at hlocate
      obtain ⟨after, hrun, hafter⟩ := h.run_deallocate (judge_eq_ok hjudge).1 hlocate
      exact .inr ⟨block, after, rfl, hrun, hafter⟩

/-- A pointer is rejected and nothing changes, or a live block becomes free. -/
theorem Keeps.deallocate_cases (h : arena.Keeps start ledger) (addr size align : Nat) :
    (∃ reason, judge config start.span.addr ledger.live addr size align = .error reason ∧
      (deallocate addr size align).run arena = .ok (.error reason) arena) ∨
    ∃ block after, judge config start.span.addr ledger.live addr size align = .ok block ∧
      (deallocate addr size align).run arena = .ok (.ok ()) after ∧
      after.Keeps start (ledger.deallocate config.maxOrder block) := by
  have hplain : Entails (Guarded.deallocate addr size align)
      (deallocate addr size align : Step (Arena config) (Except Rejection Unit)) :=
    Guarded.deallocate_entails addr size align
  rcases h.guarded_deallocate_cases addr size align with
    ⟨reason, hjudge, hrun⟩ | ⟨block, after, hjudge, hrun, hafter⟩
  · exact .inl ⟨reason, hjudge, hplain _ _ _ hrun⟩
  · exact .inr ⟨block, after, hjudge, hplain _ _ _ hrun, hafter⟩

/-- A live block is taken back by every size and alignment that have its order. -/
theorem Keeps.run_deallocate_of_mem (h : arena.Keeps start ledger) {block : Node}
    (hmem : block ∈ ledger.live) {size align : Nat}
    (horder : config.order? size align = some block.order) :
    ∃ after, (deallocate (start.span.addr + block.leaf * config.blockSize) size align).run arena =
        .ok (.ok ()) after ∧
      after.Keeps start (ledger.deallocate config.maxOrder block) := by
  have hjudge : judge config start.span.addr ledger.live
      (start.span.addr + block.leaf * config.blockSize) size align = .ok block :=
    judge_of_mem h.placed hmem horder
  rcases h.deallocate_cases (start.span.addr + block.leaf * config.blockSize) size align with
    ⟨reason, hrejected, -⟩ | ⟨found, after, haccepted, hrun, hafter⟩
  · cases hrejected.symm.trans hjudge
  · cases haccepted.symm.trans hjudge
    exact ⟨after, hrun, hafter⟩

end BuddySystem.Arena
