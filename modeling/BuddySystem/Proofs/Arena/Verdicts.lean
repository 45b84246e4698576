import BuddySystem.Proofs.Arena.Runs

/-!
# Verdicts on deallocations

The answer of an arena to a pointer, a size and an alignment tells exactly how they are related to
the live blocks (`Occupied.Classified`), and what becomes of the live blocks follows from the answer
(`Occupied.Settled`). `exists_verdict_run` says so of every state that an arena reaches.
-/

namespace BuddySystem

open Occupancy Arena

namespace Occupied

variable {config : Config}

/-- Whether an address is one of the arena, and a block of the order of the request that the size
and the alignment describe could start there. -/
def Fits (occupied : Occupied config) (addr size align order : Nat) : Prop :=
  addr ∈ occupied.memory ∧ config.order? size align = some order ∧
    config.blockSize * 2 ^ order ∣ addr - occupied.arena.span.addr

/-- The addresses of the block of an order that starts at an address. -/
def range (_occupied : Occupied config) (addr order : Nat) : Set Nat :=
  Set.Ico addr (addr + config.blockSize * 2 ^ order)

/-- Whether a live block of an order starts at an address. -/
def LiveAt (occupied : Occupied config) (addr order : Nat) : Prop :=
  ∃ block ∈ occupied.live, occupied.addrOf block = addr ∧ block.order = order

/-- Whether a live block lies strictly inside the block of an order that starts at an address. -/
def SplitAt (occupied : Occupied config) (addr order : Nat) : Prop :=
  ∃ block ∈ occupied.live, occupied.addresses block ⊂ occupied.range addr order

/-- The answer to a deallocation tells what the pointer, the size and the alignment describe. -/
structure Classified (occupied : Occupied config) (addr size align : Nat)
    (answer : Except Rejection Unit) : Prop where
  notOwned : answer = .error .notOwned ↔ addr ∉ occupied.memory
  invalidLayout : addr ∈ occupied.memory →
    (answer = .error .invalidLayout ↔
      size = 0 ∨ (¬∃ k, align = 2 ^ k) ∨ config.capacity < max size align)
  misaligned : ∀ order, addr ∈ occupied.memory → config.order? size align = some order →
    (answer = .error .misaligned ↔
      ¬config.blockSize * 2 ^ order ∣ addr - occupied.arena.span.addr)
  ok : ∀ order, occupied.Fits addr size align order →
    (answer = .ok () ↔ occupied.LiveAt addr order)
  sizeMismatch : ∀ order, occupied.Fits addr size align order → ¬occupied.LiveAt addr order →
    (answer = .error .sizeMismatch ↔ occupied.SplitAt addr order)
  notAllocated : ∀ order, occupied.Fits addr size align order → ¬occupied.LiveAt addr order →
    ¬occupied.SplitAt addr order → answer = .error .notAllocated
  /-- What is not allocated is free or a proper part of a single live block. -/
  unallocated : ∀ order, occupied.Fits addr size align order → answer = .error .notAllocated →
    (∀ block ∈ occupied.live, Disjoint (occupied.addresses block) (occupied.range addr order)) ∨
    ∃ block ∈ occupied.live, occupied.range addr order ⊂ occupied.addresses block ∧
      ∀ other ∈ occupied.live,
        ¬Disjoint (occupied.addresses other) (occupied.range addr order) → other = block

/-- What becomes of the live blocks follows from the answer to a deallocation. -/
structure Settled (occupied : Occupied config) (addr size align : Nat)
    (answer : Except Rejection Unit) : Prop where
  /-- The block at the pointer is no longer live, and all others still are. -/
  released : answer = .ok () → ∃ block ∈ occupied.live, occupied.addrOf block = addr ∧
    config.order? size align = some block.order ∧
      (occupied.step (.deallocate addr size align)).live = occupied.live.erase block
  kept : answer ≠ .ok () → (occupied.step (.deallocate addr size align)).live = occupied.live
  /-- Giving the block back a second time is rejected. -/
  again : answer = .ok () → ∀ size' align',
    config.order? size' align' = config.order? size align →
      ∃ after, (deallocate addr size' align').run
          (occupied.step (.deallocate addr size align)).arena =
        .ok (.error .notAllocated) after

variable {start : Arena config} {occupied : Occupied config} {node : Node}

/-! ## Ranges that are blocks -/

theorem range_eq (occupied : Occupied config) (node : Node) :
    occupied.range (occupied.addrOf node) node.order = occupied.addresses node := by
  rw [addresses, config.addresses_eq, range, addrOf]

/-- A live block starts at a node exactly if the node is live. -/
theorem liveAt_iff :
    occupied.LiveAt (occupied.addrOf node) node.order ↔ node ∈ occupied.live := by
  constructor
  · intro hlive
    obtain ⟨block, hmem, haddr, horder⟩ := hlive
    rw [addrOf, addrOf, Nat.add_right_inj, Nat.mul_left_inj config.blockSize_pos.ne'] at haddr
    obtain rfl : block = node := by
      obtain ⟨leaf, order⟩ := block
      obtain rfl : leaf = node.leaf := haddr
      obtain rfl : order = node.order := horder
      rfl
    exact hmem
  · intro hmem
    exact ⟨node, hmem, rfl, rfl⟩

/-- A node is split exactly if a live block is strictly inside it. -/
theorem splitAt_iff :
    occupied.SplitAt (occupied.addrOf node) node.order ↔
      ∃ block ∈ occupied.live, block.StrictlyInside node := by
  simp only [SplitAt, range_eq, addresses, config.addresses_ssubset]

/-- Every node is a block that fits, for a request of its order. -/
theorem fits_addrOf (hnode : node.InTree config.maxOrder) {size align : Nat}
    (horder : config.order? size align = some node.order) :
    occupied.Fits (occupied.addrOf node) size align node.order := by
  refine ⟨config.addresses_subset hnode ⟨Nat.le_refl _, ?_⟩, horder, ?_⟩
  · exact Nat.add_lt_add_left (Nat.mul_lt_mul_of_pos_right node.leaf_lt_stop config.blockSize_pos) _
  · rw [addrOf, Nat.add_sub_cancel_left]
    exact Node.len_dvd hnode

/-! ## Verdicts -/

/-- A node without a live block in it is free or a proper part of a single live block. -/
theorem unallocated_of_not_used (hlive : Placed config.maxOrder occupied.live)
    (hnode : node.InTree config.maxOrder) (hunused : ¬Used occupied.live node) :
    (∀ block ∈ occupied.live, Disjoint (occupied.addresses block) (occupied.addresses node)) ∨
    ∃ block ∈ occupied.live, occupied.addresses node ⊂ occupied.addresses block ∧
      ∀ other ∈ occupied.live,
        ¬Disjoint (occupied.addresses other) (occupied.addresses node) → other = block := by
  simp only [addresses, config.disjoint_addresses, config.addresses_ssubset, not_not]
  by_cases htouched : Touched occupied.live node
  · obtain ⟨block, hmem, hin⟩ := (htouched.used_or hlive hnode).resolve_left hunused
    refine .inr ⟨block, hmem, hin, fun other hother hover => ?_⟩
    exact hlive.apart other hother block hmem (hover.symm.mono hin.1).symm
  · exact .inl fun block hmem hover => htouched ⟨block, hmem, hover⟩

/-- The verdict on a node follows from the live blocks in and around it. -/
theorem classified_node (hlive : Placed config.maxOrder occupied.live)
    (hnode : node.InTree config.maxOrder) {size align : Nat}
    (horder : config.order? size align = some node.order)
    {answer : Except Rejection Unit}
    (hanswer : answer = if node ∈ occupied.live then .ok ()
      else if ∃ block ∈ occupied.live, block.StrictlyInside node then .error .sizeMismatch
      else .error .notAllocated) :
    occupied.Classified (occupied.addrOf node) size align answer := by
  obtain ⟨hmemory, -, hdvd⟩ := fits_addrOf hnode horder
  have horder' : ∀ order, config.order? size align = some order → order = node.order :=
    fun order h => Option.some.inj (h.symm.trans horder)
  -- The pointer and the request are in order, so only two reasons are left.
  have hreason : ∀ reason, answer = .error reason →
      reason = .sizeMismatch ∨ reason = .notAllocated := by
    intro reason h
    rw [hanswer] at h
    split at h
    · cases h
    · split at h <;> cases h <;> simp
  refine ⟨?_, fun _ => ?_, fun order _ h => ?_, fun order h => ?_, fun order h hlive => ?_,
    fun order h hlive hsplit => ?_, fun order h heq => ?_⟩
  · exact iff_of_false (fun h => by simpa using hreason _ h) (not_not.2 hmemory)
  · exact iff_of_false (fun h => by simpa using hreason _ h) fun h =>
      config.not_supported_iff.2 h (config.order?_eq_some_iff.1 horder).1
  · rw [horder' order h]
    exact iff_of_false (fun h => by simpa using hreason _ h) (not_not.2 hdvd)
  · rw [horder' order h.2.1, liveAt_iff, hanswer]
    split
    · next hmem => simp [hmem]
    · next hmem => split <;> simp [hmem]
  · rw [horder' order h.2.1, liveAt_iff] at hlive
    rw [horder' order h.2.1, splitAt_iff, hanswer, if_neg hlive]
    split <;> simp [*]
  · rw [horder' order h.2.1, liveAt_iff] at hlive
    rw [horder' order h.2.1, splitAt_iff] at hsplit
    rw [hanswer, if_neg hlive, if_neg hsplit]
  · have hunused : ¬Used occupied.live node := by
      rw [used_iff, not_or]
      rw [hanswer] at heq
      split at heq
      · cases heq
      · next hmem =>
          split at heq
          · cases heq
          · next hsplit => exact ⟨hmem, hsplit⟩
    rw [horder' order h.2.1, range_eq]
    exact unallocated_of_not_used hlive hnode hunused

/-- The verdict that the live blocks give on any pointer, size and alignment. -/
theorem classified_judge (hlive : Placed config.maxOrder occupied.live) (addr size align : Nat) :
    occupied.Classified addr size align
      ((judge config occupied.arena.span.addr occupied.live addr size align).map fun _ => ()) := by
  rcases judge_cases config occupied.arena.span.addr occupied.live addr size align with
    ⟨howned, hjudge⟩ | ⟨howned, ⟨horder, hjudge⟩ | ⟨order, horder, hcases⟩⟩
  · rw [hjudge]
    exact ⟨iff_of_true rfl howned, fun h => absurd h howned, fun _ h => absurd h howned,
      fun _ h => absurd h.1 howned, fun _ h => absurd h.1 howned, fun _ h => absurd h.1 howned,
      fun _ h => absurd h.1 howned⟩
  · have hnone : ∀ order, config.order? size align ≠ some order := by simp [horder]
    have hunsupported := config.not_supported_iff.1 (config.order?_eq_none_iff.1 horder)
    rw [hjudge]
    exact ⟨iff_of_false (by simp [Except.map]) (not_not.2 howned),
      fun _ => iff_of_true rfl hunsupported, fun _ _ h => absurd h (hnone _),
      fun _ h => absurd h.2.1 (hnone _), fun _ h => absurd h.2.1 (hnone _),
      fun _ h => absurd h.2.1 (hnone _), fun _ h => absurd h.2.1 (hnone _)⟩
  · rcases hcases with ⟨hmod, hjudge⟩ | ⟨node, hnode, rfl, rfl, hjudge⟩
    · have hsupported := (config.order?_eq_some_iff.1 horder).1
      have horder' : ∀ other, config.order? size align = some other → other = order :=
        fun other h => Option.some.inj (h.symm.trans horder)
      have hmis : ∀ other, ¬occupied.Fits addr size align other := by
        intro other hfits
        obtain ⟨-, hother, hdvd⟩ := hfits
        rw [horder' other hother] at hdvd
        exact hmod (Nat.mod_eq_zero_of_dvd hdvd)
      rw [hjudge]
      refine ⟨iff_of_false (by simp [Except.map]) (not_not.2 howned),
        fun _ => iff_of_false (by simp [Except.map]) fun h =>
          config.not_supported_iff.2 h hsupported,
        fun other _ hother => iff_of_true rfl fun hdvd => ?_,
        fun _ h => absurd h (hmis _), fun _ h => absurd h (hmis _), fun _ h => absurd h (hmis _),
        fun _ h => absurd h (hmis _)⟩
      rw [horder' other hother] at hdvd
      exact hmod (Nat.mod_eq_zero_of_dvd hdvd)
    · refine classified_node hlive hnode horder ?_
      rw [hjudge]
      split
      · rfl
      · split <;> rfl

/-- The answer of an arena is the verdict that its live blocks give. -/
theorem classified_of_keeps (h : occupied.arena.Keeps start occupied.ledger)
    (addr size align : Nat) :
    ∃ answer after, (deallocate addr size align).run occupied.arena = .ok answer after ∧
      occupied.Classified addr size align answer := by
  have hclassified := classified_judge h.placed addr size align
  rw [h.shows_ledger.span] at hclassified
  rcases h.deallocate_cases addr size align with
    ⟨reason, hjudge, hrun⟩ | ⟨block, after, hjudge, hrun, -⟩
  · simp only [ledger] at hjudge
    rw [hjudge] at hclassified
    exact ⟨_, _, hrun, hclassified⟩
  · simp only [ledger] at hjudge
    rw [hjudge] at hclassified
    exact ⟨_, _, hrun, hclassified⟩

/-- A block that no live block shares a leaf with is not taken back. -/
theorem run_deallocate_untouched (h : occupied.arena.Keeps start occupied.ledger)
    (hnode : node.InTree config.maxOrder) (huntouched : ¬Touched occupied.live node)
    {size align : Nat} (horder : config.order? size align = some node.order) :
    ∃ after, (deallocate (occupied.addrOf node) size align).run occupied.arena =
      .ok (.error .notAllocated) after := by
  obtain ⟨answer, after, hrun, hclassified⟩ :=
    classified_of_keeps h (occupied.addrOf node) size align
  have hanswer : answer = .error .notAllocated := by
    refine hclassified.notAllocated node.order (fits_addrOf hnode horder) ?_ ?_
    · rw [liveAt_iff]
      exact fun hmem => huntouched ⟨node, hmem, (Node.Inside.refl node).overlaps⟩
    · rw [splitAt_iff]
      intro hsplit
      obtain ⟨block, hmem, hin⟩ := hsplit
      exact huntouched ⟨block, hmem, hin.1.overlaps⟩
  exact ⟨after, hanswer ▸ hrun⟩

/-- What becomes of the live blocks. -/
theorem settled_of_keeps (h : occupied.arena.Keeps start occupied.ledger) {addr size align : Nat}
    {answer : Except Rejection Unit} {after : Arena config}
    (hanswer : (deallocate addr size align).run occupied.arena = .ok answer after) :
    occupied.Settled addr size align answer := by
  have hnext := h.step (.deallocate addr size align)
  have hspan : occupied.arena.span = start.span := h.shows_ledger.span
  rcases h.deallocate_cases addr size align with
    ⟨reason, -, hrun⟩ | ⟨block, freed, hjudge, hrun, -⟩
  · rw [hrun] at hanswer
    cases hanswer
    refine ⟨fun heq => absurd heq (by simp), fun _ => ?_, fun heq => absurd heq (by simp)⟩
    rw [step_rejected hrun]
  · obtain ⟨hmem, horder, rfl⟩ := judge_eq_ok hjudge
    have hblock := h.placed.inTree block hmem
    have hlive : (occupied.step (.deallocate (start.span.addr + block.leaf * config.blockSize)
        size align)).live = occupied.live.erase block := by
      rw [step_released hrun, h.released_eq hmem]
    rw [hrun] at hanswer
    cases hanswer
    refine ⟨fun _ => ⟨block, hmem, ?_, horder, hlive⟩, fun hne => absurd rfl hne, ?_⟩
    · rw [addrOf, hspan]
    · intro _ size' align' hsame
      have huntouched := h.placed.not_touched_erase hmem
      have hagain := run_deallocate_untouched hnext hblock (hlive ▸ huntouched)
        (hsame.trans horder)
      rw [addrOf, hnext.shows_ledger.span] at hagain
      exact hagain

end Occupied

variable {config : Config} {σ : Type} {provider : Provider σ} {before after : σ}
  {start : Arena config}

/-- In every state that an arena reaches, a deallocation has an answer, which tells exactly how
the pointer, the size and the alignment are related to the live blocks and what becomes of
them. -/
theorem exists_verdict_run (h : (build config provider).run before = .ok (.ok start) after)
    (uses : List Use) (addr size align : Nat) :
    ∃ answer next,
      (deallocate addr size align).run (Occupied.run start uses).arena = .ok answer next ∧
      (Occupied.run start uses).Classified addr size align answer ∧
      (Occupied.run start uses).Settled addr size align answer := by
  have hkeeps := keeps_run h uses
  obtain ⟨answer, next, hrun, hclassified⟩ := Occupied.classified_of_keeps hkeeps addr size align
  exact ⟨answer, next, hrun, hclassified, Occupied.settled_of_keeps hkeeps hrun⟩

/-- A block of a small arena is taken back by a layout of its length, even if it was handed out for
a smaller request. -/
theorem exists_verdict_run_small :
    ∃ start after, (build Config.small Host.heap).run Host.fresh = .ok (.ok start) after ∧
      (deallocate start.span.addr 16 16).run' (Occupied.run start [.allocate 9 4]).arena =
        some (.ok ()) ∧
      ∃ answer next,
        (deallocate start.span.addr 16 16).run (Occupied.run start [.allocate 9 4]).arena =
          .ok answer next ∧
        (Occupied.run start [.allocate 9 4]).Classified start.span.addr 16 16 answer ∧
        (Occupied.run start [.allocate 9 4]).Settled start.span.addr 16 16 answer := by
  obtain ⟨start, after, h⟩ := exists_build_small
  refine ⟨start, after, h, ?_, exists_verdict_run h _ _ 16 16⟩
  cases h
  decide +kernel

end BuddySystem
