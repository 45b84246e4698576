import BuddySystem.Proofs.Arena.Runs

/-!
# Where blocks are placed

The addresses of live blocks: they lie in the memory of the arena, no two blocks share one, and
what is handed out suits the size and the alignment that were asked for (`memorySafe_run`). A
request is refused only if it is not supported or if every place for its block overlaps a live
block (`refused_iff_run`).
-/

namespace BuddySystem

open Occupancy Arena

namespace Occupied

variable {config : Config}

/-- The addresses of the block that starts with a slice that was handed out for a request. -/
def extent (_occupied : Occupied config) (size align : Nat) (slice : Slice) : Set Nat :=
  Set.Ico slice.addr (slice.addr + config.servingLen size align)

/-- A slice suits a request, and the block that it starts suits the live blocks. -/
structure Safe (occupied : Occupied config) (size align : Nat) (slice : Slice) : Prop where
  len : slice.len = size
  align_dvd : align ∣ slice.addr
  len_dvd : config.servingLen size align ∣ slice.addr
  within : occupied.extent size align slice ⊆ occupied.memory
  apart : ∀ block ∈ occupied.live,
    Disjoint (occupied.addresses block) (occupied.extent size align slice)
  /-- The block becomes live. -/
  recorded : ∃ block, occupied.served size align slice = insert block occupied.live ∧
    occupied.addresses block = occupied.extent size align slice

/-- The memory that is handed out is safe to use, and so is the memory that was. -/
structure MemorySafe (occupied : Occupied config) : Prop where
  safe : ∀ size align slice after,
    (allocate size align).run occupied.arena = .ok (.ok slice) after →
    occupied.Safe size align slice
  apart : ∀ block ∈ occupied.live, ∀ other ∈ occupied.live, block ≠ other →
    Disjoint (occupied.addresses block) (occupied.addresses other)
  within : ∀ block ∈ occupied.live, occupied.addresses block ⊆ occupied.memory
  bookkeeping : ∃ region, config.region? = some region ∧ ∀ block ∈ occupied.live,
    Disjoint (occupied.addresses block) (region.bookkeeping occupied.arena.span.addr)

/-- Whether every range of a length that starts at a multiple of it from the start of the arena
shares an address with a live block. -/
def Crowded (occupied : Occupied config) (len : Nat) : Prop :=
  ∀ offset, len ∣ offset → offset + len ≤ config.capacity →
    ∃ block ∈ occupied.live, ¬Disjoint (occupied.addresses block)
      (Set.Ico (occupied.arena.span.addr + offset) (occupied.arena.span.addr + offset + len))

variable {start after : Arena config} {occupied : Occupied config}

/-- Every multiple of a length that starts a block is a multiple of it as an address, too. -/
theorem servingLen_dvd_addr {base target leaf : Nat}
    (hbase : config.capacity ∣ base) (hnode : (Node.mk leaf target).InTree config.maxOrder) :
    config.blockSize * 2 ^ target ∣ base + leaf * config.blockSize := by
  have hcapacity : config.blockSize * 2 ^ target ∣ config.capacity := by
    rw [config.len_eq, Config.capacity]
    exact Nat.pow_dvd_pow 2 (Nat.add_le_add_left hnode.1 _)
  exact Nat.dvd_add (Nat.dvd_trans hcapacity hbase) (Node.len_dvd hnode)

/-- What is handed out starts a block that shares no leaf with a live one. -/
theorem exists_served (h : occupied.arena.Keeps start occupied.ledger) {size align : Nat}
    {slice : Slice} (hrun : (allocate size align).run occupied.arena = .ok (.ok slice) after) :
    ∃ node : Node, node.InTree config.maxOrder ∧ ¬Touched occupied.live node ∧
      config.order? size align = some node.order ∧ slice = ⟨occupied.addrOf node, size⟩ ∧
      occupied.extent size align slice = occupied.addresses node ∧
      occupied.served size align slice = insert node occupied.live := by
  rcases h.allocate_cases size align with
    ⟨refusal, hrefused, -⟩ | ⟨target, leaf, rest, other, horder, hserved, hother, -⟩
  · cases hrefused.symm.trans hrun
  · cases hother.symm.trans hrun
    have hlen := (config.order?_eq_some_iff.1 horder).2
    obtain ⟨-, hnode, huntouched⟩ := h.balanced.of_allocate hserved
    refine ⟨⟨leaf, target⟩, hnode, huntouched, horder, ?_, ?_, h.served_eq horder⟩
    · rw [addrOf, h.shows_ledger.span]
    · rw [addresses, h.shows_ledger.span, config.addresses_eq, extent, hlen]

theorem safe_of_keeps (h : occupied.arena.Keeps start occupied.ledger)
    (hbase : config.capacity ∣ start.span.addr) {size align : Nat} {slice : Slice}
    (hrun : (allocate size align).run occupied.arena = .ok (.ok slice) after) :
    occupied.Safe size align slice := by
  obtain ⟨node, hnode, huntouched, horder, rfl, hextent, hserved⟩ := exists_served h hrun
  obtain ⟨⟨-, hpower, -⟩, hlen⟩ := config.order?_eq_some_iff.1 horder
  have hdvd := servingLen_dvd_addr hbase hnode
  rw [← hlen, ← h.shows_ledger.span] at hdvd
  refine ⟨rfl, Nat.dvd_trans (config.align_dvd_servingLen hpower) hdvd, hdvd, ?_, ?_, ?_⟩
  · rw [hextent]
    exact config.addresses_subset hnode
  · intro block hmem
    rw [hextent, addresses, addresses, config.disjoint_addresses]
    exact fun hover => huntouched ⟨block, hmem, hover⟩
  · exact ⟨node, hserved, hextent.symm⟩

/-- The places for the blocks of an order are the nodes of this order. -/
theorem crowded_iff {order : Nat} (horder : order ≤ config.maxOrder) :
    occupied.Crowded (config.blockSize * 2 ^ order) ↔
      ∀ node : Node, node.InTree config.maxOrder → node.order = order →
        Touched occupied.live node := by
  have hpos : 0 < config.blockSize * 2 ^ order :=
    Nat.mul_pos config.blockSize_pos (Nat.two_pow_pos order)
  have hshared : ∀ block node : Node,
      ¬Disjoint (occupied.addresses block) (occupied.addresses node) ↔ block.Overlaps node :=
    fun block node => by rw [addresses, addresses, config.disjoint_addresses, not_not]
  constructor
  · intro hcrowded node hnode hsame
    obtain ⟨leaf, order⟩ := node
    subst hsame
    have hstop : leaf * config.blockSize + config.blockSize * 2 ^ order ≤ config.capacity := by
      rw [config.capacity_eq, Nat.mul_comm config.blockSize, ← Nat.add_mul]
      exact Nat.mul_le_mul_right _ hnode.2.2
    obtain ⟨block, hmem, hover⟩ := hcrowded _ (Node.len_dvd hnode) hstop
    rw [← config.addresses_eq] at hover
    exact ⟨block, hmem, (hshared block _).1 hover⟩
  · intro htouched offset hdvd hstop
    obtain ⟨hnode, hbytes⟩ := range_inTree horder (by omega) (Nat.mod_eq_zero_of_dvd hdvd)
    obtain ⟨block, hmem, hover⟩ := htouched _ hnode rfl
    have hrange : occupied.addresses ⟨offset / config.blockSize, order⟩ =
        Set.Ico (occupied.arena.span.addr + offset)
          (occupied.arena.span.addr + offset + config.blockSize * 2 ^ order) := by
      rw [addresses, config.addresses_eq, hbytes]
    rw [← hshared, hrange] at hover
    exact ⟨block, hmem, hover⟩

/-- A request is refused exactly if it is not supported or every place for its block is taken. -/
theorem refused_iff_of_keeps (h : occupied.arena.Keeps start occupied.ledger) (size align : Nat) :
    ∃ answer after, (allocate size align).run occupied.arena = .ok answer after ∧
      ((∃ refusal, answer = .error refusal) ↔
        ¬config.Supported size align ∨ occupied.Crowded (config.servingLen size align)) := by
  have hplaces : ∀ target, config.order? size align = some target →
      config.Supported size align ∧ (occupied.Crowded (config.servingLen size align) ↔
        occupied.ledger.allocate config.maxOrder target = none) := by
    intro target horder
    obtain ⟨hsupported, hlen⟩ := config.order?_eq_some_iff.1 horder
    rw [hlen, crowded_iff (config.le_maxOrder_of_order? horder)]
    exact ⟨hsupported, h.balanced.allocate_eq_none_iff.symm⟩
  -- A ledger without a block for the request is one in which every place is taken.
  rcases h.allocate_cases size align with
    ⟨refusal, hrun, hnone⟩ | ⟨target, leaf, rest, after, horder, hserved, hrun, -⟩
  · refine ⟨_, _, hrun, iff_of_true ⟨refusal, rfl⟩ ?_⟩
    cases horder : config.order? size align with
    | none => exact .inl (config.order?_eq_none_iff.1 horder)
    | some target => exact .inr ((hplaces target horder).2.2 (hnone target horder))
  · obtain ⟨hsupported, hcrowded⟩ := hplaces target horder
    refine ⟨_, _, hrun, iff_of_false (fun ⟨refusal, heq⟩ => nomatch heq) ?_⟩
    rw [not_or, not_not, hcrowded, hserved]
    exact ⟨hsupported, Option.some_ne_none _⟩

theorem memorySafe_of_keeps (h : occupied.arena.Keeps start occupied.ledger)
    (hbase : config.capacity ∣ start.span.addr) {region : Config.Region}
    (hregion : config.region? = some region) : occupied.MemorySafe where
  safe size align slice after hrun := safe_of_keeps h hbase hrun
  apart block hblock other hother hne := by
    rw [addresses, addresses, config.disjoint_addresses]
    exact fun hover => hne (h.placed.apart block hblock other hother hover)
  within block hblock := config.addresses_subset (h.placed.inTree block hblock)
  bookkeeping := by
    refine ⟨region, hregion, fun block hblock => ?_⟩
    have hstop : occupied.arena.span.addr + config.capacity < Word.bound := by
      rw [h.shows_ledger.span, ← h.shows_ledger.extent]
      exact start.span.stop_lt
    exact (config.disjoint_bookkeeping hregion hstop).mono_left
      (config.addresses_subset (h.placed.inTree block hblock))

end Occupied

variable {config : Config} {σ : Type} {provider : Provider σ} {before after : σ}
  {start : Arena config}

/-- If the region of an arena suits its alignment, then in every state that the arena reaches the
memory that it hands out is safe to use. -/
theorem memorySafe_run (h : (build config provider).run before = .ok (.ok start) after)
    (haligned : start.region.align ∣ start.span.addr) (uses : List Use) :
    (Occupied.run start uses).MemorySafe := by
  obtain ⟨-, region, hregion, span, hextent, hfresh⟩ := build_eq_ok h
  have hbase : config.capacity ∣ start.span.addr := by
    rw [(fresh_keeps hextent hfresh).2] at haligned
    exact Nat.dvd_trans (Config.capacity_dvd_align hregion) haligned
  exact Occupied.memorySafe_of_keeps (keeps_run h uses) hbase hregion

/-- Two blocks of a small arena are live, and the next slice is handed out between them. -/
theorem memorySafe_run_small :
    ∃ start after, (build Config.small Host.heap).run Host.fresh = .ok (.ok start) after ∧
      start.region.align ∣ start.span.addr ∧
      (Occupied.run start [.allocate 16 16, .allocate 17 4, .deallocate 3 1 1]).live =
        {⟨0, 0⟩, ⟨2, 1⟩} ∧
      (allocate 9 4).run' (Occupied.run start
        [.allocate 16 16, .allocate 17 4, .deallocate 3 1 1]).arena =
          some (.ok ⟨start.span.addr + 16, 9⟩) ∧
      (Occupied.run start [.allocate 16 16, .allocate 17 4, .deallocate 3 1 1]).MemorySafe := by
  obtain ⟨start, after, h⟩ := exists_build_small
  have haligned : start.region.align ∣ start.span.addr := by
    cases h
    decide +kernel
  refine ⟨start, after, h, haligned, ?_, ?_, memorySafe_run h haligned _⟩
  all_goals
    cases h
    decide +kernel

/-- In every state that an arena reaches, a request is refused exactly if its size is zero, its
alignment is not a power of two, it asks for more than the whole arena, or if every place for its
block shares an address with a live block. -/
theorem refused_iff_run (h : (build config provider).run before = .ok (.ok start) after)
    (uses : List Use) (size align : Nat) :
    ∃ answer next, (allocate size align).run (Occupied.run start uses).arena = .ok answer next ∧
      ((∃ refusal, answer = .error refusal) ↔
        (size = 0 ∨ (¬∃ k, align = 2 ^ k) ∨ config.capacity < max size align) ∨
        (Occupied.run start uses).Crowded (config.servingLen size align)) := by
  rw [← config.not_supported_iff]
  exact Occupied.refused_iff_of_keeps (keeps_run h uses) size align

/-- A small arena of which the first block is live has no block of more than half its size. -/
theorem refused_iff_run_small :
    ∃ start after, (build Config.small Host.heap).run Host.fresh = .ok (.ok start) after ∧
      (allocate 33 1).run' (Occupied.run start [.allocate 16 16]).arena =
        some (.error (.exhausted 2)) ∧
      ∃ answer next,
        (allocate 33 1).run (Occupied.run start [.allocate 16 16]).arena = .ok answer next ∧
        ((∃ refusal, answer = .error refusal) ↔
          (33 = 0 ∨ (¬∃ k, 1 = 2 ^ k) ∨ Config.small.capacity < max 33 1) ∨
          (Occupied.run start [.allocate 16 16]).Crowded (Config.small.servingLen 33 1)) := by
  obtain ⟨start, after, h⟩ := exists_build_small
  refine ⟨start, after, h, ?_, refused_iff_run h _ 33 1⟩
  cases h
  decide +kernel

end BuddySystem
