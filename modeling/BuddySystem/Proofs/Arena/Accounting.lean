import BuddySystem.Proofs.Arena.Bookkeeping
import BuddySystem.Proofs.Census
import Mathlib.Algebra.BigOperators.Ring.Finset

/-!
# What an arena says of itself

The counts that an arena gives are taken from the lengths of its lists and the words of its bitmap.
For an arena that keeps a ledger, they are those of the ledger: the lengths of its lists, the bytes
of its free blocks, and whether it has no live block (`Keeps.freeBlocks_eq`, `Keeps.freeBytes_eq`,
`Keeps.isIdle_eq`). The free and the live bytes are the whole arena.
-/

namespace BuddySystem

open FreeLists Occupancy Ledger

namespace Ledger

/-- The sum of the lengths of the free blocks in bytes. -/
def freeBytes (config : Config) (ledger : Ledger) : Nat :=
  ∑ order ∈ Finset.range (config.maxOrder + 1),
    (ledger.free order).length * (config.blockSize * 2 ^ order)

/-- The sum of the lengths of the live blocks in bytes. -/
def liveBytes (config : Config) (ledger : Ledger) : Nat :=
  ∑ block ∈ ledger.live, config.blockSize * 2 ^ block.order

variable {config : Config} {ledger : Ledger}

/-- The free and the live blocks are the whole arena. -/
theorem freeBytes_add_liveBytes (h : Balanced config.maxOrder ledger.live ledger.free)
    (hlive : Placed config.maxOrder ledger.live) :
    ledger.freeBytes config + ledger.liveBytes config = config.capacity := by
  have hfree : ledger.freeBytes config =
      config.blockSize * leafCount config.maxOrder ledger.free := by
    rw [freeBytes, leafCount, Finset.mul_sum]
    exact Finset.sum_congr rfl fun order _ => Nat.mul_left_comm _ _ _
  rw [hfree, liveBytes, ← Finset.mul_sum, ← Nat.mul_add, h.leafCount_add hlive,
    config.capacity_eq, Config.blockCount, Nat.mul_comm]

/-- The bytes that are not free are the live ones. -/
theorem capacity_sub_freeBytes (h : Balanced config.maxOrder ledger.live ledger.free)
    (hlive : Placed config.maxOrder ledger.live) :
    Word.sub config.capacity (ledger.freeBytes config) = .ok (ledger.liveBytes config) := by
  rw [← freeBytes_add_liveBytes h hlive, Word.sub, if_pos (Nat.le_add_right _ _),
    Nat.add_sub_cancel_left]

/-- There are live bytes exactly if there is a live block. -/
theorem liveBytes_eq_zero_iff : ledger.liveBytes config = 0 ↔ ledger.live = ∅ := by
  rw [liveBytes, Finset.sum_eq_zero_iff, Finset.eq_empty_iff_forall_notMem]
  refine forall_congr' fun block => imp_congr_right fun _ => iff_of_false ?_ id
  exact (Nat.mul_pos config.blockSize_pos (Nat.two_pow_pos _)).ne'

end Ledger

namespace Arena

variable {config : Config} {start arena : Arena config} {ledger : Ledger}

/-- The number of free blocks of an order is the length of their list. -/
theorem Keeps.freeBlocks_eq (h : arena.Keeps start ledger) {order : Nat}
    (horder : order ≤ config.maxOrder) :
    arena.freeBlocks order = .ok (ledger.free order).length := by
  have hlt := Nat.lt_of_le_of_lt horder config.maxOrder_lt
  rw [freeBlocks, if_pos horder, h.shows_ledger.lists.len_eq hlt]
  rfl

/-- Adding up the lengths of the free blocks does not overflow: they are parts of the arena. -/
theorem Keeps.freeBytes_eq (h : arena.Keeps start ledger) :
    arena.freeBytes = .ok (ledger.freeBytes config) := by
  have htotal := freeBytes_add_liveBytes h.balanced h.placed
  have hword := config.capacity_lt
  -- The induction is on the number of orders that are counted.
  have hsum : ∀ count ≤ config.maxOrder + 1,
      (List.range count).foldlM (fun total order => do
        Word.add total (← Word.mul (← arena.free.len order) (← config.blockLen order))) 0 =
      Except.ok (∑ order ∈ Finset.range count,
        (ledger.free order).length * (config.blockSize * 2 ^ order)) := by
    intro count hcount
    induction count with
    | zero => rfl
    | succ count ih =>
        have hle : count ≤ config.maxOrder := by omega
        have hpart : ∑ order ∈ Finset.range (count + 1),
            (ledger.free order).length * (config.blockSize * 2 ^ order) ≤
              ledger.freeBytes config := by
          refine Finset.sum_le_sum_of_subset ?_
          exact Finset.range_subset_range.2 hcount
        rw [Finset.sum_range_succ] at hpart ⊢
        have hmul : Word.mul (ledger.free count).length (config.blockSize * 2 ^ count) =
            .ok ((ledger.free count).length * (config.blockSize * 2 ^ count)) :=
          if_pos (by omega)
        have hlen := h.shows_ledger.lists.len_eq (Nat.lt_of_le_of_lt hle config.maxOrder_lt)
        rw [List.range_succ, List.foldlM_append, ih (by omega)]
        simp only [List.foldlM_cons, List.foldlM_nil, bind, Except.bind, hlen,
          config.blockLen_eq hle, hmul]
        rw [Word.add, if_pos (by omega)]
        rfl
  exact hsum _ (Nat.le_refl _)

/-- Taking a block back adds its length to the free bytes. -/
theorem Keeps.freeBytes_deallocate (h : arena.Keeps start ledger) {after : Arena config}
    {block : Node} (hmem : block ∈ ledger.live)
    (hafter : after.Keeps start (ledger.deallocate config.maxOrder block)) :
    after.freeBytes = .ok (ledger.freeBytes config + config.blockSize * 2 ^ block.order) := by
  have hbefore := freeBytes_add_liveBytes h.balanced h.placed
  have htotal := freeBytes_add_liveBytes hafter.balanced hafter.placed
  have hlive : (ledger.deallocate config.maxOrder block).liveBytes config +
      config.blockSize * 2 ^ block.order = ledger.liveBytes config :=
    Finset.sum_erase_add _ _ hmem
  rw [hafter.freeBytes_eq]
  congr 1
  omega

/-- No bit of an arena is set exactly if nothing is live. -/
theorem Keeps.any_eq_false_iff (h : arena.Keeps start ledger) :
    arena.nodes.any = false ↔ ledger.live = ∅ := by
  rw [Bitmap.any_eq_false_iff, Finset.eq_empty_iff_forall_notMem]
  constructor
  · intro hclear block hmem
    have hbit := (h.shows_ledger.bit block (h.placed.inTree block hmem)).2
      ⟨block, hmem, .refl block⟩
    rw [hclear] at hbit
    cases hbit
  · intro hempty index
    rw [← Bool.not_eq_true]
    intro hbit
    rcases Nat.lt_or_ge index config.nodeCount with hlt | hge
    · obtain ⟨node, hnode, rfl⟩ := Node.exists_number_eq hlt
      obtain ⟨block, hmem, -⟩ := (h.shows_ledger.bit node hnode).1 hbit
      exact hempty block hmem
    · rw [h.shows_ledger.beyond index hge] at hbit
      cases hbit

/-- An arena is idle exactly if no block is live. -/
theorem Keeps.isIdle_eq (h : arena.Keeps start ledger) :
    arena.isIdle = .ok (decide (ledger.live = ∅)) := by
  have hany := h.any_eq_false_iff
  rw [isIdle, h.shows_ledger.lists.len_eq config.maxOrder_lt]
  by_cases hempty : ledger.live = ∅
  · have hbalanced := h.balanced
    rw [hempty] at hbalanced
    simp [bind, Except.bind, pure, Except.pure, hempty, hany.2 hempty,
      hbalanced.free_of_idle, Ledger.idle]
  · have hset : arena.nodes.any = true := by
      rw [← Bool.not_eq_false, hany]
      exact hempty
    simp [bind, Except.bind, pure, Except.pure, hempty, hset]

end Arena

end BuddySystem
