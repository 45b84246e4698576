import BuddySystem.Pages
import BuddySystem.Proofs.Step
import BuddySystem.Proofs.Word
import Mathlib.Data.Int.ConditionallyCompleteOrder
import Mathlib.Order.CompletePartialOrder
import Mathlib.Order.ConditionallyCompleteLattice.Basic

/-!
# Lawful operating systems

What a provider of pages needs of an operating system is that it is `Kernel.Lawful`: what it maps
and unmaps are the ranges that it was asked for. On such a system a mapping can be cut into pieces
(`Kernel.Pieces`), of which the one in the middle is kept and the others are unmapped again
(`Kernel.Lawful.mapped_trimmed`).
-/

namespace BuddySystem

namespace Kernel

variable {σ : Type}

/-! ## What an operating system promises -/

/-- What an operating system does with the set of all addresses that are mapped, as far as whole
pages are mapped and unmapped. -/
structure Lawful (kernel : Kernel σ) (mapped : σ → Set Nat) : Prop where
  exists_pageSize : ∃ k, kernel.pageSize = 2 ^ k
  map_none : ∀ {len before after}, kernel.map len before = (none, after) →
    mapped after = mapped before
  /-- A mapping starts with a page, but not with the null address, and does not wrap around the
  address space. -/
  map_some : ∀ {len addr before after}, 0 < len → kernel.pageSize ∣ len →
    kernel.map len before = (some addr, after) →
    addr ≠ 0 ∧ kernel.pageSize ∣ addr ∧ addr + len ≤ Word.bound ∧
      mapped after = mapped before ∪ Set.Ico addr (addr + len)
  /-- A range that is mapped can be unmapped, and nothing else is. -/
  unmap : ∀ {addr len before}, 0 < len → kernel.pageSize ∣ addr → kernel.pageSize ∣ len →
    Set.Ico addr (addr + len) ⊆ mapped before →
    ∃ after, kernel.unmap addr len before = (true, after) ∧
      mapped after = mapped before \ Set.Ico addr (addr + len)

/-- Whether the operating system maps only addresses that are not mapped yet. -/
def Fresh (kernel : Kernel σ) (mapped : σ → Set Nat) : Prop :=
  ∀ {len addr before after}, 0 < len → kernel.pageSize ∣ len →
    kernel.map len before = (some addr, after) →
    Disjoint (mapped before) (Set.Ico addr (addr + len))

/-! ## The pieces of a mapping -/

/-- A mapping in three pieces: the pages before a part of it, the part, and the pages behind. -/
structure Pieces where
  first : Nat
  head : Nat
  len : Nat
  tail : Nat

namespace Pieces

/-- The length of the mapping. -/
def total (pieces : Pieces) : Nat :=
  pieces.head + pieces.len + pieces.tail

/-- The address of the part in the middle. -/
def addr (pieces : Pieces) : Nat :=
  pieces.first + pieces.head

/-- The address behind the part in the middle. -/
def stop (pieces : Pieces) : Nat :=
  pieces.addr + pieces.len

/-- A mapping that is longer than its part in the middle by an alignment, which this part has. -/
def around (first len align : Nat) : Pieces :=
  let head := Word.roundUp first align - first
  ⟨first, head, len, align - head⟩

/-- The addresses of the mapping. -/
def whole (pieces : Pieces) : Set Nat :=
  Set.Ico pieces.first (pieces.first + pieces.total)

/-- The addresses of the part in the middle. -/
def kept (pieces : Pieces) : Set Nat :=
  Set.Ico pieces.addr pieces.stop

theorem kept_subset_whole (pieces : Pieces) : pieces.kept ⊆ pieces.whole := by
  apply Set.Ico_subset_Ico
  · exact Nat.le_add_right _ _
  · rw [stop, addr, total]
    omega

/-- The part in the middle starts at the next multiple of the alignment. -/
theorem addr_around {align : Nat} (h : 0 < align) (first len : Nat) :
    (around first len align).addr = Word.roundUp first align :=
  Nat.add_sub_cancel' (Word.le_roundUp h)

/-- The aligned part starts less than the alignment behind the start of the mapping. -/
theorem total_around {align : Nat} (h : 0 < align) (first len : Nat) :
    (around first len align).total = len + align := by
  have hlt := Word.roundUp_lt_add h first
  simp only [total, around]
  omega

end Pieces

variable (kernel : Kernel σ)

/-- Whether all pieces start and end with a page. -/
structure Paged (pieces : Pieces) : Prop where
  first : kernel.pageSize ∣ pieces.first
  head : kernel.pageSize ∣ pieces.head
  len : kernel.pageSize ∣ pieces.len
  tail : kernel.pageSize ∣ pieces.tail

/-- The state after a range is unmapped, unless it is empty. -/
def unmapped (addr len : Nat) (state : σ) : σ :=
  if 0 < len then (kernel.unmap addr len state).2 else state

/-- The state after the pages before and behind the part in the middle are unmapped. -/
def trimmed (pieces : Pieces) (state : σ) : σ :=
  kernel.unmapped pieces.stop pieces.tail (kernel.unmapped pieces.first pieces.head state)

/-! ## Calls of the operating system -/

/-- A mapping that fails is told, and a null address is no mapping. -/
theorem run_mapLogged (len : Nat) (before : Logged σ) :
    (kernel.mapLogged len).run before =
      match kernel.map len before.state with
      | (some addr, after) => .ok (if addr = 0 then none else some addr) ⟨after, before.log⟩
      | (none, after) => .ok none ⟨after, before.log ++ [.mapFailed len]⟩ := by
  have hview : Logged.inside.view before = before.state := rfl
  rw [mapLogged, EStateM.run_bind, Focus.run_run, EStateM.run_modifyGet, hview]
  rcases kernel.map len before.state with ⟨_ | addr, after⟩ <;> rfl

/-- A range that cannot be unmapped is told, and nothing else comes of it. -/
theorem run_unmapLogged (addr len : Nat) (before : Logged σ) :
    (kernel.unmapLogged addr len).run before =
      match kernel.unmap addr len before.state with
      | (true, after) => .ok () ⟨after, before.log⟩
      | (false, after) => .ok () ⟨after, before.log ++ [.unmapFailed addr len]⟩ := by
  have hview : Logged.inside.view before = before.state := rfl
  rw [unmapLogged, EStateM.run_bind, Focus.run_run, EStateM.run_modifyGet, hview]
  rcases kernel.unmap addr len before.state with ⟨_ | _, after⟩ <;> rfl

variable {kernel} {mapped : σ → Set Nat} {addr len align : Nat}

theorem Paged.dvd_addr {pieces : Pieces} (hpaged : kernel.Paged pieces) :
    kernel.pageSize ∣ pieces.addr :=
  Nat.dvd_add hpaged.first hpaged.head

theorem Paged.dvd_stop {pieces : Pieces} (hpaged : kernel.Paged pieces) :
    kernel.pageSize ∣ pieces.stop :=
  Nat.dvd_add hpaged.dvd_addr hpaged.len

theorem Paged.dvd_total {pieces : Pieces} (hpaged : kernel.Paged pieces) :
    kernel.pageSize ∣ pieces.total :=
  Nat.dvd_add (Nat.dvd_add hpaged.head hpaged.len) hpaged.tail

/-- A mapping of whole pages is cut at pages if its alignment is a multiple of them. -/
theorem paged_around {first : Nat} (hdvd : kernel.pageSize ∣ align)
    (hfirst : kernel.pageSize ∣ first) (hlen : kernel.pageSize ∣ len) :
    kernel.Paged (Pieces.around first len align) := by
  have hhead : kernel.pageSize ∣ Word.roundUp first align - first :=
    Nat.dvd_sub (hdvd.trans (Word.dvd_roundUp first align)) hfirst
  exact ⟨hfirst, hhead, hlen, Nat.dvd_sub hdvd hhead⟩

namespace Lawful

variable (h : kernel.Lawful mapped)
include h

theorem pageSize_pos : 0 < kernel.pageSize := by
  obtain ⟨k, hk⟩ := h.exists_pageSize
  rw [hk]
  exact Nat.two_pow_pos k

/-- An alignment greater than a page is a multiple of one. -/
theorem pageSize_dvd_align (halign : ∃ k, align = 2 ^ k) (hlt : kernel.pageSize < align) :
    kernel.pageSize ∣ align := by
  obtain ⟨j, hj⟩ := h.exists_pageSize
  obtain ⟨k, rfl⟩ := halign
  rw [hj] at hlt ⊢
  exact Nat.pow_dvd_pow 2 ((Nat.pow_lt_pow_iff_right Nat.one_lt_two).1 hlt).le

/-- A page suits every alignment that is not greater. -/
theorem align_dvd_pageSize (halign : ∃ k, align = 2 ^ k) (hle : align ≤ kernel.pageSize) :
    align ∣ kernel.pageSize := by
  obtain ⟨j, hj⟩ := h.exists_pageSize
  obtain ⟨k, rfl⟩ := halign
  rw [hj] at hle ⊢
  exact Nat.pow_dvd_pow 2 ((Nat.pow_le_pow_iff_right Nat.one_lt_two).1 hle)

/-- Unmapping a range of pages takes its addresses out of what is mapped, even if it is empty. -/
theorem mapped_unmapped {state : σ} (haddr : kernel.pageSize ∣ addr) (hlen : kernel.pageSize ∣ len)
    (hsub : Set.Ico addr (addr + len) ⊆ mapped state) :
    mapped (kernel.unmapped addr len state) = mapped state \ Set.Ico addr (addr + len) := by
  rw [unmapped]
  split
  · next hpos =>
      obtain ⟨after, hunmap, hafter⟩ := h.unmap hpos haddr hlen hsub
      rw [hunmap, hafter]
  · next hzero =>
      rw [Nat.eq_zero_of_not_pos hzero, Nat.add_zero, Set.Ico_self, Set.sdiff_empty]

/-- A range that is mapped is unmapped, unless it is empty, and nothing is told. -/
theorem run_unmapLogged_bind {α : Type} {before : Logged σ} (next : Unit → Call (Logged σ) α)
    (haddr : kernel.pageSize ∣ addr) (hlen : kernel.pageSize ∣ len)
    (hsub : Set.Ico addr (addr + len) ⊆ mapped before.state) :
    (if len > 0 then kernel.unmapLogged addr len >>= next else next ()).run before =
      (next ()).run ⟨kernel.unmapped addr len before.state, before.log⟩ := by
  rw [unmapped]
  split
  · next hpos =>
      obtain ⟨after, hunmap, -⟩ := h.unmap hpos haddr hlen hsub
      rw [EStateM.run_bind, run_unmapLogged, hunmap]
  · rfl

section

variable {pieces : Pieces} {state : σ} (hpaged : kernel.Paged pieces)
  (hwhole : pieces.whole ⊆ mapped state)
include hpaged hwhole

omit h hpaged in
theorem head_subset_mapped :
    Set.Ico pieces.first (pieces.first + pieces.head) ⊆ mapped state := by
  refine Set.Subset.trans (Set.Ico_subset_Ico_right ?_) hwhole
  rw [Pieces.total]
  omega

/-- The pages before the part in the middle are unmapped first. -/
theorem mapped_unmapped_head :
    mapped (kernel.unmapped pieces.first pieces.head state) =
      mapped state \ Set.Ico pieces.first (pieces.first + pieces.head) :=
  h.mapped_unmapped hpaged.first hpaged.head (head_subset_mapped hwhole)

/-- The pages behind the part in the middle are still mapped when those before are not any more. -/
theorem tail_subset_mapped :
    Set.Ico pieces.stop (pieces.stop + pieces.tail) ⊆
      mapped (kernel.unmapped pieces.first pieces.head state) := by
  rw [h.mapped_unmapped_head hpaged hwhole]
  intro addr hmem
  simp only [Pieces.stop, Pieces.addr, Set.mem_Ico] at hmem
  refine ⟨hwhole ?_, ?_⟩
  · simp only [Pieces.whole, Pieces.total, Set.mem_Ico]
    omega
  · rw [Set.mem_Ico]
    omega

/-- Of a mapping that is trimmed, the part in the middle stays mapped. -/
theorem mapped_trimmed :
    mapped (kernel.trimmed pieces state) = mapped state \ pieces.whole ∪ pieces.kept := by
  rw [trimmed, h.mapped_unmapped hpaged.dvd_stop hpaged.tail (h.tail_subset_mapped hpaged hwhole),
    h.mapped_unmapped_head hpaged hwhole]
  ext addr
  have hmem := @hwhole addr
  simp only [Pieces.whole, Pieces.kept, Pieces.stop, Pieces.addr, Pieces.total, Set.mem_sdiff,
    Set.mem_union, Set.mem_Ico] at hmem ⊢
  grind

end

end Lawful

end Kernel

end BuddySystem
