import BuddySystem.Proofs.Kernel
import Mathlib.Data.List.MinMax

/-!
# Whole pages, exactly

On a lawful operating system a request for pages is refused for the reasons in `Kernel.Refuses`
only, and what stays mapped of one that is served is the pages of the slice (`Kernel.Serves`).
Giving the slice back unmaps these pages and no others, so that at any time just the pages of the
slices that are held are mapped in addition to those at the start. All this is
`Kernel.Lawful.trimsExactly`.

The mapping of a request falls into three pieces. Their lengths depend on the address of the
mapping, which is any multiple of the page size, and all of them are multiples of it as well.
-/

namespace BuddySystem

namespace Kernel

variable {σ : Type} (kernel : Kernel σ)

/-- The length of the pages that hold this many bytes. -/
def pagesLen (size : Nat) : Nat :=
  Word.roundUp size kernel.pageSize

/-- The number of bytes that are mapped for a request. -/
def mappedLen (size align : Nat) : Nat :=
  if align ≤ kernel.pageSize then kernel.pagesLen size else kernel.pagesLen size + align

/-- The call that maps what a request needs. -/
def place (size align : Nat) : Call (Logged σ) (Option Nat) :=
  if align ≤ kernel.pageSize then
    kernel.mapLogged (kernel.pagesLen size)
  else
    kernel.mapAligned (kernel.pagesLen size) align

/-- The addresses of the pages that a slice takes. -/
def range (slice : Slice) : Set Nat :=
  Set.Ico slice.addr (slice.addr + kernel.pagesLen slice.len)

/-- Why a request is refused. -/
def Refuses (size align : Nat) (state : σ) : Prop :=
  size = 0 ∨ (¬∃ k, align = 2 ^ k) ∨ Word.bound ≤ kernel.pagesLen size ∨
    (kernel.pageSize < align ∧ Word.bound ≤ kernel.pagesLen size + align) ∨
    (kernel.map (kernel.mappedLen size align) state).1 = none

/-- How a request is served: something is mapped, and all of it is unmapped again but for the
part in the middle. -/
structure Serves (mapped : σ → Set Nat) (size align : Nat) (pieces : Pieces) (before after : σ) :
    Prop where
  total_eq : pieces.total = kernel.mappedLen size align
  len_eq : pieces.len = kernel.pagesLen size
  /-- These are all the calls of the operating system. -/
  calls : ∃ between, kernel.map pieces.total before = (some pieces.first, between) ∧
    after = kernel.trimmed pieces between
  addr_ne_zero : pieces.addr ≠ 0
  align_dvd : align ∣ pieces.addr
  pageSize_dvd : kernel.pageSize ∣ pieces.addr
  paged : kernel.Paged pieces
  mapped_eq : mapped after = mapped before \ pieces.whole ∪ pieces.kept

variable {kernel} {mapped : σ → Set Nat} {addr len size align : Nat}

namespace Lawful

variable (h : kernel.Lawful mapped)
include h

theorem pagesLen_pos (hsize : size ≠ 0) : 0 < kernel.pagesLen size :=
  Nat.lt_of_lt_of_le (Nat.pos_of_ne_zero hsize) (Word.le_roundUp h.pageSize_pos)

theorem mappedLen_pos (hsize : size ≠ 0) (align : Nat) : 0 < kernel.mappedLen size align := by
  have hpos := h.pagesLen_pos hsize
  rw [mappedLen]
  split <;> omega

/-- A size is rounded up to whole pages if these are a word. -/
theorem roundUp?_pageSize (hsize : size ≠ 0) :
    Word.roundUp? size kernel.pageSize =
      if kernel.pagesLen size < Word.bound then some (kernel.pagesLen size) else none := by
  obtain ⟨k, hk⟩ := h.exists_pageSize
  rw [pagesLen, hk, Word.roundUp?_eq (Nat.pos_of_ne_zero hsize)]

/-- What has been cut out of a mapping of the right length serves the request. -/
theorem serves {pieces : Pieces} {before between : σ} (hsize : size ≠ 0)
    (hlen : pieces.len = kernel.pagesLen size) (htotal : pieces.total = kernel.mappedLen size align)
    (hmap : kernel.map pieces.total before = (some pieces.first, between))
    (hpaged : kernel.Paged pieces) (halign : align ∣ pieces.addr) :
    kernel.Serves mapped size align pieces before (kernel.trimmed pieces between) := by
  have hpos : 0 < pieces.total := htotal ▸ h.mappedLen_pos hsize align
  obtain ⟨hne, -, -, hmapped⟩ := h.map_some hpos hpaged.dvd_total hmap
  refine ⟨htotal, hlen, ⟨between, hmap, rfl⟩, ?_, halign, hpaged.dvd_addr, hpaged, ?_⟩
  · rw [Pieces.addr]
    omega
  · have hwhole : pieces.whole ⊆ mapped between := by
      rw [hmapped]
      exact Set.subset_union_right
    rw [h.mapped_trimmed hpaged hwhole, hmapped]
    exact congrArg (· ∪ pieces.kept) Set.union_sdiff_right

/-! ## Requests -/

/-- A mapping that is longer than needed by the alignment is cut around its first aligned part.
Neither finding this part nor computing what is left of the mapping overflows. -/
theorem run_mapAligned {first : Nat} {before : Logged σ} {between : σ}
    (halign : ∃ k, align = 2 ^ k) (hlt : kernel.pageSize < align) (hpos : 0 < len)
    (hlen : kernel.pageSize ∣ len) (hword : len + align < Word.bound)
    (hmap : kernel.map (len + align) before.state = (some first, between)) :
    (kernel.mapAligned len align).run before =
      .ok (some (Pieces.around first len align).addr)
        ⟨kernel.trimmed (Pieces.around first len align) between, before.log⟩ := by
  have hunit : 0 < align := Nat.zero_lt_of_lt hlt
  have hdvd := h.pageSize_dvd_align halign hlt
  obtain ⟨hne, hfirst, hstop, hmapped⟩ :=
    h.map_some (Nat.add_pos_left hpos align) (Nat.dvd_add hlen hdvd) hmap
  have hpaged := paged_around hdvd hfirst hlen
  have haddr := Pieces.addr_around hunit first len
  have htotal := Pieces.total_around hunit first len
  generalize hpieces : Pieces.around first len align = pieces at *
  obtain rfl : pieces.first = first := hpieces ▸ rfl
  obtain rfl : pieces.len = len := hpieces ▸ rfl
  have hwhole : pieces.whole ⊆ mapped between := by
    rw [hmapped, ← htotal]
    exact Set.subset_union_right
  have hadd : Word.add? pieces.len align = some pieces.total := by
    rw [htotal]
    exact if_pos hword
  have hround : Word.roundUp? pieces.first align = some pieces.addr := by
    rw [haddr]
    exact if_pos (by omega)
  have hhead : Word.sub pieces.addr pieces.first = .ok pieces.head :=
    Word.sub_add_left pieces.first pieces.head
  have htail : (do Word.sub (← Word.sub pieces.total pieces.head) pieces.len : Checked Nat) =
      .ok pieces.tail := by
    rw [Pieces.total, Nat.add_assoc, Word.sub_add_left]
    exact Word.sub_add_left pieces.len pieces.tail
  have hlast : pieces.addr + pieces.len = pieces.stop := rfl
  rw [mapAligned, hadd]
  simp only [EStateM.run_bind, run_mapLogged, htotal, hmap, if_neg hne, hround, hhead,
    Call.run_ofChecked_ok]
  simp only [← htotal, htail, Call.run_ofChecked_ok]
  rw [h.run_unmapLogged_bind _ hpaged.first hpaged.head (head_subset_mapped hwhole), hlast,
    h.run_unmapLogged_bind _ hpaged.dvd_stop hpaged.tail]
  · rfl
  · exact h.tail_subset_mapped hpaged hwhole

/-- What a request needs is mapped, and what it does not need is unmapped again. -/
theorem run_place {first : Nat} {before : Logged σ} {between : σ} (hsize : size ≠ 0)
    (halign : ∃ k, align = 2 ^ k) (hword : kernel.mappedLen size align < Word.bound)
    (hmap : kernel.map (kernel.mappedLen size align) before.state = (some first, between)) :
    ∃ pieces : Pieces,
      (kernel.place size align).run before =
        .ok (some pieces.addr) ⟨kernel.trimmed pieces between, before.log⟩ ∧
      kernel.Serves mapped size align pieces before.state (kernel.trimmed pieces between) := by
  have hpos := h.pagesLen_pos hsize
  have hlen : kernel.pageSize ∣ kernel.pagesLen size := Word.dvd_roundUp size _
  by_cases hle : align ≤ kernel.pageSize
  · have htotal : kernel.mappedLen size align = kernel.pagesLen size := if_pos hle
    rw [htotal] at hmap
    obtain ⟨hne, hfirst, -⟩ := h.map_some hpos hlen hmap
    let pieces : Pieces := ⟨first, 0, kernel.pagesLen size, 0⟩
    have hpieces : pieces.total = kernel.pagesLen size := by
      simp only [Pieces.total, pieces]
      omega
    have hpaged : kernel.Paged pieces := ⟨hfirst, Nat.dvd_zero _, hlen, Nat.dvd_zero _⟩
    have halign : align ∣ pieces.addr := (h.align_dvd_pageSize halign hle).trans hfirst
    refine ⟨pieces, ?_, h.serves hsize rfl (hpieces.trans htotal.symm) ?_ hpaged halign⟩
    · rw [place, if_pos hle, run_mapLogged, hmap]
      exact congrArg (EStateM.Result.ok · _) (if_neg hne)
    · rw [hpieces]
      exact hmap
  · have htotal : kernel.mappedLen size align = kernel.pagesLen size + align := if_neg hle
    rw [htotal] at hword hmap
    have hlt := Nat.lt_of_not_le hle
    have hunit : 0 < align := Nat.zero_lt_of_lt hlt
    have hdvd := h.pageSize_dvd_align halign hlt
    have hfirst := (h.map_some (Nat.add_pos_left hpos align) (Nat.dvd_add hlen hdvd) hmap).2.1
    have hpieces := Pieces.total_around hunit first (kernel.pagesLen size)
    refine ⟨Pieces.around first (kernel.pagesLen size) align, ?_,
      h.serves hsize rfl (hpieces.trans htotal.symm) ?_ (paged_around hdvd hfirst hlen) ?_⟩
    · rw [place, if_neg hle]
      exact h.run_mapAligned halign hlt hpos hlen hword hmap
    · rw [hpieces]
      exact hmap
    · rw [Pieces.addr_around hunit]
      exact Word.dvd_roundUp first align

omit h in
/-- Nothing comes of a mapping that fails. -/
theorem run_place_of_none {before : Logged σ} {between : σ}
    (hword : kernel.mappedLen size align < Word.bound)
    (hmap : kernel.map (kernel.mappedLen size align) before.state = (none, between)) :
    (kernel.place size align).run before =
      .ok none ⟨between, before.log ++ [.mapFailed (kernel.mappedLen size align)]⟩ := by
  by_cases hle : align ≤ kernel.pageSize
  · have htotal : kernel.mappedLen size align = kernel.pagesLen size := if_pos hle
    rw [htotal] at hmap ⊢
    rw [place, if_pos hle, run_mapLogged, hmap]
  · have htotal : kernel.mappedLen size align = kernel.pagesLen size + align := if_neg hle
    rw [htotal] at hword hmap ⊢
    have hadd : Word.add? (kernel.pagesLen size) align = some (kernel.pagesLen size + align) :=
      if_pos hword
    rw [place, if_neg hle, mapAligned, hadd]
    simp only [EStateM.run_bind, run_mapLogged, hmap]
    rfl

omit h in
/-- Nothing is mapped for an alignment that is too large. -/
theorem run_place_of_overflow {before : Logged σ} (hlt : kernel.pageSize < align)
    (hover : Word.bound ≤ kernel.pagesLen size + align) :
    (kernel.place size align).run before = .ok none before := by
  have hadd : Word.add? (kernel.pagesLen size) align = none := if_neg (Nat.not_lt.2 hover)
  rw [place, if_neg (Nat.not_le.2 hlt), mapAligned, hadd]
  rfl

/-- A request with a size and an alignment comes to what is mapped for it, unless the pages are too
many. -/
theorem allocate_eq (hsize : size ≠ 0) (halign : ∃ k, align = 2 ^ k) :
    kernel.pages.allocate size align =
      if kernel.pagesLen size < Word.bound then do
        return (← kernel.place size align).map (⟨·, size⟩)
      else
        return none := by
  have hform : ¬(size = 0 || !Word.isPowerOfTwo align) := by
    simp [hsize, Word.isPowerOfTwo_iff.2 halign]
  rw [pages, place]
  simp only [if_neg hform, h.roundUp?_pageSize hsize]
  by_cases hword : kernel.pagesLen size < Word.bound
  · simp only [if_pos hword]
    split <;> rfl
  · simp only [if_neg hword]

/-- A request is granted at the address that is found for it, if there is one. -/
theorem run_allocate {before after : Logged σ} {found : Option Nat} (hsize : size ≠ 0)
    (halign : ∃ k, align = 2 ^ k) (hword : kernel.pagesLen size < Word.bound)
    (hplace : (kernel.place size align).run before = .ok found after) :
    (kernel.pages.allocate size align).run before = .ok (found.map (⟨·, size⟩)) after := by
  rw [h.allocate_eq hsize halign, if_pos hword, EStateM.run_bind, hplace]
  rfl

/-- A request is refused with nothing mapped, or it is served. -/
theorem allocate_cases (size align : Nat) (before : Logged σ) :
    (kernel.Refuses size align before.state ∧ ∃ after,
      (kernel.pages.allocate size align).run before = .ok none after ∧
      mapped after.state = mapped before.state) ∨
    (¬kernel.Refuses size align before.state ∧ ∃ pieces after,
      (kernel.pages.allocate size align).run before =
        .ok (some ⟨pieces.addr, size⟩) ⟨after, before.log⟩ ∧
      kernel.Serves mapped size align pieces before.state after) := by
  by_cases hform : size = 0 ∨ ¬∃ k, align = 2 ^ k
  · have hbad : size = 0 || !Word.isPowerOfTwo align := by
      rw [← Word.isPowerOfTwo_iff] at hform
      simpa using hform
    refine .inl ⟨by tauto, before, ?_, rfl⟩
    rw [pages]
    exact congrArg (EStateM.run · before) (if_pos hbad)
  · obtain ⟨hsize, halign⟩ := not_or.1 hform
    rw [not_not] at halign
    by_cases hword : kernel.pagesLen size < Word.bound
    · by_cases hover : kernel.pageSize < align ∧ Word.bound ≤ kernel.pagesLen size + align
      · have hplace : (kernel.place size align).run before = .ok none before :=
          run_place_of_overflow hover.1 hover.2
        have hrun := h.run_allocate hsize halign hword hplace
        exact .inl ⟨.inr (.inr (.inr (.inl hover))), before, hrun, rfl⟩
      · have htotal : kernel.mappedLen size align < Word.bound := by
          rw [mappedLen]
          split <;> omega
        rcases hmap : kernel.map (kernel.mappedLen size align) before.state with
          ⟨_ | first, between⟩
        · have hrun := h.run_allocate hsize halign hword (run_place_of_none htotal hmap)
          refine .inl ⟨.inr (.inr (.inr (.inr ?_))), _, hrun, h.map_none hmap⟩
          rw [hmap]
        · obtain ⟨pieces, hplace, hserves⟩ := h.run_place hsize halign htotal hmap
          refine .inr ⟨?_, pieces, _, h.run_allocate hsize halign hword hplace, hserves⟩
          rintro (hzero | hpower | hlen | hsum | hnone)
          · exact hsize hzero
          · exact hpower halign
          · omega
          · exact hover hsum
          · rw [hmap] at hnone
            cases hnone
    · refine .inl ⟨.inr (.inr (.inl (Nat.not_lt.1 hword))), before, ?_, rfl⟩
      rw [h.allocate_eq hsize halign, if_neg hword]
      rfl

/-! ## Giving back -/

/-- The pages of a slice are unmapped, and nothing is told. -/
theorem run_deallocate {addr size : Nat} (align : Nat) {before : Logged σ} (hsize : size ≠ 0)
    (hword : kernel.pagesLen size < Word.bound) (haddr : kernel.pageSize ∣ addr)
    (hsub : kernel.range ⟨addr, size⟩ ⊆ mapped before.state) :
    (kernel.pages.deallocate addr size align).run before =
      .ok () ⟨(kernel.unmap addr (kernel.pagesLen size) before.state).2, before.log⟩ ∧
    mapped (kernel.unmap addr (kernel.pagesLen size) before.state).2 =
      mapped before.state \ kernel.range ⟨addr, size⟩ := by
  obtain ⟨after, hunmap, hmapped⟩ :=
    h.unmap (h.pagesLen_pos hsize) haddr (Word.dvd_roundUp size _) hsub
  refine ⟨?_, ?_⟩
  · rw [pages]
    simp only [h.roundUp?_pageSize hsize, if_pos hword]
    rw [run_unmapLogged, hunmap]
  · rw [hunmap]
    exact hmapped

/-- A request that is refused leaves mapped what was mapped. -/
theorem mapped_of_refused {before after : Logged σ}
    (hrun : (kernel.pages.allocate size align).run before = .ok none after) :
    mapped after.state = mapped before.state := by
  rcases h.allocate_cases size align before with ⟨-, _, hnone, hsame⟩ | ⟨-, _, _, hsome, -⟩
  · cases hnone.symm.trans hrun
    exact hsame
  · cases hsome.symm.trans hrun

/-- What is granted was not refused, and is what is left of a mapping. -/
theorem of_granted {slice : Slice} {before after : Logged σ}
    (hrun : (kernel.pages.allocate size align).run before = .ok (some slice) after) :
    ¬kernel.Refuses size align before.state ∧ ∃ pieces, slice = ⟨pieces.addr, size⟩ ∧
      kernel.Serves mapped size align pieces before.state after.state := by
  rcases h.allocate_cases size align before with
    ⟨-, _, hnone, -⟩ | ⟨hnot, pieces, _, hsome, hserves⟩
  · cases hnone.symm.trans hrun
  · cases hsome.symm.trans hrun
    exact ⟨hnot, pieces, rfl, hserves⟩

end Lawful

/-! ## Slices that are held -/

variable (kernel) in
/-- Which slices are held after some requests have been served, and some of what was granted has
been given back, with the size that was asked for. -/
inductive Reached (start : Logged σ) : List Slice → Logged σ → Prop
  | start : Reached start [] start
  | refused {held : List Slice} {before after : Logged σ} {size align : Nat} :
      Reached start held before →
      (kernel.pages.allocate size align).run before = .ok none after → Reached start held after
  | served {held : List Slice} {slice : Slice} {before after : Logged σ} {size align : Nat} :
      Reached start held before →
      (kernel.pages.allocate size align).run before = .ok (some slice) after →
      Reached start (slice :: held) after
  | returned {held rest : List Slice} {slice : Slice} {before after : Logged σ} {align : Nat} :
      Reached start held before → held.Perm (slice :: rest) →
      (kernel.pages.deallocate slice.addr slice.len align).run before = .ok () after →
      Reached start rest after

variable (kernel) in
/-- The addresses of the pages of some slices. -/
def ranges (held : List Slice) : Set Nat :=
  ⋃ slice ∈ held, kernel.range slice

theorem ranges_nil : kernel.ranges [] = ∅ := by
  simp [ranges]

theorem ranges_cons (slice : Slice) (rest : List Slice) :
    kernel.ranges (slice :: rest) = kernel.range slice ∪ kernel.ranges rest := by
  simp [ranges, Set.iUnion_or, Set.iUnion_union_distrib]

theorem disjoint_ranges_iff {addrs : Set Nat} {held : List Slice} :
    Disjoint addrs (kernel.ranges held) ↔
      ∀ slice ∈ held, Disjoint addrs (kernel.range slice) := by
  simp only [ranges, Set.disjoint_iUnion_right]

theorem ranges_congr {held other : List Slice} (h : held.Perm other) :
    kernel.ranges held = kernel.ranges other := by
  simp only [ranges, h.mem_iff]

variable (kernel mapped) in
/-- What is mapped in a state is what was mapped at the start and the pages of the slices that are
held. None of these share an address. -/
structure Holds (start : Set Nat) (held : List Slice) (state : σ) : Prop where
  /-- The slices can be given back. -/
  returnable : ∀ slice ∈ held, slice.len ≠ 0 ∧ kernel.pagesLen slice.len < Word.bound ∧
    kernel.pageSize ∣ slice.addr
  apart : held.Pairwise fun slice other => Disjoint (kernel.range slice) (kernel.range other)
  spare : Disjoint start (kernel.ranges held)
  mapped_eq : mapped state = start ∪ kernel.ranges held

/-- What is kept of the mapping is the pages of the slice. -/
theorem Serves.range_eq {pieces : Pieces} {before after : σ}
    (hserves : kernel.Serves mapped size align pieces before after) :
    kernel.range ⟨pieces.addr, size⟩ = pieces.kept := by
  rw [range, Pieces.kept, Pieces.stop, hserves.len_eq]

namespace Holds

variable {start : Set Nat} {held rest : List Slice} {slice : Slice} {before after : σ}

theorem perm (h : kernel.Holds mapped start held before) (hperm : held.Perm rest) :
    kernel.Holds mapped start rest before where
  returnable slice hmem := h.returnable slice (hperm.mem_iff.2 hmem)
  apart := (hperm.pairwise_iff fun hdisjoint => hdisjoint.symm).1 h.apart
  spare := ranges_congr hperm ▸ h.spare
  mapped_eq := ranges_congr hperm ▸ h.mapped_eq

/-- A slice that is granted is held with the others, apart from them. -/
theorem served {pieces : Pieces} (h : kernel.Holds mapped start held before)
    (hlawful : kernel.Lawful mapped) (hfresh : kernel.Fresh mapped)
    (hnot : ¬kernel.Refuses size align before)
    (hserves : kernel.Serves mapped size align pieces before after) :
    kernel.Holds mapped start (⟨pieces.addr, size⟩ :: held) after := by
  simp only [Refuses, not_or] at hnot
  obtain ⟨hsize, -, hword, -⟩ := hnot
  obtain ⟨between, hmap, -⟩ := hserves.calls
  have hpos : 0 < pieces.total := hserves.total_eq ▸ hlawful.mappedLen_pos hsize align
  have hwhole : Disjoint (mapped before) pieces.whole :=
    hfresh hpos hserves.paged.dvd_total hmap
  have hkept : Disjoint (start ∪ kernel.ranges held) (kernel.range ⟨pieces.addr, size⟩) := by
    rw [← h.mapped_eq, hserves.range_eq]
    exact hwhole.mono_right pieces.kept_subset_whole
  rw [Set.disjoint_union_left] at hkept
  refine ⟨?_, ?_, ?_, ?_⟩
  · exact List.forall_mem_cons.2 ⟨⟨hsize, Nat.lt_of_not_le hword, hserves.pageSize_dvd⟩,
      h.returnable⟩
  · exact List.pairwise_cons.2 ⟨disjoint_ranges_iff.1 hkept.2.symm, h.apart⟩
  · rw [ranges_cons, Set.disjoint_union_right]
    exact ⟨hkept.1, h.spare⟩
  · rw [hserves.mapped_eq, hwhole.sdiff_eq_left, h.mapped_eq, ranges_cons, hserves.range_eq,
      Set.union_assoc, Set.union_comm (kernel.ranges held)]

/-- The other slices are still held when one is given back. -/
theorem returned (h : kernel.Holds mapped start (slice :: rest) before)
    (hmapped : mapped after = mapped before \ kernel.range slice) :
    kernel.Holds mapped start rest after := by
  obtain ⟨hslice, hapart⟩ := List.pairwise_cons.1 h.apart
  have hspare := h.spare
  rw [ranges_cons, Set.disjoint_union_right] at hspare
  refine ⟨fun other hmem => h.returnable other (.tail _ hmem), hapart, hspare.2, ?_⟩
  have hothers : Disjoint (start ∪ kernel.ranges rest) (kernel.range slice) := by
    rw [Set.disjoint_union_left]
    exact ⟨hspare.1, (disjoint_ranges_iff.2 hslice).symm⟩
  rw [hmapped, h.mapped_eq, ranges_cons, Set.union_left_comm, Set.union_sdiff_left,
    hothers.sdiff_eq_left]

end Holds

/-- What is mapped is accounted for by what is held. -/
theorem Lawful.holds_of_reached (h : kernel.Lawful mapped) (hfresh : kernel.Fresh mapped)
    {start state : Logged σ} {held : List Slice} (hreached : kernel.Reached start held state) :
    kernel.Holds mapped (mapped start.state) held state.state := by
  induction hreached with
  | start =>
      refine ⟨by simp, .nil, ?_, ?_⟩
      · rw [ranges_nil]
        exact Set.disjoint_empty _
      · rw [ranges_nil, Set.union_empty]
  | refused _ hrun ih =>
      exact { ih with mapped_eq := (h.mapped_of_refused hrun).trans ih.mapped_eq }
  | served _ hrun ih =>
      obtain ⟨hnot, pieces, rfl, hserves⟩ := h.of_granted hrun
      exact ih.served h hfresh hnot hserves
  | @returned held rest slice before after align _ hperm hrun ih =>
      have hholds := ih.perm hperm
      obtain ⟨hsize, hword, haddr⟩ := hholds.returnable slice (.head _)
      have hsub : kernel.range slice ⊆ mapped before.state := by
        rw [hholds.mapped_eq, ranges_cons]
        exact Set.subset_union_of_subset_right Set.subset_union_left _
      obtain ⟨hreturned, hmapped⟩ := h.run_deallocate align hsize hword haddr hsub
      cases hreturned.symm.trans hrun
      exact hholds.returned hmapped

/-- A provider of whole pages maps and unmaps exactly what it should. -/
structure TrimsExactly (kernel : Kernel σ) (mapped : σ → Set Nat) : Prop where
  refused_iff : ∀ size align (before : Logged σ),
    (∃ after, (kernel.pages.allocate size align).run before = .ok none after) ↔
      kernel.Refuses size align before.state
  /-- A refusal leaves nothing mapped. -/
  refused : ∀ size align (before after : Logged σ),
    (kernel.pages.allocate size align).run before = .ok none after →
    mapped after.state = mapped before.state
  /-- Every other request is served. Of what is mapped for it, the pages of the slice stay. -/
  served : ∀ size align (before : Logged σ), ¬kernel.Refuses size align before.state →
    ∃ pieces after, (kernel.pages.allocate size align).run before =
        .ok (some ⟨pieces.addr, size⟩) ⟨after, before.log⟩ ∧
      kernel.range ⟨pieces.addr, size⟩ = pieces.kept ∧
      kernel.Serves mapped size align pieces before.state after
  /-- Giving a slice back unmaps its pages and nothing else, whatever has happened since. -/
  returned : ∀ size align (before after : Logged σ) slice,
    (kernel.pages.allocate size align).run before = .ok (some slice) after →
    ∀ later : Logged σ, kernel.range slice ⊆ mapped later.state →
      ∃ last, (kernel.pages.deallocate slice.addr size align).run later =
          .ok () ⟨last, later.log⟩ ∧
        last = (kernel.unmap slice.addr (kernel.pagesLen size) later.state).2 ∧
        mapped last = mapped later.state \ kernel.range slice
  /-- Nothing leaks: at any time just the pages of the slices that are held are mapped in addition
  to what was. -/
  held : kernel.Fresh mapped → ∀ (start : Logged σ) slices state,
    kernel.Reached start slices state → kernel.Holds mapped (mapped start.state) slices state.state

/-- On a lawful operating system a provider of whole pages maps and unmaps exactly what it should,
whatever is asked for. -/
theorem Lawful.trimsExactly (h : kernel.Lawful mapped) : kernel.TrimsExactly mapped where
  refused_iff size align before := by
    rcases h.allocate_cases size align before with
      ⟨hrefuses, after, hrun, -⟩ | ⟨hnot, pieces, after, hrun, -⟩
    · exact ⟨fun _ => hrefuses, fun _ => ⟨after, hrun⟩⟩
    · refine ⟨fun hnone => ?_, fun hrefuses => absurd hrefuses hnot⟩
      obtain ⟨_, hnone⟩ := hnone
      cases hnone.symm.trans hrun
  refused _ _ _ _ := h.mapped_of_refused
  served size align before hnot := by
    rcases h.allocate_cases size align before with ⟨hrefuses, -⟩ | ⟨-, pieces, after, hrun, hserves⟩
    · exact absurd hrefuses hnot
    · exact ⟨pieces, after, hrun, hserves.range_eq, hserves⟩
  returned size align before after slice hrun later hsub := by
    obtain ⟨hnot, pieces, rfl, hserves⟩ := h.of_granted hrun
    simp only [Refuses, not_or] at hnot
    obtain ⟨hsize, -, hword, -⟩ := hnot
    have hreturned :=
      h.run_deallocate align hsize (Nat.lt_of_not_le hword) hserves.pageSize_dvd hsub
    exact ⟨_, hreturned.1, rfl, hreturned.2⟩
  held hfresh _ _ _ := h.holds_of_reached hfresh

end Kernel

/-! ## A table of pages -/

namespace PageTable

/-- An operating system with pages of 4096 bytes whose state is the numbers of the pages that are
mapped. It maps pages behind all of these, among the addresses of 47 bits. -/
def kernel : Kernel (List Nat) where
  pageSize := 4096
  map len pages :=
    let first := pages.foldr max 0 + 1
    let count := len / 4096
    if count = 0 ∨ first + count > 2 ^ 35 then
      (none, pages)
    else
      (some (first * 4096), List.range' first count ++ pages)
  unmap addr len pages :=
    (true, pages.filter fun page => page < addr / 4096 ∨ (addr + len) / 4096 ≤ page)

/-- The addresses of the pages in the table. -/
def mapped (pages : List Nat) : Set Nat :=
  { addr | addr / 4096 ∈ pages }

/-- The pages of a mapping lie behind all that are mapped. -/
theorem map_eq_some {len addr : Nat} {before after : List Nat}
    (h : kernel.map len before = (some addr, after)) :
    ∃ first, addr = first * 4096 ∧ after = List.range' first (len / 4096) ++ before ∧
      (∀ page ∈ before, page < first) ∧ 0 < first ∧ first + len / 4096 ≤ 2 ^ 35 := by
  simp only [kernel] at h
  split at h
  · cases h
  · next hroom =>
      cases h
      refine ⟨_, rfl, rfl, fun page hmem => ?_, ?_, ?_⟩
      · exact Nat.lt_succ_of_le (List.le_max_of_le' 0 hmem le_rfl)
      · omega
      · omega

/-- An address lies in a range of whole pages exactly if its page does. -/
theorem mem_Ico_iff {first len addr : Nat} (h : 4096 ∣ len) :
    addr ∈ Set.Ico (first * 4096) (first * 4096 + len) ↔
      first ≤ addr / 4096 ∧ addr / 4096 < first + len / 4096 := by
  rw [Set.mem_Ico]
  omega

/-- The table of pages is a lawful operating system. -/
theorem lawful : kernel.Lawful mapped where
  exists_pageSize := ⟨12, rfl⟩
  map_none {len before after} hmap := by
    simp only [kernel] at hmap
    split at hmap
    · cases hmap
      rfl
    · cases hmap
  map_some {len addr before after} _ hdvd hmap := by
    obtain ⟨first, rfl, rfl, -, hpos, hlast⟩ := map_eq_some hmap
    change 4096 ∣ len at hdvd
    refine ⟨by omega, Nat.dvd_mul_left _ _, ?_, ?_⟩
    · rw [Word.bound]
      omega
    · ext addr
      rw [Set.mem_union, mem_Ico_iff hdvd, mapped, Set.mem_ofPred, List.mem_append,
        List.mem_range'_1, or_comm]
      rfl
  unmap {addr len before} _ haddr hdvd _ := by
    obtain ⟨first, rfl⟩ := haddr
    change 4096 ∣ len at hdvd
    refine ⟨_, rfl, ?_⟩
    ext addr
    have hfirst : kernel.pageSize * first = first * 4096 := Nat.mul_comm _ _
    rw [hfirst, Set.mem_sdiff, mem_Ico_iff hdvd, mapped, Set.mem_ofPred, List.mem_filter]
    simp only [decide_eq_true_eq]
    refine and_congr_right fun _ => ?_
    omega

/-- The table of pages maps only addresses that are not mapped yet. -/
theorem fresh : kernel.Fresh mapped := by
  intro len addr before after _ hdvd hmap
  obtain ⟨first, rfl, -, hbehind, -⟩ := map_eq_some hmap
  rw [Set.disjoint_left]
  intro addr hmem hnew
  have hlt := hbehind _ hmem
  have hle := ((mem_Ico_iff hdvd).1 hnew).1
  omega

/-- From a table with one page: of six pages that are mapped for a request of two aligned to four
pages, the first three and the last one are unmapped again, and the others when they are given
back. -/
theorem trims_overAligned :
    kernel.TrimsExactly mapped ∧ kernel.Fresh mapped ∧
      outcomeOf ((kernel.pages.allocate 5000 16384).run ⟨[4], []⟩) = .ok (some ⟨32768, 5000⟩) ∧
      (stateOf ((kernel.pages.allocate 5000 16384).run ⟨[4], []⟩)).state = [8, 9, 4] ∧
      (stateOf ((kernel.pages.deallocate 32768 5000 16384).run ⟨[8, 9, 4], []⟩)).state = [4] :=
  ⟨lawful.trimsExactly, fresh, by decide +kernel, by decide +kernel, by decide +kernel⟩

end PageTable

end BuddySystem
