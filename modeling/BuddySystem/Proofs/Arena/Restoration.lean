import BuddySystem.Proofs.Arena.Accounting
import BuddySystem.Proofs.Arena.Canonical

/-!
# Undoing and starting over

An arena is determined by the ledger that it keeps, down to the links that are not used
(`Keeps.unique`), so whatever restores the ledger restores the arena. Giving memory back right after
it was handed out does so (`restored_run`): the back halves that were split off are merged again one
by one, and the block goes back to the front of the list that it was taken from. An arena of which
nothing is live is the one that was set up, whatever has happened in between
(`renewed_run`).
-/

namespace BuddySystem

open Occupancy Arena

namespace Arena

variable {config : Config} {start left right arena : Arena config} {ledger : Ledger}

/-- Arenas over the same memory that keep the same ledger are the same. -/
theorem Keeps.unique (hleft : left.Keeps start ledger) (hright : right.Keeps start ledger) :
    left = right := by
  have hnodes : left.nodes = right.nodes := hleft.nodes_eq hright rfl
  have hfree : left.free = right.free :=
    hleft.shows_ledger.lists.unique hright.shows_ledger.lists
  have hspan : left.span = right.span :=
    hleft.shows_ledger.span.trans hright.shows_ledger.span.symm
  have hregion : left.region = right.region :=
    hleft.shows_ledger.region.trans hright.shows_ledger.region.symm
  cases left
  cases right
  rw [Arena.mk.injEq]
  exact ⟨hspan, hregion, hnodes, hfree⟩

/-- Memory that is given back right after it was handed out leaves the arena as it was before. -/
theorem Keeps.run_deallocate_served (h : arena.Keeps start ledger) {size align size' align' : Nat}
    {slice : Slice} {served : Arena config}
    (hserved : (allocate size align).run arena = .ok (.ok slice) served)
    (hsame : config.order? size' align' = config.order? size align) :
    (deallocate slice.addr size' align').run served = .ok (.ok ()) arena := by
  rcases h.allocate_cases size align with
    ⟨refusal, hrefused, -⟩ | ⟨target, leaf, rest, after, horder, hfound, hrun, hafter⟩
  · cases hrefused.symm.trans hserved
  · cases hrun.symm.trans hserved
    have hmem : ⟨leaf, target⟩ ∈ rest.live := by
      rw [(h.balanced.of_allocate hfound).1]
      exact Finset.mem_insert_self _ _
    obtain ⟨freed, hrun, hfreed⟩ := hafter.run_deallocate_of_mem hmem (hsame.trans horder)
    rw [h.balanced.deallocate_allocate hfound] at hfreed
    rw [hrun, hfreed.unique h]

/-- An arena of which nothing is live keeps the idle ledger. -/
theorem Keeps.eq_of_live_eq_empty (hstart : start.Keeps start (Ledger.idle config.maxOrder))
    (h : arena.Keeps start ledger) (hlive : ledger.live = ∅) : arena = start := by
  have hbalanced := h.balanced
  rw [hlive] at hbalanced
  have hledger : ledger = Ledger.idle config.maxOrder := by
    obtain ⟨live, free⟩ := ledger
    obtain rfl : live = ∅ := hlive
    obtain rfl : free = (Ledger.idle config.maxOrder).free := hbalanced.free_of_idle
    rfl
  rw [hledger] at h
  exact h.unique hstart

/-- An arena of which nothing is live serves a request for all of it. -/
theorem Keeps.run_allocate_capacity (h : arena.Keeps start ledger) (hlive : ledger.live = ∅)
    {align : Nat} (hpower : Word.isPowerOfTwo align) (halign : align ≤ config.capacity) :
    ∃ after, (allocate config.capacity align).run arena =
      .ok (.ok ⟨start.span.addr, config.capacity⟩) after := by
  have huntouched : ¬Touched ledger.live (Node.root config.maxOrder) := by
    rw [hlive]
    exact not_touched_empty
  obtain ⟨leaf, rest, after, hserved, hrun⟩ := h.run_allocate_of_not_touched
    (Node.root_inTree config.maxOrder) huntouched (config.order?_capacity hpower halign)
  -- The whole arena starts at its first leaf.
  have hnode := (h.balanced.of_allocate hserved).2.1
  obtain rfl : leaf = 0 :=
    congrArg Node.leaf (hnode.inside_root.eq_of_order_le (Nat.le_refl config.maxOrder))
  rw [Nat.zero_mul, Nat.add_zero] at hrun
  exact ⟨after, hrun⟩

end Arena

variable {config : Config} {σ : Type} {provider : Provider σ} {before after : σ}
  {start : Arena config}

/-- In every state that an arena reaches, memory that was just handed out can be given back by every
size and alignment that have its order. This restores the state, so that the same request is served
with the same memory again. -/
theorem restored_run (h : (build config provider).run before = .ok (.ok start) after)
    (uses : List Use) {size align size' align' : Nat} {slice : Slice} {served : Arena config}
    (hserved : (allocate size align).run (Occupied.run start uses).arena = .ok (.ok slice) served)
    (hsame : config.order? size' align' = config.order? size align) :
    ∃ restored, (deallocate slice.addr size' align').run served = .ok (.ok ()) restored ∧
      restored = (Occupied.run start uses).arena ∧
      (allocate size align).run restored = .ok (.ok slice) served :=
  ⟨_, (keeps_run h uses).run_deallocate_served hserved hsame, rfl, hserved⟩

/-- A block of a small arena is given back with another request of its order. -/
theorem restored_run_small :
    ∃ start after slice served,
      (build Config.small Host.heap).run Host.fresh = .ok (.ok start) after ∧
      (allocate 9 4).run (Occupied.run start [.allocate 16 16, .allocate 17 4]).arena =
        .ok (.ok slice) served ∧
      Config.small.order? 16 1 = Config.small.order? 9 4 ∧
      ∃ restored, (deallocate slice.addr 16 1).run served = .ok (.ok ()) restored ∧
        restored = (Occupied.run start [.allocate 16 16, .allocate 17 4]).arena ∧
        (allocate 9 4).run restored = .ok (.ok slice) served := by
  obtain ⟨start, after, h⟩ := exists_build_small
  have hsame : Config.small.order? 16 1 = Config.small.order? 9 4 := by decide +kernel
  obtain ⟨slice, served, hserved⟩ : ∃ slice served,
      (allocate 9 4).run (Occupied.run start [.allocate 16 16, .allocate 17 4]).arena =
        .ok (.ok slice) served := by
    have hok : (match (allocate 9 4).run
        (Occupied.run start [.allocate 16 16, .allocate 17 4]).arena with
      | .ok (.ok _) _ => true
      | _ => false) = true := by
      cases h
      decide +kernel
    split at hok
    · next slice served hserved => exact ⟨slice, served, hserved⟩
    · cases hok
  exact ⟨start, after, slice, served, h, hserved, hsame, restored_run h _ hserved hsame⟩

/-- An arena says that it is idle exactly if nothing is live, and then it is the arena that was set
up. It comes to that when every live block is given back, in any order and whatever else is given
back or rejected on the way, and it serves a request for all of it again. -/
theorem renewed_run (h : (build config provider).run before = .ok (.ok start) after)
    (uses : List Use) :
    (∃ idle, (Occupied.run start uses).arena.isIdle = .ok idle ∧
      (idle = true ↔ (Occupied.run start uses).live = ∅)) ∧
    ((Occupied.run start uses).live = ∅ → (Occupied.run start uses).arena = start) ∧
    (∀ frees : List Use, (∀ use ∈ frees, use.IsDeallocation) →
      (∀ block ∈ (Occupied.run start uses).live,
        ∃ use ∈ frees, use.Frees config start.span.addr block) →
      (Occupied.run start (uses ++ frees)).arena = start) ∧
    ∀ align, Word.isPowerOfTwo align → align ≤ config.capacity →
      ∃ served, (allocate config.capacity align).run start =
        .ok (.ok ⟨start.span.addr, config.capacity⟩) served := by
  have hstart := keeps_of_build h
  have hkeeps := keeps_run h uses
  refine ⟨⟨_, hkeeps.isIdle_eq, decide_eq_true_iff⟩, fun hlive => ?_,
    fun frees hfrees hall => ?_, fun align hpower halign => ?_⟩
  · exact hstart.eq_of_live_eq_empty hkeeps hlive
  · have hnone : (Occupied.run start (uses ++ frees)).live = ∅ := by
      rw [Finset.eq_empty_iff_forall_notMem]
      intro block hmem
      rw [Occupied.run, List.foldl_append] at hmem
      obtain ⟨hmem, hkept⟩ := (Occupied.mem_live_foldl hkeeps hfrees block).1 hmem
      obtain ⟨use, huse, hfrees⟩ := hall block hmem
      exact hkept use huse hfrees
    exact hstart.eq_of_live_eq_empty (keeps_run h _) hnone
  · exact hstart.run_allocate_capacity rfl hpower halign

/-- Two blocks of a small arena are given back the other way around, and a rejection in between. -/
theorem renewed_run_small :
    ∃ start after, (build Config.small Host.heap).run Host.fresh = .ok (.ok start) after ∧
      (Occupied.run start [.allocate 16 16, .allocate 17 4]).live = {⟨0, 0⟩, ⟨2, 1⟩} ∧
      (Occupied.run start ([.allocate 16 16, .allocate 17 4] ++
        [.deallocate (start.span.addr + 32) 17 4, .deallocate 3 1 1,
          .deallocate start.span.addr 1 16])).arena = start := by
  obtain ⟨start, after, h⟩ := exists_build_small
  have hlive : (Occupied.run start [.allocate 16 16, .allocate 17 4]).live =
      {⟨0, 0⟩, ⟨2, 1⟩} := by
    cases h
    decide +kernel
  have hfront : Config.small.order? 1 16 = some 0 := by decide +kernel
  have hback : Config.small.order? 17 4 = some 1 := by decide +kernel
  have hsize : Config.small.blockSize = 16 := rfl
  refine ⟨start, after, h, hlive, (renewed_run h _).2.2.1 _ ?_ ?_⟩
  · simp [Use.IsDeallocation]
  · rw [hlive]
    simp [Use.Frees, hfront, hback, hsize]

end BuddySystem
