import BuddySystem.Proofs.Arena.Refinement

/-!
# Conservation of bytes

What an arena has handed out is recorded with the sizes and alignments that were asked for. The
lengths of the blocks that serve these requests and the lengths of the free blocks always add up to
the whole arena (`conserved_run`), so an arena that is given up tells exactly how many bytes are
missing.

The invariant is that the record and the live blocks of the ledger describe the same ranges of
addresses, as many times (`Accounted`).
-/

namespace BuddySystem

open Occupancy Arena

/-- Memory that was handed out for a request. -/
structure Grant where
  addr : Nat
  size : Nat
  align : Nat

/-- An arena together with the memory that it handed out and did not take back. -/
structure Lender (config : Config) where
  arena : Arena config
  grants : List Grant

/-- What is handed out after a use with this answer. -/
def Grant.record (grants : List Grant) : Use → Answer → List Grant
  | .allocate size align, .served slice => ⟨slice.addr, size, align⟩ :: grants
  | .deallocate addr _ _, .released => grants.filter (·.addr ≠ addr)
  | _, _ => grants

namespace Lender

variable {config : Config}

/-- A single use. -/
def step (lender : Lender config) (use : Use) : Lender config :=
  let (answer, after) := lender.arena.respond use
  ⟨after, Grant.record lender.grants use answer⟩

/-- A number of uses, one after the other, from an arena of which nothing was handed out. -/
def run (arena : Arena config) (uses : List Use) : Lender config :=
  uses.foldl step ⟨arena, []⟩

/-- The bytes of the blocks that are handed out. -/
def grantedBytes (lender : Lender config) : Nat :=
  (lender.grants.map fun grant => config.servingLen grant.size grant.align).sum

end Lender

/-- A record describes the live blocks of an arena at `base`: the memory of each of them was handed
out once, for a request that it serves. -/
def Accounted (config : Config) (base : Nat) (grants : List Grant) (live : Finset Node) : Prop :=
  ((grants.map fun grant => (grant.addr, config.servingLen grant.size grant.align) :
      List (Nat × Nat)) : Multiset (Nat × Nat)) =
    live.val.map fun block =>
      (base + block.leaf * config.blockSize, config.blockSize * 2 ^ block.order)

variable {config : Config} {base : Nat} {grants : List Grant} {ledger : Ledger}

namespace Accounted

/-- What is granted is accounted for by the block that becomes live. -/
theorem serve (h : Accounted config base grants ledger.live) {size align target leaf : Nat}
    (horder : config.order? size align = some target) (hnew : ⟨leaf, target⟩ ∉ ledger.live) :
    Accounted config base (⟨base + leaf * config.blockSize, size, align⟩ :: grants)
      (insert ⟨leaf, target⟩ ledger.live) := by
  rw [Accounted] at h ⊢
  rw [Finset.insert_val_of_notMem hnew, Multiset.map_cons, List.map_cons, ← Multiset.cons_coe, h,
    (config.order?_eq_some_iff.1 horder).2]

/-- What is given back is accounted for by the block that is no longer live. -/
theorem release (h : Accounted config base grants ledger.live)
    (hlive : Placed config.maxOrder ledger.live) {block : Node} (hmem : block ∈ ledger.live) :
    Accounted config base (grants.filter (·.addr ≠ base + block.leaf * config.blockSize))
      (ledger.live.erase block) := by
  -- On both sides the ranges that start at the address are left out.
  have hfilter := congrArg
    (Multiset.filter fun range => range.1 ≠ base + block.leaf * config.blockSize) h
  rw [Multiset.filter_map, Multiset.filter_coe, List.filter_map] at hfilter
  rw [Accounted, ← config.filter_start_ne hlive hmem base, Finset.filter_val]
  exact hfilter

/-- A use keeps the record. -/
theorem respond (h : Accounted config base grants ledger.live)
    (hfree : Ledger.Balanced config.maxOrder ledger.live ledger.free)
    (hlive : Placed config.maxOrder ledger.live) (use : Use) :
    Accounted config base (Grant.record grants use (ledger.respond config base use).1)
      (ledger.respond config base use).2.live := by
  cases use with
  | allocate size align =>
      rw [Ledger.respond]
      cases horder : config.order? size align with
      | none => exact h
      | some target =>
          cases hserved : ledger.allocate config.maxOrder target with
          | none =>
              simp only [hserved]
              exact h
          | some served =>
              obtain ⟨leaf, rest⟩ := served
              obtain ⟨hrest, hnode, huntouched⟩ := hfree.of_allocate hserved
              simp only [hserved, hrest]
              refine h.serve horder fun hmem => huntouched ?_
              exact ⟨_, hmem, (Node.Inside.refl _).overlaps⟩
  | deallocate addr size align =>
      rw [Ledger.respond]
      cases hblock : ledger.block? config base addr size align with
      | none => exact h
      | some block =>
          obtain ⟨hmem, -, rfl⟩ := Ledger.block?_eq_some_iff.1 hblock
          exact h.release hlive hmem

/-- The lengths of the recorded blocks add up to the live bytes. -/
theorem sum_servingLen (h : Accounted config base grants ledger.live) :
    (grants.map fun grant => config.servingLen grant.size grant.align).sum =
      ledger.liveBytes config := by
  have hsum := congrArg (fun ranges : Multiset (Nat × Nat) => (ranges.map Prod.snd).sum) h
  simp only [Multiset.map_coe, List.map_map, Multiset.sum_coe, Multiset.map_map] at hsum
  exact hsum

end Accounted

namespace Lender

variable {start : Arena config}

/-- An arena keeps its record along every run. -/
theorem keeps_run {σ : Type} {provider : Provider σ} {before after : σ}
    (h : (build config provider).run before = .ok (.ok start) after) (uses : List Use) :
    ∃ ledger, (run start uses).arena.Keeps start ledger ∧
      Accounted config start.span.addr (run start uses).grants ledger.live := by
  -- The induction is on the uses, for any arena that keeps a ledger and its record.
  have hrun : ∀ (lender : Lender config) (ledger : Ledger), lender.arena.Keeps start ledger →
      Accounted config start.span.addr lender.grants ledger.live →
      ∃ ledger, (uses.foldl step lender).arena.Keeps start ledger ∧
        Accounted config start.span.addr (uses.foldl step lender).grants ledger.live := by
    induction uses with
    | nil => exact fun _ ledger hkeeps hrecord => ⟨ledger, hkeeps, hrecord⟩
    | cons use uses ih =>
        intro lender ledger hkeeps hrecord
        obtain ⟨hanswer, hafter⟩ := hkeeps.respond use
        have hgrants := hrecord.respond hkeeps.balanced hkeeps.placed use
        rw [← hanswer] at hgrants
        exact ih (lender.step use) _ hafter hgrants
  exact hrun _ _ (keeps_of_build h) rfl

end Lender

namespace Arena

variable {start arena : Arena config}

/-- What an arena tells when it is given up: how many bytes are live, if there are any. -/
theorem Keeps.releaseEvents_eq (h : arena.Keeps start ledger) :
    arena.releaseEvents = .ok
      ((if ledger.liveBytes config = 0 then []
        else [.leaked (ledger.liveBytes config) config.capacity]) ++
          [.releasing start.span.addr]) := by
  have hsub := Ledger.capacity_sub_freeBytes h.balanced h.placed
  rw [releaseEvents, h.isIdle_eq, h.freeBytes_eq, h.shows_ledger.span]
  by_cases hempty : ledger.live = ∅
  · simp [bind, Except.bind, pure, Except.pure, hempty, Ledger.liveBytes_eq_zero_iff]
  · simp [bind, Except.bind, pure, Except.pure, hempty, Ledger.liveBytes_eq_zero_iff, hsub]

end Arena

/-- In every state that an arena reaches, the free bytes and the bytes of the blocks that are handed
out add up to the arena. An arena that is given up tells the number of the bytes that are missing,
unless there are none. -/
theorem conserved_run {σ : Type} {provider : Provider σ} {before after : σ} {start : Arena config}
    (h : (build config provider).run before = .ok (.ok start) after) (uses : List Use) :
    ∃ free, (Lender.run start uses).arena.freeBytes = .ok free ∧
      free + (Lender.run start uses).grantedBytes = config.capacity ∧
      Word.sub config.capacity free = .ok (Lender.run start uses).grantedBytes ∧
      (Lender.run start uses).arena.releaseEvents = .ok
        ((if (Lender.run start uses).grantedBytes = 0 then []
          else [.leaked (Lender.run start uses).grantedBytes config.capacity]) ++
            [.releasing start.span.addr]) := by
  obtain ⟨ledger, hkeeps, hrecord⟩ := Lender.keeps_run h uses
  have htotal := Ledger.freeBytes_add_liveBytes hkeeps.balanced hkeeps.placed
  rw [Lender.grantedBytes, hrecord.sum_servingLen]
  have hsub := Ledger.capacity_sub_freeBytes hkeeps.balanced hkeeps.placed
  exact ⟨_, hkeeps.freeBytes_eq, htotal, hsub, hkeeps.releaseEvents_eq⟩

/-- A small arena with a block of two leaves granted lacks half of its bytes. -/
theorem conserved_run_small :
    ∃ start after, ∃ uses : List Use,
      (build Config.small Host.heap).run Host.fresh = .ok (.ok start) after ∧
      (Lender.run start uses).grantedBytes = 32 ∧
      ∃ free, (Lender.run start uses).arena.freeBytes = .ok free ∧
        free + (Lender.run start uses).grantedBytes = Config.small.capacity ∧
        Word.sub Config.small.capacity free = .ok (Lender.run start uses).grantedBytes ∧
        (Lender.run start uses).arena.releaseEvents = .ok
          ((if (Lender.run start uses).grantedBytes = 0 then []
            else [.leaked (Lender.run start uses).grantedBytes Config.small.capacity]) ++
              [.releasing start.span.addr]) := by
  obtain ⟨start, after, h⟩ := exists_build_small
  refine ⟨start, after, [.allocate 16 16, .allocate 17 4, .deallocate start.span.addr 16 16], h, ?_,
    conserved_run h _⟩
  cases h
  decide +kernel

end BuddySystem
