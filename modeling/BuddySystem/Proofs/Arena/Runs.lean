import BuddySystem.Proofs.Addresses
import BuddySystem.Proofs.Arena.Allocate
import BuddySystem.Proofs.Arena.Build
import BuddySystem.Proofs.Arena.Deallocate

/-!
# Runs of an arena

A run is a list of requests and deallocations with any arguments. `Occupied.run` follows an arena
along a run, and with it the live blocks, which are computed from the answers of the arena alone: a
slice that is handed out makes a block live, and memory that is taken back makes the block at its
address free.

The invariant is that the arena keeps a ledger with these live blocks. It holds of an arena that
has just been set up, every use preserves it (`Keeps.step`), and so it holds after every run
(`keeps_run`).
-/

namespace BuddySystem

open FreeLists Occupancy Arena

/-- A use of an arena. -/
inductive Use where
  | allocate (size align : Nat)
  | deallocate (addr size align : Nat)

/-- An arena together with the blocks that were handed out and not taken back. -/
structure Occupied (config : Config) where
  arena : Arena config
  live : Finset Node

namespace Occupied

variable {config : Config}

/-- The addresses of a block. -/
def addresses (occupied : Occupied config) (block : Node) : Set Nat :=
  config.addresses occupied.arena.span.addr block

/-- The addresses of the arena. -/
def memory (occupied : Occupied config) : Set Nat :=
  Set.Ico occupied.arena.span.addr (occupied.arena.span.addr + config.capacity)

/-- The address at which a block starts. -/
def addrOf (occupied : Occupied config) (block : Node) : Nat :=
  occupied.arena.span.addr + block.leaf * config.blockSize

/-- The live blocks after a slice was handed out. It starts a block of the order of the request. -/
def served (occupied : Occupied config) (size align : Nat) (slice : Slice) : Finset Node :=
  match config.order? size align with
  | some order =>
      insert ⟨(slice.addr - occupied.arena.span.addr) / config.blockSize, order⟩ occupied.live
  | none => occupied.live

/-- The live blocks after the memory at an address was taken back. -/
def released (occupied : Occupied config) (addr : Nat) : Finset Node :=
  occupied.live.filter fun block => occupied.addrOf block ≠ addr

/-- A single use. Only the answer of the arena decides what becomes of the live blocks. -/
def step (occupied : Occupied config) : Use → Occupied config
  | .allocate size align =>
      match (Arena.allocate size align).run occupied.arena with
      | .ok (.ok slice) after => ⟨after, occupied.served size align slice⟩
      | .ok (.error _) after => ⟨after, occupied.live⟩
      | .error _ after => ⟨after, occupied.live⟩
  | .deallocate addr size align =>
      match (Arena.deallocate addr size align).run occupied.arena with
      | .ok (.ok ()) after => ⟨after, occupied.released addr⟩
      | .ok (.error _) after => ⟨after, occupied.live⟩
      | .error _ after => ⟨after, occupied.live⟩

/-- A number of uses, one after the other, from an arena of which nothing was handed out. -/
def run (arena : Arena config) (uses : List Use) : Occupied config :=
  uses.foldl step ⟨arena, ∅⟩

/-- The ledger of the live blocks and the free lists. -/
def ledger (occupied : Occupied config) : Ledger :=
  ⟨occupied.live, occupied.arena.free.toList⟩

variable {occupied : Occupied config} {after : Arena config} {size align addr : Nat}

/-! ## Single uses -/

theorem step_refused {refusal : Refusal}
    (h : (Arena.allocate size align).run occupied.arena = .ok (.error refusal) occupied.arena) :
    occupied.step (.allocate size align) = occupied := by
  rw [step, h]

theorem step_served {slice : Slice}
    (h : (Arena.allocate size align).run occupied.arena = .ok (.ok slice) after) :
    occupied.step (.allocate size align) = ⟨after, occupied.served size align slice⟩ := by
  rw [step, h]

theorem step_rejected {reason : Rejection}
    (h : (Arena.deallocate addr size align).run occupied.arena =
      .ok (.error reason) occupied.arena) :
    occupied.step (.deallocate addr size align) = occupied := by
  rw [step, h]

theorem step_released
    (h : (Arena.deallocate addr size align).run occupied.arena = .ok (.ok ()) after) :
    occupied.step (.deallocate addr size align) = ⟨after, occupied.released addr⟩ := by
  rw [step, h]

end Occupied

namespace Arena

variable {config : Config} {start arena : Arena config} {occupied : Occupied config}

/-- The free lists that an arena keeps are its own. -/
theorem Keeps.eq_ledger {ledger : Ledger} (h : arena.Keeps start ledger) :
    ledger = Occupied.ledger ⟨arena, ledger.live⟩ := by
  rw [Occupied.ledger, h.shows_ledger.lists.toList_eq]

/-- The block that is handed out becomes live. -/
theorem Keeps.served_eq (h : occupied.arena.Keeps start occupied.ledger)
    {size align target leaf : Nat} (horder : config.order? size align = some target) :
    occupied.served size align ⟨start.span.addr + leaf * config.blockSize, size⟩ =
      insert ⟨leaf, target⟩ occupied.live := by
  simp only [Occupied.served, horder, h.shows_ledger.span, Nat.add_sub_cancel_left,
    Nat.mul_div_cancel _ config.blockSize_pos]

/-- The block that is taken back is no longer live, and all others still are. -/
theorem Keeps.released_eq (h : occupied.arena.Keeps start occupied.ledger) {block : Node}
    (hmem : block ∈ occupied.live) :
    occupied.released (start.span.addr + block.leaf * config.blockSize) =
      occupied.live.erase block := by
  rw [← h.shows_ledger.span]
  exact config.filter_start_ne h.placed hmem _

/-- Every use leaves an arena that keeps its live blocks. -/
theorem Keeps.step (h : occupied.arena.Keeps start occupied.ledger) (use : Use) :
    (occupied.step use).arena.Keeps start (occupied.step use).ledger := by
  cases use with
  | allocate size align =>
      rcases h.allocate_cases size align with
        ⟨refusal, hrun, -⟩ | ⟨target, leaf, rest, after, horder, hserved, hrun, hafter⟩
      · rw [Occupied.step_refused hrun]
        exact h
      · have hlive := (h.balanced.of_allocate hserved).1
        rw [Occupied.step_served hrun, h.served_eq horder]
        rw [hafter.eq_ledger, hlive] at hafter
        exact hafter
  | deallocate addr size align =>
      rcases h.deallocate_cases addr size align with
        ⟨reason, -, hrun⟩ | ⟨block, after, hjudge, hrun, hafter⟩
      · rw [Occupied.step_rejected hrun]
        exact h
      · obtain ⟨hmem, -, rfl⟩ := judge_eq_ok hjudge
        rw [Occupied.step_released hrun, h.released_eq hmem]
        rw [hafter.eq_ledger] at hafter
        exact hafter

/-- An arena keeps its live blocks along every run. -/
theorem keeps_run {σ : Type} {provider : Provider σ} {before after : σ}
    (h : (build config provider).run before = .ok (.ok start) after) (uses : List Use) :
    (Occupied.run start uses).arena.Keeps start (Occupied.run start uses).ledger := by
  -- The induction is on the uses, for any arena that keeps its live blocks.
  have hrun : ∀ occupied : Occupied config, occupied.arena.Keeps start occupied.ledger →
      (uses.foldl Occupied.step occupied).arena.Keeps start
        (uses.foldl Occupied.step occupied).ledger := by
    induction uses with
    | nil => exact fun _ hkeeps => hkeeps
    | cons use uses ih => exact fun occupied hkeeps => ih _ (hkeeps.step use)
  have hstart := keeps_of_build h
  rw [hstart.eq_ledger] at hstart
  exact hrun _ hstart

end Arena

end BuddySystem
