import BuddySystem.Proofs.Arena.Accounting
import BuddySystem.Proofs.Arena.Runs

/-!
# Refinement

A ledger is a naive allocator: a set of live blocks and plain lists of free leaves, without bits or
links. `Ledger.respond` serves requests and takes blocks back by these alone.
`trace_refines_ledger` says that an arena cannot be told from it: they give the same answers to any
uses, and after each use show the same free leaves in the same order and the same counts.
-/

namespace BuddySystem

open Occupancy Arena

/-- The answer of an allocator to a use. -/
inductive Answer where
  /-- Memory is handed out. -/
  | served (slice : Slice)
  /-- No memory is handed out. -/
  | refused
  /-- Memory is taken back. -/
  | released
  /-- No memory is taken back. -/
  | rejected
  /-- An internal check failed. -/
  | faulted (fault : Fault)
  deriving DecidableEq

/-- What an allocator shows of its free blocks. -/
structure View where
  /-- The leaves of the free blocks of an order, most recently added first. -/
  free : Nat → List Nat
  freeBlocks : Nat → Except Abort Nat
  freeBytes : Checked Nat
  isIdle : Checked Bool

/-- The answers to a number of uses, one after the other, each with what the allocator shows when it
has answered. -/
def trace {σ : Type} (respond : σ → Use → Answer × σ) (view : σ → View) :
    σ → List Use → List (Answer × View)
  | _, [] => []
  | state, use :: uses =>
      let (answer, after) := respond state use
      (answer, view after) :: trace respond view after uses

namespace Arena

variable {config : Config}

/-- What an arena makes of a use. -/
def respond (arena : Arena config) : Use → Answer × Arena config
  | .allocate size align =>
      match (allocate size align).run arena with
      | .ok (.ok slice) after => (.served slice, after)
      | .ok (.error _) after => (.refused, after)
      | .error fault after => (.faulted fault, after)
  | .deallocate addr size align =>
      match (deallocate addr size align).run arena with
      | .ok (.ok ()) after => (.released, after)
      | .ok (.error _) after => (.rejected, after)
      | .error fault after => (.faulted fault, after)

/-- What an arena shows of its free blocks. -/
def view (arena : Arena config) : View where
  free := arena.free.toList
  freeBlocks := arena.freeBlocks
  freeBytes := arena.freeBytes
  isIdle := arena.isIdle

end Arena

namespace Ledger

/-- The live block that starts at an address and has the order of a request, in an arena at
`base`. -/
def block? (config : Config) (base : Nat) (ledger : Ledger) (addr size align : Nat) :
    Option Node := do
  let order ← config.order? size align
  let block : Node := ⟨(addr - base) / config.blockSize, order⟩
  guard (block ∈ ledger.live ∧ addr = base + block.leaf * config.blockSize)
  return block

/-- What a ledger makes of a use, as the allocator of an arena at `base`. -/
def respond (config : Config) (base : Nat) (ledger : Ledger) : Use → Answer × Ledger
  | .allocate size align =>
      match config.order? size align with
      | none => (.refused, ledger)
      | some target =>
          match ledger.allocate config.maxOrder target with
          | some (leaf, rest) => (.served ⟨base + leaf * config.blockSize, size⟩, rest)
          | none => (.refused, ledger)
  | .deallocate addr size align =>
      match ledger.block? config base addr size align with
      | some block => (.released, ledger.deallocate config.maxOrder block)
      | none => (.rejected, ledger)

/-- What a ledger shows of its free blocks. Its counts are not computed with words. -/
def view (config : Config) (ledger : Ledger) : View where
  free := ledger.free
  freeBlocks order :=
    if order ≤ config.maxOrder then .ok (ledger.free order).length else .error .orderOutOfRange
  freeBytes := .ok (ledger.freeBytes config)
  isIdle := .ok (decide (ledger.live = ∅))

variable {config : Config} {ledger : Ledger} {base addr size align : Nat}

/-- A ledger takes back a live block by its address and a request of its order. -/
theorem block?_eq_some_iff {block : Node} :
    ledger.block? config base addr size align = some block ↔
      block ∈ ledger.live ∧ config.order? size align = some block.order ∧
        addr = base + block.leaf * config.blockSize := by
  simp only [block?, Option.bind_eq_bind, Option.bind_eq_some_iff, Option.pure_def, guard,
    Option.some.injEq]
  constructor
  · intro h
    obtain ⟨order, horder, _, hguard, rfl⟩ := h
    split at hguard
    · next hblock => exact ⟨hblock.1, horder, hblock.2⟩
    · cases hguard
  · intro h
    obtain ⟨hmem, horder, rfl⟩ := h
    refine ⟨block.order, horder, (), ?_, ?_⟩
    · simp [Nat.mul_div_cancel _ config.blockSize_pos, hmem]
    · simp [Nat.mul_div_cancel _ config.blockSize_pos]

/-- A ledger has a block where the live blocks say that there is one. -/
theorem block?_eq_judge (hlive : Placed config.maxOrder ledger.live) :
    ledger.block? config base addr size align =
      (judge config base ledger.live addr size align).toOption := by
  refine Option.ext fun block => ?_
  rw [block?_eq_some_iff, ← judge_eq_ok_iff hlive]
  cases judge config base ledger.live addr size align <;> simp [Except.toOption]

end Ledger

namespace Arena

variable {config : Config} {start arena : Arena config} {ledger : Ledger}

/-- An arena and its ledger answer a use in the same way, and the arena keeps the new ledger. -/
theorem Keeps.respond (h : arena.Keeps start ledger) (use : Use) :
    (arena.respond use).1 = (ledger.respond config start.span.addr use).1 ∧
      (arena.respond use).2.Keeps start (ledger.respond config start.span.addr use).2 := by
  cases use with
  | allocate size align =>
      rw [Arena.respond, Ledger.respond]
      rcases h.allocate_cases size align with
        ⟨refusal, hrun, hnone⟩ | ⟨target, leaf, rest, after, horder, hserved, hrun, hafter⟩
      · rw [hrun]
        cases horder : config.order? size align with
        | none => exact ⟨rfl, h⟩
        | some target =>
            dsimp only
            rw [hnone target horder]
            exact ⟨rfl, h⟩
      · simp only [hrun, horder, hserved]
        exact ⟨trivial, hafter⟩
  | deallocate addr size align =>
      rw [Arena.respond, Ledger.respond, Ledger.block?_eq_judge h.placed]
      rcases h.deallocate_cases addr size align with
        ⟨reason, hjudge, hrun⟩ | ⟨block, after, hjudge, hrun, hafter⟩
      · rw [hrun, hjudge]
        exact ⟨rfl, h⟩
      · rw [hrun, hjudge]
        exact ⟨rfl, hafter⟩

/-- An arena shows what its ledger shows. -/
theorem Keeps.view_eq (h : arena.Keeps start ledger) : arena.view = ledger.view config := by
  rw [Arena.view, Ledger.view, View.mk.injEq]
  refine ⟨h.shows_ledger.lists.toList_eq, ?_, h.freeBytes_eq, h.isIdle_eq⟩
  funext order
  split
  · next hle => exact h.freeBlocks_eq hle
  · next hgt => rw [freeBlocks, if_neg hgt]

/-- An arena that keeps a ledger answers and shows the same as the ledger from then on. -/
theorem Keeps.trace_eq (h : arena.Keeps start ledger) (uses : List Use) :
    trace Arena.respond Arena.view arena uses =
      trace (Ledger.respond config start.span.addr) (Ledger.view config) ledger uses := by
  induction uses generalizing arena ledger with
  | nil => rfl
  | cons use uses ih =>
      obtain ⟨hanswer, hafter⟩ := h.respond use
      rw [trace, trace]
      simp only [hanswer, hafter.view_eq, ih hafter]

end Arena

/-- An arena that was set up and a ledger of which only the root is free show the same, answer any
uses in the same way, and show the same after each of them. -/
theorem trace_refines_ledger {config : Config} {σ : Type} {provider : Provider σ} {before after : σ}
    {start : Arena config} (h : (build config provider).run before = .ok (.ok start) after)
    (uses : List Use) :
    start.view = (Ledger.idle config.maxOrder).view config ∧
      trace Arena.respond Arena.view start uses =
        trace (Ledger.respond config start.span.addr) (Ledger.view config)
          (Ledger.idle config.maxOrder) uses := by
  have hstart := keeps_of_build h
  exact ⟨hstart.view_eq, hstart.trace_eq uses⟩

/-- A small arena and a ledger hand out the first leaf and the second half, and take back the first
leaf. -/
theorem trace_refines_ledger_small :
    ∃ start after, (build Config.small Host.heap).run Host.fresh = .ok (.ok start) after ∧
      (trace Arena.respond Arena.view start
          [.allocate 16 16, .allocate 17 4, .deallocate start.span.addr 16 16]).map Prod.fst =
        [.served ⟨start.span.addr, 16⟩, .served ⟨start.span.addr + 32, 17⟩, .released] ∧
      start.view = (Ledger.idle Config.small.maxOrder).view Config.small ∧
        trace Arena.respond Arena.view start
            [.allocate 16 16, .allocate 17 4, .deallocate start.span.addr 16 16] =
          trace (Ledger.respond Config.small start.span.addr) (Ledger.view Config.small)
            (Ledger.idle Config.small.maxOrder)
            [.allocate 16 16, .allocate 17 4, .deallocate start.span.addr 16 16] := by
  obtain ⟨start, after, h⟩ := exists_build_small
  refine ⟨start, after, h, ?_, trace_refines_ledger h _⟩
  cases h
  decide +kernel

end BuddySystem
