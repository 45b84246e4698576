import BuddySystem.Evaluation

/-!
# An allocator with a defect

A simple allocator that never takes memory back: every block lies behind the ones before. From
some request on it may have a defect, and an evaluation should find it. Without a defect it is
without a flaw.
-/

namespace BuddySystem

/-- The ways in which the allocator can be defective. -/
inductive Defect where
  | none
  /-- Every block lies at the start of the memory. -/
  | overlap
  /-- Every request changes the first byte of the block before. -/
  | scribble
  /-- Every block is told to be a byte shorter. -/
  | short
  /-- Every block is told to be a byte longer. -/
  | long
  /-- Every block is told to lie a byte further on. -/
  | shift
  /-- Requests for no bytes are granted. -/
  | zero
  deriving DecidableEq

/-- What an allocator with a defect is like. -/
structure Defective where
  /-- The address of the memory, a multiple of `Defective.maxAlign`. -/
  base : Nat
  /-- The number of bytes. -/
  size : Nat
  defect : Defect
  /-- The number of requests before the defect shows. -/
  after : Nat

namespace Defective

/-- The greatest alignment that is granted. -/
def maxAlign : Nat := 65536

/-- How far the memory is used. -/
structure State where
  /-- The offset behind all blocks. -/
  next : Nat
  /-- The offset of the last block. -/
  last? : Option Nat
  /-- The number of requests. -/
  calls : Nat
  deriving DecidableEq

/-- The state before the first request. -/
def State.initial : State := ⟨0, Option.none, 0⟩

/-- Serves a request, with the defect if it shows. -/
def grant (allocator : Defective) (active : Option Defect) (size align : Nat) :
    Call (Memory × State) (Option Slice) := do
  let (_, state) ← get
  if !Word.isPowerOfTwo align || align > maxAlign || size > allocator.size then
    return none
  if size = 0 && active ≠ some .zero then
    return none
  let offset := if active = some .overlap then 0 else Word.roundUp state.next align
  if offset + size > allocator.size then
    return none
  if let (some .scribble, some last) := (active, state.last?) then
    let addr := allocator.base + last
    modify fun (memory, state) => (memory.write addr (memory.read addr ^^^ 255), state)
  modify fun (memory, state) =>
    (memory, { state with next := max state.next (offset + size), last? := some offset })
  let addr := allocator.base + offset
  match active with
  | some .short => return some ⟨addr, size - 1⟩
  | some .long => return some ⟨addr, size + 1⟩
  | some .shift => return some ⟨addr + 1, size⟩
  | _ => return some ⟨addr, size⟩

/-- The allocator as one under evaluation. -/
def subject (allocator : Defective) : Subject State where
  allocate size align := do
    let (_, state) ← get
    modify fun (memory, state) => (memory, { state with calls := state.calls + 1 })
    let active := if state.calls ≥ allocator.after then some allocator.defect else none
    grant allocator active size align
  deallocate _ _ _ := return ()

end Defective

end BuddySystem
