import BuddySystem.Evaluation.Block
import BuddySystem.Provider

/-!
# Evaluation of an allocator

An evaluation uses an allocator as a list of operations says and looks for flaws. Every block that
it is granted is painted with the number of the operation that asked for it. If a block does not
have these bytes any more when it is given back, something else was written to it, be it by the
allocator or because two blocks overlap. Blocks that are held in the end are looked at and given
back, too.
-/

namespace BuddySystem

/-- An allocator under evaluation, with a state of type `σ` beside the memory. Its calls may
change the memory. -/
abbrev Subject (σ : Type) := Provider (Memory × σ)

/-- What is wrong with an allocator. -/
inductive Flaw where
  /-- A block has another length than was asked for. -/
  | wrongLength (expected actual : Nat)
  /-- A block is not at an address of the alignment that was asked for. -/
  | misaligned
  /-- A request for no bytes was granted. -/
  | zeroSizeAccepted
  /-- A block was written to while it was held. -/
  | overwritten
  deriving DecidableEq

/-- The text of a flaw. -/
def Flaw.message : Flaw → String
  | .wrongLength expected actual => s!"block has length {actual}, expected {expected}"
  | .misaligned => "block is misaligned"
  | .zeroSizeAccepted => "zero-size request succeeded"
  | .overwritten => "block was overwritten"

/-- A flaw, and when it was found. -/
structure Failure where
  /-- The operations before. -/
  completed : List Operation
  /-- The operation that found the flaw, unless it was found in the end. -/
  operation? : Option Operation
  flaw : Flaw
  deriving DecidableEq

namespace Evaluation

variable {σ : Type}

/-- The item at a place that is counted round the list, and the list without it. The last item
takes its place. -/
def takeModulo {α : Type} (items : List α) (index : Nat) : Option (α × List α) := do
  let last ← items.getLast?
  let place := index % items.length
  let item ← items[place]?
  return (item, (items.set place last).dropLast)

/-- What is wrong with a slice that a request was granted, if anything is. -/
def check (request : Request) (slice : Slice) : Checked (Option Flaw) := do
  if request.size = 0 then
    return some .zeroSizeAccepted
  if slice.len ≠ request.size then
    return some (.wrongLength request.size slice.len)
  if (← Word.rem slice.addr request.align) ≠ 0 then
    return some .misaligned
  return none

/-- Gives a block back unless it was overwritten. -/
def giveBack (subject : Subject σ) (block : Block) (repaint : Option UInt64) :
    Call (Memory × σ) (Except Flaw Unit) := do
  unless block.verify (← get).1 do
    return .error .overwritten
  if let some id := repaint then
    modify fun (memory, state) => ((block.paint id memory).2, state)
  subject.deallocate block.slice.addr block.request.size block.request.align
  return .ok ()

/-- Performs the operation with a number while some blocks are held. Gives the blocks that are
held afterwards. -/
def perform (subject : Subject σ) (id : UInt64) (held : List Block) :
    Operation → Call (Memory × σ) (Except Flaw (List Block))
  | .alloc request => do
      let some slice ← subject.allocate request.size request.align
        | return .ok held
      if let some flaw ← Call.ofChecked (check request slice) then
        return .error flaw
      modify fun (memory, state) => ((Block.init slice request id memory).2, state)
      return .ok (held ++ [⟨slice, request, id⟩])
  | .dealloc index => do
      let some (block, held) := takeModulo held index
        | return .ok held
      return (← giveBack subject block (some id)).map fun () => held

/-- Performs operations one after the other, the first of them with the number of the operations
before it. Gives the blocks that are held in the end. -/
def performAll (subject : Subject σ) (completed : List Operation) (held : List Block) :
    List Operation → Call (Memory × σ) (Except Failure (List Block))
  | [] => return .ok held
  | operation :: rest => do
      match ← perform subject completed.length.toUInt64 held operation with
      | .ok held => performAll subject (completed ++ [operation]) held rest
      | .error flaw => return .error ⟨completed, some operation, flaw⟩

/-- Gives back all blocks that are held, in order, up to one that was overwritten. -/
def drain (subject : Subject σ) : List Block → Call (Memory × σ) (Except Flaw Unit)
  | [] => return .ok ()
  | block :: rest => do
      match ← giveBack subject block none with
      | .ok () => drain subject rest
      | .error flaw => return .error flaw

/-- Evaluates an allocator: performs the operations and gives back what is held in the end. -/
def evaluate (subject : Subject σ) (operations : List Operation) :
    Call (Memory × σ) (Except Failure Unit) := do
  match ← performAll subject [] [] operations with
  | .error failure => return .error failure
  | .ok held =>
      match ← drain subject held with
      | .ok () => return .ok ()
      | .error flaw => return .error ⟨operations, none, flaw⟩

end Evaluation

end BuddySystem
