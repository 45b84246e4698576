import BuddySystem.Arena.Access
import BuddySystem.Arena.Build
import BuddySystem.Evaluation.Defective
import BuddySystem.Host

/-!
# Reports

An evaluation with everything that is known of it afterwards: what came of it, which calls were
made on the allocator, and whether the allocator was idle in the end.
-/

namespace BuddySystem.Evaluation

/-- A call that was made on the allocator. Pointers are offsets from the start of its memory. -/
inductive Use where
  | allocate (size align : Nat) (offset? : Option Nat)
  | deallocate (offset size align : Nat)
  deriving DecidableEq

/-- A transfer as a use of memory that starts at an address. -/
def Use.ofTransfer (base : Nat) : Transfer → Use
  | .allocate size align granted => .allocate size align (granted.map (·.addr - base))
  | .deallocate addr size align => .deallocate (addr - base) size align

/-- What is known of an evaluation. -/
structure Report where
  outcome : Except Failure Unit
  uses : List Use
  /-- Whether the allocator was idle in the end, if it can be asked. -/
  idle? : Option Bool

/-- The memory and the state of an allocator under evaluation, beside the transfers. -/
def beside {σ : Type} : Focus (Memory × Recorded σ) (Memory × σ) where
  view state := (state.1, state.2.inner)
  update inner state := (inner.1, { state.2 with inner := inner.2 })

/-- An allocator under evaluation with its calls written down. -/
def recorded {σ : Type} (subject : Subject σ) : Subject (Recorded σ) :=
  subject.recordedBy beside fun transfer state => (state.1, state.2.note transfer)

/-- Evaluates an allocator and reports. Its memory starts at `base` and is zero. -/
def report {σ : Type} (subject : Subject σ) (base : Nat) (start : σ) (idle? : σ → Option Bool)
    (operations : List Operation) : Except Abort Report :=
  match evaluate (recorded subject) operations (Memory.zero base, ⟨start, []⟩) with
  | .ok outcome (_, after) =>
      .ok ⟨outcome, after.transfers.map (Use.ofTransfer base), idle? after.inner⟩
  | .error abort _ => .error abort

/-- Evaluates an arena over memory from a provider of the machine. -/
def reportArena (config : Config) (provider : Provider (Logged Host))
    (operations : List Operation) : Except Abort (Except BuildError Report) :=
  match Arena.build config provider ⟨Host.fresh, []⟩ with
  | .error abort _ => .error abort
  | .ok (.error reason) _ => .ok (.error reason)
  | .ok (.ok arena) _ => do
      let subject := Arena.subject.toProvider.within Focus.second
      let idle? := fun (after : Logged (Arena config)) => after.state.isIdle.toOption
      return .ok (← report subject arena.span.addr ⟨arena, []⟩ idle? operations)

/-- Evaluates an allocator with a defect. -/
def reportDefective (size : Nat) (defect : Defect) (after : Nat) (operations : List Operation) :
    Except Abort Report :=
  let allocator : Defective := ⟨Defective.maxAlign, size, defect, after⟩
  report allocator.subject allocator.base Defective.State.initial (fun _ => none) operations

end BuddySystem.Evaluation
