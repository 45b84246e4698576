import BuddySystem.Layout

/-!
# Refusals and rejections

What an allocator answers when it does not do what it was asked for. A request for memory is
refused, memory that is given back in a wrong way is rejected, and an arena that cannot be set up
has a `BuildError`. None of these is a defect of the allocator. An `Abort` is the end of a call
that cannot have an answer at all.
-/

namespace BuddySystem

/-- Why a request for memory is refused. -/
inductive Refusal where
  /-- No block of an arena of this configuration can serve the request. -/
  | unsupported (size align : Nat)
  /-- There is no free block of this order or above. -/
  | exhausted (order : Nat)
  /-- A list that is not empty has no head. This does not happen. -/
  | vanished
  deriving DecidableEq

/-- The text of a refusal, which is the same for all of them. -/
def Refusal.message : String :=
  "memory allocation failed"

/-- Why memory that is given back is rejected. -/
inductive Rejection where
  /-- The pointer is not in the arena. -/
  | notOwned
  /-- No block serves requests of this size and alignment. -/
  | invalidLayout
  /-- No block of the size starts at the pointer. -/
  | misaligned
  /-- The block of the size at the pointer is not allocated. -/
  | notAllocated
  /-- The block of the size at the pointer is split. -/
  | sizeMismatch
  deriving DecidableEq

/-- The text of a rejection. -/
def Rejection.message : Rejection → String
  | .notOwned => "pointer is not owned by this allocator"
  | .invalidLayout => "size and alignment do not describe an allocation"
  | .misaligned => "pointer is not aligned to the block size"
  | .notAllocated => "no block of this size is allocated at the pointer"
  | .sizeMismatch => "block was allocated with a smaller size"

/-- Why an arena cannot be set up. -/
inductive BuildError where
  /-- The source of memory refuses a region of this layout. -/
  | allocFailed (layout : Layout)
  /-- The configuration has too many leaves or no layout, or the region it was given leaves the
  address space. -/
  | invalidConfig
  deriving DecidableEq

/-- The text of a `BuildError`. -/
def BuildError.message : BuildError → String
  | .allocFailed layout =>
      s!"upstream allocation of {layout.size} bytes (align {layout.align}) failed"
  | .invalidConfig => "invalid allocator configuration"

/-- Why a call was broken off. -/
inductive Abort where
  /-- An internal check failed. -/
  | fault (fault : Fault)
  /-- A number of free blocks was asked for an order that the arena does not have. -/
  | orderOutOfRange
  /-- An arena that should have no allocated block has one. -/
  | notIdle (freeBytes capacity : Nat)
  /-- Memory was given back in a wrong way through the general allocator interface. -/
  | contract (reason : Rejection)
  /-- Memory was given back in a wrong way by an evaluation. -/
  | rejected (reason : Rejection)
  /-- An arena that has to exist could not be set up. -/
  | build (reason : BuildError)
  deriving DecidableEq

/-- The text of an `Abort`. A failed internal check has none of its own. -/
def Abort.message? : Abort → Option String
  | .fault _ => none
  | .orderOutOfRange => some "order out of range"
  | .notIdle freeBytes capacity =>
      some s!"buddy allocator has {freeBytes} free bytes out of {capacity}"
  | .contract reason => some s!"buddy allocator contract violation: {reason.message}"
  | .rejected reason => some s!"deallocation rejected: {reason.message}"
  | .build reason => some s!"failed to construct buddy allocator: {reason.message}"

/-- A call on a state of type `σ`. The state that a broken-off call leaves is kept. -/
abbrev Call (σ : Type) := EStateM Abort σ

/-- A checked value is a call that leaves the state alone. -/
def Call.ofChecked {σ α : Type} : Checked α → Call σ α
  | .ok value => return value
  | .error fault => throw (.fault fault)

/-- A step is a call that is broken off when a check fails. -/
def Call.ofStep {σ α : Type} (step : Step σ α) : Call σ α :=
  EStateM.adaptExcept Abort.fault step

namespace Call

variable {σ α : Type}

@[simp] theorem run_ofChecked_ok (value : α) (state : σ) :
    (Call.ofChecked (.ok value) : Call σ α).run state = .ok value state := rfl

@[simp] theorem run_ofChecked_error (fault : Fault) (state : σ) :
    (Call.ofChecked (.error fault) : Call σ α).run state = .error (.fault fault) state := rfl

@[simp] theorem run_ofStep (step : Step σ α) (state : σ) :
    (Call.ofStep step).run state =
      match step.run state with
      | .ok value after => .ok value after
      | .error fault after => .error (.fault fault) after := by
  show EStateM.adaptExcept Abort.fault step state = _
  unfold EStateM.adaptExcept EStateM.run
  cases step state <;> rfl

end Call

end BuddySystem
