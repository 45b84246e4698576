/-!
# Broken internal conditions

Every check that the allocator makes on itself can fail with a `Fault`. A fault is a defect of
the allocator, never of its caller, so the operations that may fault are kept apart from the
ones that refuse a request: a fault travels in the error channel, a refusal is an ordinary
result. A step carries a state along and keeps what a failing step has made of it.
-/

namespace BuddySystem

/-- Why an internal check failed. -/
inductive Fault where
  /-- Arithmetic left the range of a machine word. -/
  | overflow
  /-- An index is not below the number of entries it selects from. -/
  | outOfRange
  /-- A condition that the bookkeeping relies on does not hold. -/
  | violated
  deriving DecidableEq

/-- A value that may be missing because an internal check failed. -/
abbrev Checked := Except Fault

/-- Succeeds exactly when the condition holds. -/
def Checked.require (condition : Prop) [Decidable condition] (fault : Fault) : Checked Unit :=
  if condition then .ok () else .error fault

/-- A step on a state of type `σ`. The state that a failing step leaves is kept. -/
abbrev Step (σ : Type) := EStateM Fault σ

/-- A checked value is a step that leaves the state alone. -/
instance {σ : Type} : MonadLift Checked (Step σ) where
  monadLift
    | .ok value => pure value
    | .error fault => throw fault

/-- A checked value that is there is the result of its step. -/
@[simp] theorem run_liftM_ok {σ α : Type} (value : α) (state : σ) :
    (liftM (Except.ok value : Checked α) : Step σ α).run state = .ok value state := rfl

/-- A checked value that is missing ends its step. -/
@[simp] theorem run_liftM_error {σ α : Type} (fault : Fault) (state : σ) :
    (liftM (Except.error fault : Checked α) : Step σ α).run state = .error fault state := rfl

/-- A function is applied to the result of a step that has one. -/
@[simp] theorem run_map {ε σ α β : Type} (f : α → β) (step : EStateM ε σ α) (state : σ) :
    (f <$> step).run state =
      match step.run state with
      | .ok value after => .ok (f value) after
      | .error reason after => .error reason after := by
  show EStateM.map f step state = _
  unfold EStateM.map EStateM.run
  cases step state <;> rfl

end BuddySystem
