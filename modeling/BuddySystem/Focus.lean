/-!
# Acting on a part of a state

A `Focus` names a part of a larger state. A step on the part becomes a step on the whole that
leaves everything else alone, whether the step succeeds or fails.
-/

namespace BuddySystem

/-- A part of a state: how to see it and how to put a new one in its place. -/
structure Focus (whole part : Type) where
  /-- The part. -/
  view : whole → part
  /-- The whole with a new part. -/
  update : part → whole → whole

/-- Runs a step on the part. -/
def Focus.run {whole part ε α : Type} (focus : Focus whole part) (step : EStateM ε part α) :
    EStateM ε whole α := fun state =>
  match step (focus.view state) with
  | .ok value part => .ok value (focus.update part state)
  | .error fault part => .error fault (focus.update part state)

@[simp] theorem Focus.run_run {whole part ε α : Type} (focus : Focus whole part)
    (step : EStateM ε part α) (state : whole) :
    (focus.run step).run state =
      match step.run (focus.view state) with
      | .ok value part => .ok value (focus.update part state)
      | .error fault part => .error fault (focus.update part state) := rfl

/-- The first component of a pair. -/
def Focus.first {α β : Type} : Focus (α × β) α :=
  ⟨Prod.fst, fun part state => (part, state.2)⟩

/-- The second component of a pair. -/
def Focus.second {α β : Type} : Focus (α × β) β :=
  ⟨Prod.snd, fun part state => (state.1, part)⟩

end BuddySystem
