import BuddySystem.Error
import BuddySystem.Focus

/-!
# Steps that succeeded

A step that is made of two steps succeeds exactly if both do. These lemmas take the success of a
composed step apart.

A step `Entails` another one if that one has the same success whenever the first one succeeds. A
step with additional checks entails the step without them, and `Entails` is closed under the ways
in which steps are composed.

A step on a state that holds more than another one `Mirrors` a step on that one if both come to the
same, whatever else becomes of the larger state.
-/

namespace BuddySystem

/-- A checked value that depends on another one has a value if both have. -/
theorem Checked.bind_eq_ok {α β : Type} {value : Checked α} {next : α → Checked β} {result : β} :
    value >>= next = .ok result ↔ ∃ first, value = .ok first ∧ next first = .ok result := by
  cases value with
  | error fault => simp [bind, Except.bind]
  | ok first => simp [bind, Except.bind]

/-- A check succeeds exactly if its condition holds. -/
theorem Checked.require_eq_ok {condition : Prop} [Decidable condition] {fault : Fault}
    {done : Unit} : Checked.require condition fault = .ok done ↔ condition := by
  simp [Checked.require]

/-- One step after the other succeeds exactly if both do. -/
theorem run_bind_eq_ok {ε σ α β : Type} {step : EStateM ε σ α} {next : α → EStateM ε σ β}
    {before after : σ} {result : β} :
    (step >>= next).run before = .ok result after ↔
      ∃ value between, step.run before = .ok value between ∧
        (next value).run between = .ok result after := by
  rw [EStateM.run_bind]
  cases step.run before with
  | error reason between => simp
  | ok value between =>
      constructor
      · exact fun h => ⟨value, between, rfl, h⟩
      · intro hsteps
        obtain ⟨_, _, heq, h⟩ := hsteps
        cases heq
        exact h

/-- The state that a step leaves, whether it succeeds or fails. -/
def stateOf {ε σ α : Type} : EStateM.Result ε σ α → σ
  | .ok _ after => after
  | .error _ after => after

/-- The result of a step, or why it fails. -/
def outcomeOf {ε σ α : Type} : EStateM.Result ε σ α → Except ε α
  | .ok value _ => .ok value
  | .error reason _ => .error reason

/-- A step leaves the same state if its result is thrown away. -/
theorem stateOf_discard {ε σ α : Type} (step : EStateM ε σ α) (before : σ) :
    stateOf ((do let _ ← step; return ()).run before) = stateOf (step.run before) := by
  rw [EStateM.run_bind]
  cases step.run before <;> rfl

/-- A step on a part has the result of the step. -/
theorem outcomeOf_focus {ε σ τ α : Type} (focus : Focus τ σ) (step : EStateM ε σ α) (before : τ) :
    outcomeOf ((focus.run step).run before) = outcomeOf (step.run (focus.view before)) := by
  rw [Focus.run_run]
  cases step.run (focus.view before) <;> rfl

/-- A step on a part leaves the part as the step does. -/
theorem stateOf_focus {ε σ τ α : Type} (focus : Focus τ σ) (step : EStateM ε σ α) (before : τ) :
    stateOf ((focus.run step).run before) =
      focus.update (stateOf (step.run (focus.view before))) before := by
  rw [Focus.run_run]
  cases step.run (focus.view before) <;> rfl

/-- A step leaves the same state as a call. -/
theorem stateOf_ofStep {σ α : Type} (step : Step σ α) (before : σ) :
    stateOf ((Call.ofStep step).run before) = stateOf (step.run before) := by
  rw [Call.run_ofStep]
  cases step.run before <;> rfl

/-! ## Steps with additional checks -/

/-- Whether every success of the first step is one of the second step. -/
def Entails {ε σ α : Type} (first second : EStateM ε σ α) : Prop :=
  ∀ before value after, first.run before = .ok value after → second.run before = .ok value after

namespace Entails

variable {ε σ τ α β : Type}

theorem refl (step : EStateM ε σ α) : Entails step step :=
  fun _ _ _ h => h

theorem of_eq {first second : EStateM ε σ α} (h : first = second) : Entails first second :=
  h ▸ refl first

/-- A step that fails entails every step. -/
theorem of_throw (reason : ε) (step : EStateM ε σ α) : Entails (throw reason) step := by
  intro before value after h
  cases h

/-- Steps one after the other entail those that they entail one after the other. -/
theorem bind {first second : EStateM ε σ α} {next following : α → EStateM ε σ β}
    (h : Entails first second) (hnext : ∀ value, Entails (next value) (following value)) :
    Entails (first >>= next) (second >>= following) := by
  intro before result after hrun
  rw [run_bind_eq_ok] at hrun ⊢
  obtain ⟨value, between, hfirst, hrest⟩ := hrun
  exact ⟨value, between, h _ _ _ hfirst, hnext value _ _ _ hrest⟩

theorem ite {condition : Prop} [Decidable condition] {first second next following : EStateM ε σ α}
    (h : Entails first second) (hnext : Entails next following) :
    Entails (if condition then first else next) (if condition then second else following) := by
  split
  · exact h
  · exact hnext

/-- A check in front of a step can be left out. -/
theorem of_require {condition : Prop} [Decidable condition] {fault : Fault}
    {next : Unit → Step σ α} {step : Step σ α} (h : Entails (next ()) step) :
    Entails ((liftM (Checked.require condition fault) : Step σ Unit) >>= next) step := by
  intro before value after hrun
  by_cases hcondition : condition
  · rw [Checked.require, if_pos hcondition, EStateM.run_bind, run_liftM_ok] at hrun
    exact h _ _ _ hrun
  · rw [Checked.require, if_neg hcondition, EStateM.run_bind, run_liftM_error] at hrun
    cases hrun

/-- What holds of steps on a part holds of them as steps on the whole. -/
theorem focus (focus : Focus τ σ) {first second : EStateM ε σ α} (h : Entails first second) :
    Entails (focus.run first) (focus.run second) := by
  intro before value after hrun
  rw [Focus.run_run] at hrun ⊢
  cases hfirst : first.run (focus.view before) with
  | error reason part => simp [hfirst] at hrun
  | ok result part =>
      rw [h _ _ _ hfirst]
      rw [hfirst] at hrun
      exact hrun

end Entails

/-! ## Steps on states that hold more -/

/-- What a step came to, as a view of the states shows it. -/
def viewed {ε σ τ α : Type} (view : τ → σ) : EStateM.Result ε τ α → EStateM.Result ε σ α
  | .ok value after => .ok value (view after)
  | .error reason after => .error reason (view after)

theorem viewed_viewed {ε σ τ ρ α : Type} (outer : σ → ρ) (inner : τ → σ)
    (result : EStateM.Result ε τ α) :
    viewed outer (viewed inner result) = viewed (fun state => outer (inner state)) result := by
  cases result <;> rfl

/-- A step on a part leaves the whole with what it leaves of the part. -/
theorem Focus.run_eq_viewed {ε σ τ α : Type} (focus : Focus τ σ) (step : EStateM ε σ α)
    (before : τ) :
    (focus.run step).run before =
      viewed (fun part => focus.update part before) (step.run (focus.view before)) := by
  rw [Focus.run_run]
  cases step.run (focus.view before) <;> rfl

/-- Whether a step does what another step does, as a view of the states shows it. -/
def Mirrors {ε σ τ α : Type} (view : τ → σ) (step : EStateM ε τ α) (mirrored : EStateM ε σ α) :
    Prop :=
  ∀ before, viewed view (step.run before) = mirrored.run (view before)

namespace Mirrors

variable {ε σ τ α β : Type}

theorem pure (view : τ → σ) (value : α) :
    Mirrors view (Pure.pure value : EStateM ε τ α) (Pure.pure value) :=
  fun _ => rfl

/-- Steps one after the other mirror those that they mirror one after the other. -/
theorem bind {view : τ → σ} {step : EStateM ε τ α} {mirrored : EStateM ε σ α}
    {next : α → EStateM ε τ β} {following : α → EStateM ε σ β} (h : Mirrors view step mirrored)
    (hnext : ∀ value, Mirrors view (next value) (following value)) :
    Mirrors view (step >>= next) (mirrored >>= following) := by
  intro before
  rw [EStateM.run_bind, EStateM.run_bind, ← h before]
  cases step.run before with
  | error reason after => rfl
  | ok value after => exact hnext value after

/-- A step on a part does on the whole what it does on the part. -/
theorem focus (focus : Focus τ σ)
    (hview : ∀ part whole, focus.view (focus.update part whole) = part) (step : EStateM ε σ α) :
    Mirrors focus.view (focus.run step) step := by
  intro before
  rw [Focus.run_run]
  cases step.run (focus.view before) with
  | error reason part => rw [viewed, hview]
  | ok value part => rw [viewed, hview]

theorem lift (view : τ → σ) (checked : Checked α) :
    Mirrors view (liftM checked : Step τ α) (liftM checked) := by
  intro before
  cases checked <;> rfl

variable {view : τ → σ}

theorem ite {condition : Prop} [Decidable condition] {first second : EStateM ε τ α}
    {mirrored other : EStateM ε σ α} (h : Mirrors view first mirrored)
    (hother : Mirrors view second other) :
    Mirrors view (if condition then first else second) (if condition then mirrored else other) := by
  split
  · exact h
  · exact hother

/-- What follows on a look at the state may depend on what the view shows. -/
theorem get_bind {next : τ → EStateM ε τ β} {following : σ → EStateM ε σ β}
    (h : ∀ whole, Mirrors view (next whole) (following (view whole))) :
    Mirrors view (get >>= next) (get >>= following) :=
  fun before => h before before

/-- A change that the view does not show can be left out. -/
theorem modify_bind {f : τ → τ} {next : Unit → EStateM ε τ β} {following : EStateM ε σ β}
    (hf : ∀ whole, view (f whole) = view whole) (h : Mirrors view (next ()) following) :
    Mirrors view (modify f >>= next) following := by
  intro before
  have hnext := h (f before)
  rw [hf] at hnext
  exact hnext

end Mirrors

end BuddySystem
