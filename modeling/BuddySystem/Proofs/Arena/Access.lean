import BuddySystem.Arena.Access
import BuddySystem.Proofs.Step

/-!
# Ways to an arena

Whichever way an arena is used, it comes to the same use of the arena. What differs is what is told,
and whether a rejected pointer is an answer or breaks the use off.
-/

namespace BuddySystem.Arena

variable {config : Config} (logged : Logged (Arena config)) (addr size align : Nat)

/-- The arena that the focus on the state sees. -/
theorem view_inside : Logged.inside.view logged = logged.state := rfl

/-- A refusal is told. -/
theorem run_allocateLogged :
    (allocateLogged size align).run logged =
      match (allocate size align).run logged.state with
      | .ok (.ok slice) after => .ok (.ok slice) ⟨after, logged.log⟩
      | .ok (.error refusal) after => .ok (.error refusal) ⟨after, logged.log ++ refusal.events⟩
      | .error fault after => .error fault ⟨after, logged.log⟩ := by
  rw [allocateLogged, EStateM.run_bind, Focus.run_run, view_inside]
  cases (allocate size align).run logged.state with
  | error fault after => rfl
  | ok result after => cases result <;> rfl

/-- A rejection is told. -/
theorem run_deallocateLogged :
    (deallocateLogged addr size align).run logged =
      match (deallocate addr size align).run logged.state with
      | .ok (.ok ()) after => .ok (.ok ()) ⟨after, logged.log⟩
      | .ok (.error reason) after =>
          .ok (.error reason) ⟨after, logged.log ++ [.rejected addr size align reason]⟩
      | .error fault after => .error fault ⟨after, logged.log⟩ := by
  rw [deallocateLogged, EStateM.run_bind, Focus.run_run, view_inside]
  cases (deallocate addr size align).run logged.state with
  | error fault after => rfl
  | ok result after => cases result <;> rfl

theorem stateOf_allocateLogged :
    (stateOf ((allocateLogged size align).run logged)).state =
      stateOf ((allocate size align).run logged.state) := by
  rw [run_allocateLogged]
  cases (allocate size align).run logged.state with
  | error fault after => rfl
  | ok result after => cases result <;> rfl

theorem stateOf_deallocateLogged :
    (stateOf ((deallocateLogged addr size align).run logged)).state =
      stateOf ((deallocate addr size align).run logged.state) := by
  rw [run_deallocateLogged]
  cases (deallocate addr size align).run logged.state with
  | error fault after => rfl
  | ok result after => cases result <;> rfl

/-! ## Arenas as providers -/

variable (abort : Rejection → Abort)

/-- To a provider's user, all refusals are the same. -/
theorem run_provider_allocate :
    ((provider abort).allocate size align).run logged =
      match (allocate size align).run logged.state with
      | .ok (.ok slice) after => .ok (some slice) ⟨after, logged.log⟩
      | .ok (.error refusal) after => .ok none ⟨after, logged.log ++ refusal.events⟩
      | .error fault after => .error (.fault fault) ⟨after, logged.log⟩ := by
  rw [provider, EStateM.run_bind, Call.run_ofStep, run_allocateLogged]
  cases (allocate size align).run logged.state with
  | error fault after => rfl
  | ok result after => cases result <;> rfl

/-- A rejection breaks the call off, and the arena stays as the rejection leaves it. -/
theorem run_provider_deallocate :
    ((provider abort).deallocate addr size align).run logged =
      match (deallocate addr size align).run logged.state with
      | .ok (.ok ()) after => .ok () ⟨after, logged.log⟩
      | .ok (.error reason) after =>
          .error (abort reason) ⟨after, logged.log ++ [.rejected addr size align reason]⟩
      | .error fault after => .error (.fault fault) ⟨after, logged.log⟩ := by
  rw [provider, EStateM.run_bind, Call.run_ofStep, run_deallocateLogged]
  cases (deallocate addr size align).run logged.state with
  | error fault after => rfl
  | ok result after => cases result <;> rfl

variable {logged addr size align abort}

/-- What a provider grants is a slice of the arena. -/
theorem run_allocate_of_provider {granted : Slice} {after : Logged (Arena config)}
    (h : ((provider abort).allocate size align).run logged = .ok (some granted) after) :
    (allocate size align).run logged.state = .ok (.ok granted) after.state := by
  rw [run_provider_allocate] at h
  split at h
  · next hrun =>
      cases h
      exact hrun
  · cases h
  · cases h

/-- What a provider takes back is a block of the arena. -/
theorem run_deallocate_of_provider {after : Logged (Arena config)}
    (h : ((provider abort).deallocate addr size align).run logged = .ok () after) :
    (deallocate addr size align).run logged.state = .ok (.ok ()) after.state := by
  rw [run_provider_deallocate] at h
  split at h
  · next hrun =>
      cases h
      exact hrun
  · cases h
  · cases h

variable (logged addr size align abort)

theorem stateOf_provider_allocate :
    (stateOf (((provider abort).allocate size align).run logged)).state =
      stateOf ((allocate size align).run logged.state) := by
  rw [run_provider_allocate]
  cases (allocate size align).run logged.state with
  | error fault after => rfl
  | ok result after => cases result <;> rfl

theorem stateOf_provider_deallocate :
    (stateOf (((provider abort).deallocate addr size align).run logged)).state =
      stateOf ((deallocate addr size align).run logged.state) := by
  rw [run_provider_deallocate]
  cases (deallocate addr size align).run logged.state with
  | error fault after => rfl
  | ok result after => cases result <;> rfl

end BuddySystem.Arena
