import BuddySystem.Proofs.Arena.Access
import BuddySystem.Proofs.Arena.Runs

/-!
# Attempts that fail

An arena is used directly or behind the general allocator interface, and every attempt to use it may
fail: a request is refused, a pointer is rejected, and behind the interface the rejection breaks the
call off. However late an arena finds out that an attempt fails, it has changed nothing by then
(`Keeps.run_attempt`).

What comes of an attempt and the arena that it leaves do not depend on what was told before
(`Attempt.run_congr`). So the attempts that fail can be left out of a run, wherever they stand: all
others come to the same, and they lead to the same arena (`erasable_run`).
-/

namespace BuddySystem

open Arena

/-- A way to use an arena. -/
inductive Way where
  | direct
  /-- Behind the general allocator interface. -/
  | general

/-- An attempt to use an arena. -/
structure Attempt where
  way : Way
  use : Use

/-- What comes of an attempt. -/
inductive Outcome where
  | served (slice : Slice)
  | refused
  | released
  | rejected (reason : Rejection)
  | broken (abort : Abort)
  deriving DecidableEq

/-- Whether an attempt comes to what it was made for. -/
def Outcome.succeeded : Outcome → Bool
  | .served _ => true
  | .released => true
  | .refused => false
  | .rejected _ => false
  | .broken _ => false

/-- What becomes of a rejection. -/
def Way.rejected (reason : Rejection) : Way → Outcome
  | .direct => .rejected reason
  | .general => .broken (.contract reason)

variable {config : Config}

namespace Attempt

/-- Makes an attempt. -/
def perform : Attempt → Call (Logged (Arena config)) Outcome
  | ⟨.direct, .allocate size align⟩ => do
      match ← Call.ofStep (allocateLogged size align) with
      | .ok slice => return .served slice
      | .error _ => return .refused
  | ⟨.direct, .deallocate addr size align⟩ => do
      match ← Call.ofStep (deallocateLogged addr size align) with
      | .ok () => return .released
      | .error reason => return .rejected reason
  | ⟨.general, .allocate size align⟩ => do
      match ← Arena.general.allocate size align with
      | some slice => return .served slice
      | none => return .refused
  | ⟨.general, .deallocate addr size align⟩ => do
      Arena.general.deallocate addr size align
      return .released

/-- Makes an attempt, and goes on with the state that is left if it is broken off. -/
def run (attempt : Attempt) (logged : Logged (Arena config)) : Outcome × Logged (Arena config) :=
  match attempt.perform.run logged with
  | .ok outcome after => (outcome, after)
  | .error abort after => (.broken abort, after)

end Attempt

namespace Logged

/-- The state after a number of attempts. -/
def afterAll (logged : Logged (Arena config)) (attempts : List Attempt) : Logged (Arena config) :=
  attempts.foldl (fun logged attempt => (attempt.run logged).2) logged

/-- A number of attempts, one after the other, each with what comes of it. -/
def history : Logged (Arena config) → List Attempt → List (Attempt × Outcome)
  | _, [] => []
  | logged, attempt :: attempts =>
      (attempt, (attempt.run logged).1) :: history (attempt.run logged).2 attempts

/-- The part of a history in which nothing fails. -/
def successes (logged : Logged (Arena config)) (attempts : List Attempt) :
    List (Attempt × Outcome) :=
  (logged.history attempts).filter fun entry => entry.2.succeeded

/-- The attempts that do not fail. -/
def survivors (logged : Logged (Arena config)) (attempts : List Attempt) : List Attempt :=
  (logged.successes attempts).map Prod.fst

end Logged

/-! ## Single attempts -/

section

variable {start : Arena config} {logged other : Logged (Arena config)} {ledger : Ledger}

/-- What comes of a request is the same either way. -/
theorem Attempt.run_allocate (way : Way) (logged : Logged (Arena config)) (size align : Nat) :
    (Attempt.mk way (.allocate size align)).run logged =
      match (allocate size align).run logged.state with
      | .ok (.ok slice) after => (.served slice, ⟨after, logged.log⟩)
      | .ok (.error refusal) after => (.refused, ⟨after, logged.log ++ refusal.events⟩)
      | .error fault after => (.broken (.fault fault), ⟨after, logged.log⟩) := by
  cases way with
  | direct =>
      rw [run, perform, EStateM.run_bind, Call.run_ofStep, run_allocateLogged]
      cases (allocate size align).run logged.state with
      | error fault after => rfl
      | ok result after => cases result <;> rfl
  | general =>
      rw [run, perform, EStateM.run_bind, Arena.general, run_provider_allocate]
      cases (allocate size align).run logged.state with
      | error fault after => rfl
      | ok result after => cases result <;> rfl

/-- A deallocation is accepted, or rejected in the way that was chosen. -/
theorem Attempt.run_deallocate (way : Way) (logged : Logged (Arena config))
    (addr size align : Nat) :
    (Attempt.mk way (.deallocate addr size align)).run logged =
      match (deallocate addr size align).run logged.state with
      | .ok (.ok ()) after => (.released, ⟨after, logged.log⟩)
      | .ok (.error reason) after =>
          (way.rejected reason, ⟨after, logged.log ++ [.rejected addr size align reason]⟩)
      | .error fault after => (.broken (.fault fault), ⟨after, logged.log⟩) := by
  cases way with
  | direct =>
      rw [run, perform, EStateM.run_bind, Call.run_ofStep, run_deallocateLogged]
      cases (deallocate addr size align).run logged.state with
      | error fault after => rfl
      | ok result after => cases result <;> rfl
  | general =>
      rw [run, perform, EStateM.run_bind, Arena.general, run_provider_deallocate]
      cases (deallocate addr size align).run logged.state with
      | error fault after => rfl
      | ok result after => cases result <;> rfl

/-- What was told before has no influence. -/
theorem Attempt.run_congr (attempt : Attempt) (h : logged.state = other.state) :
    (attempt.run logged).1 = (attempt.run other).1 ∧
      (attempt.run logged).2.state = (attempt.run other).2.state := by
  obtain ⟨way, use⟩ := attempt
  cases use with
  | allocate size align =>
      rw [run_allocate, run_allocate, h]
      split <;> exact ⟨rfl, rfl⟩
  | deallocate addr size align =>
      rw [run_deallocate, run_deallocate, h]
      split <;> exact ⟨rfl, rfl⟩

theorem Way.succeeded_rejected (way : Way) (reason : Rejection) :
    (way.rejected reason).succeeded = false := by
  cases way <;> rfl

namespace Arena

/-- An attempt fails and changes nothing, or it succeeds. -/
theorem Keeps.run_attempt (h : logged.state.Keeps start ledger) (attempt : Attempt) :
    ((attempt.run logged).1.succeeded = false ∧ (attempt.run logged).2.state = logged.state) ∨
    ((attempt.run logged).1.succeeded = true ∧
      ∃ rest, (attempt.run logged).2.state.Keeps start rest) := by
  obtain ⟨way, use⟩ := attempt
  cases use with
  | allocate size align =>
      rw [Attempt.run_allocate]
      rcases h.allocate_cases size align with
        ⟨refusal, hrun, -⟩ | ⟨_, _, rest, _, -, -, hrun, hafter⟩
      · rw [hrun]
        exact .inl ⟨rfl, rfl⟩
      · rw [hrun]
        exact .inr ⟨rfl, rest, hafter⟩
  | deallocate addr size align =>
      rw [Attempt.run_deallocate]
      rcases h.deallocate_cases addr size align with
        ⟨reason, -, hrun⟩ | ⟨block, _, -, hrun, hafter⟩
      · rw [hrun]
        exact .inl ⟨way.succeeded_rejected reason, rfl⟩
      · rw [hrun]
        exact .inr ⟨rfl, _, hafter⟩

/-! ## Many attempts -/

/-- An arena keeps a ledger whatever is attempted. -/
theorem Keeps.afterAll (h : logged.state.Keeps start ledger) (attempts : List Attempt) :
    ∃ rest, (logged.afterAll attempts).state.Keeps start rest := by
  induction attempts generalizing logged ledger with
  | nil => exact ⟨ledger, h⟩
  | cons attempt attempts ih =>
      rcases h.run_attempt attempt with ⟨-, hsame⟩ | ⟨-, rest, hrest⟩
      · rw [← hsame] at h
        exact ih h
      · exact ih hrest

/-- Without the attempts that fail, all others come to the same and lead to the same arena. -/
theorem Keeps.erase (h : logged.state.Keeps start ledger) (hsame : other.state = logged.state)
    (attempts : List Attempt) :
    other.history (logged.survivors attempts) = logged.successes attempts ∧
      (other.afterAll (logged.survivors attempts)).state = (logged.afterAll attempts).state := by
  -- The two runs differ in what was told, but never in the arena.
  induction attempts generalizing logged other ledger with
  | nil => exact ⟨rfl, hsame⟩
  | cons attempt attempts ih =>
      rcases h.run_attempt attempt with ⟨hfails, hkept⟩ | ⟨hsucceeds, rest, hrest⟩
      · have hsuccesses : logged.successes (attempt :: attempts) =
            (attempt.run logged).2.successes attempts :=
          List.filter_cons_of_neg (by rw [hfails]; decide)
        rw [Logged.survivors, hsuccesses]
        rw [← hkept] at h hsame
        exact ih h hsame
      · have hsuccesses : logged.successes (attempt :: attempts) =
            (attempt, (attempt.run logged).1) :: (attempt.run logged).2.successes attempts :=
          List.filter_cons_of_pos hsucceeds
        obtain ⟨houtcome, hstate⟩ := attempt.run_congr hsame
        obtain ⟨hhistory, hafter⟩ := ih hrest hstate
        rw [Logged.survivors, hsuccesses, List.map_cons]
        refine ⟨?_, hafter⟩
        rw [Logged.history, houtcome]
        exact congrArg _ hhistory

end Arena

end

/-- The attempts of a run that fail might as well not have been made. -/
structure Erasable (logged : Logged (Arena config)) (attempts : List Attempt) : Prop where
  /-- An attempt that fails leaves the arena as it was, down to the links that are not used. -/
  unchanged : ∀ before attempt after, attempts = before ++ attempt :: after →
    (attempt.run (logged.afterAll before)).1.succeeded = false →
    (attempt.run (logged.afterAll before)).2.state = (logged.afterAll before).state
  /-- All other attempts come to the same without it. -/
  history_survivors : logged.history (logged.survivors attempts) = logged.successes attempts
  afterAll_survivors : (logged.afterAll (logged.survivors attempts)).state =
    (logged.afterAll attempts).state

/-- In every run of an arena the attempts that fail can be left out. -/
theorem erasable_run {σ : Type} {provider : Provider σ} {before after : σ} {start : Arena config}
    (h : (build config provider).run before = .ok (.ok start) after) (log : List Event)
    (attempts : List Attempt) : Erasable ⟨start, log⟩ attempts := by
  have hkeeps : (Logged.mk start log).state.Keeps start (Ledger.idle config.maxOrder) :=
    keeps_of_build h
  obtain ⟨hhistory, hafter⟩ := hkeeps.erase rfl attempts
  refine ⟨fun before attempt after _ hfails => ?_, hhistory, hafter⟩
  obtain ⟨ledger, hledger⟩ := hkeeps.afterAll before
  rcases hledger.run_attempt attempt with ⟨-, hkept⟩ | ⟨hsucceeds, -⟩
  · exact hkept
  · cases hsucceeds.symm.trans hfails

/-- Two requests, one of which cannot be served, a block that is given back twice, and one that is
given back with the size of half of it. -/
theorem erasable_run_small :
    ∃ start after, (build Config.small Host.heap).run Host.fresh = .ok (.ok start) after ∧
      ((Logged.mk start []).history [⟨.direct, .allocate 32 16⟩, ⟨.general, .allocate 64 1⟩,
          ⟨.direct, .deallocate start.span.addr 16 16⟩,
          ⟨.general, .deallocate start.span.addr 17 1⟩,
          ⟨.general, .deallocate start.span.addr 17 1⟩]).map (·.2) =
        [.served ⟨start.span.addr, 32⟩, .refused, .rejected .notAllocated, .released,
          .broken (.contract .notAllocated)] ∧
      Erasable ⟨start, []⟩ [⟨.direct, .allocate 32 16⟩, ⟨.general, .allocate 64 1⟩,
        ⟨.direct, .deallocate start.span.addr 16 16⟩,
        ⟨.general, .deallocate start.span.addr 17 1⟩,
        ⟨.general, .deallocate start.span.addr 17 1⟩] := by
  obtain ⟨start, after, h⟩ := exists_build_small
  refine ⟨start, after, h, ?_, erasable_run h [] _⟩
  cases h
  decide +kernel

end BuddySystem
