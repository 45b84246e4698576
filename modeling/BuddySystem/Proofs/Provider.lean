import BuddySystem.Provider
import BuddySystem.Proofs.Step

/-!
# Calls that are written down or counted

A provider whose calls are written down answers as the provider does. A request is written down when
it is answered, so not if it is broken off, and memory that is given back before it is. A provider
whose calls are counted counts each of them, whatever comes of it, as long as words are enough.
-/

namespace BuddySystem.Provider

variable {σ τ : Type} (provider : Provider σ) (focus : Focus τ σ) (note : Transfer → τ → τ)

/-- A request is forwarded, and noted if it is not broken off. -/
theorem run_allocate_recordedBy (size align : Nat) (before : τ) :
    ((provider.recordedBy focus note).allocate size align).run before =
      match (provider.allocate size align).run (focus.view before) with
      | .ok granted part => .ok granted (note (.allocate size align granted)
          (focus.update part before))
      | .error abort part => .error abort (focus.update part before) := by
  simp only [recordedBy, EStateM.run_bind, Focus.run_run]
  cases (provider.allocate size align).run (focus.view before) <;> rfl

/-- Memory that is given back is noted before it is forwarded. -/
theorem run_deallocate_recordedBy (addr size align : Nat) (before : τ) :
    ((provider.recordedBy focus note).deallocate addr size align).run before =
      (focus.run (provider.deallocate addr size align)).run
        (note (.deallocate addr size align) before) := by
  simp only [recordedBy, EStateM.run_bind, EStateM.run_modify]

theorem run_allocate_recorded (size align : Nat) (source : Recorded σ) :
    (provider.recorded.allocate size align).run source =
      match (provider.allocate size align).run source.inner with
      | .ok granted after =>
          .ok granted ⟨after, source.transfers ++ [.allocate size align granted]⟩
      | .error abort after => .error abort ⟨after, source.transfers⟩ :=
  provider.run_allocate_recordedBy _ _ size align source

/-- Memory that is given back to a recorded provider is given back to the provider. -/
theorem outcomeOf_deallocate_recorded (addr size align : Nat) (source : Recorded σ) :
    outcomeOf ((provider.recorded.deallocate addr size align).run source) =
      outcomeOf ((provider.deallocate addr size align).run source.inner) := by
  rw [recorded, run_deallocate_recordedBy, outcomeOf_focus]
  rfl

theorem stateOf_deallocate_recorded (addr size align : Nat) (source : Recorded σ) :
    stateOf ((provider.recorded.deallocate addr size align).run source) =
      ⟨stateOf ((provider.deallocate addr size align).run source.inner),
        source.transfers ++ [.deallocate addr size align]⟩ := by
  rw [recorded, run_deallocate_recordedBy, stateOf_focus]
  rfl

/-! ## Counting -/

/-- A request is counted, whatever comes of it, as long as its number is a word. -/
theorem run_allocate_counted (size align : Nat) {before : Counted σ}
    (h : before.counts.allocs + 1 < Word.bound) :
    (provider.counted.allocate size align).run before =
      viewed (fun after => ⟨after, { before.counts with allocs := before.counts.allocs + 1 }⟩)
        ((provider.allocate size align).run before.inner) := by
  have hadd : Word.add before.counts.allocs 1 = .ok (before.counts.allocs + 1) := if_pos h
  simp only [counted, EStateM.run_bind, EStateM.run_get, hadd, Call.run_ofChecked_ok,
    EStateM.run_modify]
  exact Focus.run_eq_viewed _ _ _

/-- So is memory that is given back. -/
theorem run_deallocate_counted (addr size align : Nat) {before : Counted σ}
    (h : before.counts.deallocs + 1 < Word.bound) :
    (provider.counted.deallocate addr size align).run before =
      viewed (fun after => ⟨after, { before.counts with deallocs := before.counts.deallocs + 1 }⟩)
        ((provider.deallocate addr size align).run before.inner) := by
  have hadd : Word.add before.counts.deallocs 1 = .ok (before.counts.deallocs + 1) := if_pos h
  simp only [counted, EStateM.run_bind, EStateM.run_get, hadd, Call.run_ofChecked_ok,
    EStateM.run_modify]
  exact Focus.run_eq_viewed _ _ _

/-! ## States without the calls -/

section

variable (hview : ∀ part whole, focus.view (focus.update part whole) = part)
  (hnote : ∀ transfer whole, focus.view (note transfer whole) = focus.view whole)
include hview hnote

/-- Noting the calls does not change what a request comes to. -/
theorem mirrors_allocate_recordedBy (size align : Nat) :
    Mirrors focus.view ((provider.recordedBy focus note).allocate size align)
      (provider.allocate size align) := by
  intro before
  rw [run_allocate_recordedBy]
  cases (provider.allocate size align).run (focus.view before) with
  | error abort part => rw [viewed, hview]
  | ok granted part => rw [viewed, hnote, hview]

/-- Noting the calls does not change what giving memory back comes to. -/
theorem mirrors_deallocate_recordedBy (addr size align : Nat) :
    Mirrors focus.view ((provider.recordedBy focus note).deallocate addr size align)
      (provider.deallocate addr size align) := by
  intro before
  rw [run_deallocate_recordedBy, ← hnote (.deallocate addr size align) before]
  exact Mirrors.focus focus hview _ _

end

end BuddySystem.Provider
