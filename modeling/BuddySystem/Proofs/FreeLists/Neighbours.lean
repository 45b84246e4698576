import Mathlib.Data.List.Nodup

/-!
# Neighbours in a list

The elements in front of and behind an element of a list without duplicates. A doubly linked list
stores these two for each of its elements, so what adding and erasing an element does to them is
what it has to do to the links: `after_erase` and `before_erase` say that erasing an element joins
its two neighbours and changes nothing else.
-/

namespace BuddySystem.Neighbours

variable {α : Type} [DecidableEq α]

/-- The element behind an element, if there is one. -/
def after : List α → α → Option α
  | [], _ => none
  | head :: rest, x => if x = head then rest.head? else after rest x

/-- The element in front of an element, if there is one. -/
def before : List α → α → Option α
  | [], _ => none
  | head :: rest, x => if rest.head? = some x then some head else before rest x

/-- Two neighbours are elements. -/
theorem mem_of_after {l : List α} {x y : α} (h : after l x = some y) : x ∈ l ∧ y ∈ l := by
  induction l with
  | nil => simp [after] at h
  | cons head rest ih =>
      rw [after] at h
      split at h
      · next heq => exact ⟨by simp [heq], List.mem_cons_of_mem _ (List.mem_of_head? h)⟩
      · next hne =>
          obtain ⟨hx, hy⟩ := ih h
          exact ⟨List.mem_cons_of_mem _ hx, List.mem_cons_of_mem _ hy⟩

theorem mem_of_before {l : List α} {x y : α} (h : before l x = some y) : x ∈ l ∧ y ∈ l := by
  induction l with
  | nil => simp [before] at h
  | cons head rest ih =>
      rw [before] at h
      split at h
      · next heq =>
          cases h
          exact ⟨List.mem_cons_of_mem _ (List.mem_of_head? heq), by simp⟩
      · next hne =>
          obtain ⟨hx, hy⟩ := ih h
          exact ⟨List.mem_cons_of_mem _ hx, List.mem_cons_of_mem _ hy⟩

theorem before_eq_none {l : List α} {x : α} (h : x ∉ l) : before l x = none := by
  cases hbefore : before l x with
  | none => rfl
  | some y => exact absurd (mem_of_before hbefore).1 h

/-- The first element has no element in front of it. -/
theorem before_head {l : List α} (hnodup : l.Nodup) {x : α} (h : l.head? = some x) :
    before l x = none := by
  cases l with
  | nil => rfl
  | cons first rest =>
      obtain ⟨hfirst, -⟩ := List.nodup_cons.1 hnodup
      obtain rfl : first = x := Option.some.inj h
      rw [before, if_neg (fun hhead => hfirst (List.mem_of_head? hhead)), before_eq_none hfirst]

/-- Exactly the first element has no element in front of it. -/
theorem before_eq_none_iff {l : List α} (hnodup : l.Nodup) {x : α} (hx : x ∈ l) :
    before l x = none ↔ l.head? = some x := by
  refine ⟨fun h => ?_, before_head hnodup⟩
  induction l with
  | nil => simp at hx
  | cons first rest ih =>
      obtain ⟨-, hrest⟩ := List.nodup_cons.1 hnodup
      rw [before] at h
      split at h
      · simp at h
      · next hne =>
          rcases List.mem_cons.1 hx with rfl | hmem
          · rfl
          · exact absurd (ih hrest hmem h) hne

/-- Of two neighbours each one is the neighbour of the other. -/
theorem after_eq_some_iff {l : List α} (hnodup : l.Nodup) {x y : α} :
    after l x = some y ↔ before l y = some x := by
  induction l with
  | nil => simp [after, before]
  | cons first rest ih =>
      obtain ⟨hfirst, hrest⟩ := List.nodup_cons.1 hnodup
      rw [after, before]
      by_cases hx : x = first
      · subst hx
        have hbefore : before rest y ≠ some x := fun h => hfirst (mem_of_before h).2
        by_cases hy : rest.head? = some y <;> simp [hy, hbefore]
      · rw [if_neg hx, ih hrest]
        by_cases hy : rest.head? = some y
        · simp [hy, before_head hrest hy, Ne.symm hx]
        · simp [hy]

theorem after_append {shown rest : List α} {x : α} (hnodup : (shown ++ x :: rest).Nodup) :
    after (shown ++ x :: rest) x = rest.head? := by
  induction shown with
  | nil => simp [after]
  | cons first shown ih =>
      obtain ⟨hfirst, hrest⟩ := List.nodup_cons.1 hnodup
      have hne : x ≠ first := fun heq => hfirst (by simp [heq])
      rw [List.cons_append, after, if_neg hne, ih hrest]

/-! ## Erasing an element -/

/-- Without its head, a list starts with what was after it. -/
theorem head?_erase (l : List α) (y : α) :
    (l.erase y).head? = if l.head? = some y then after l y else l.head? := by
  cases l with
  | nil => simp
  | cons first rest =>
      by_cases hy : first = y
      · simp [hy, after]
      · simp [hy, List.erase_cons_tail]

/-- What was before an element that is erased is followed by what was after it. -/
theorem after_erase {l : List α} (hnodup : l.Nodup) {x y : α} (hne : x ≠ y) :
    after (l.erase y) x = if after l x = some y then after l y else after l x := by
  induction l with
  | nil => simp [after]
  | cons first rest ih =>
      obtain ⟨hfirst, hrest⟩ := List.nodup_cons.1 hnodup
      by_cases hy : first = y
      · subst hy
        have hafter : after rest x ≠ some first := fun h => hfirst (mem_of_after h).2
        simp [after, hne, hafter]
      · rw [List.erase_cons_tail (by simpa using hy)]
        by_cases hx : x = first
        · simp [after, hx, head?_erase, Ne.symm hy]
        · simp [after, hx, Ne.symm hy, ih hrest]

/-- What was after an element that is erased is led by what was before it. -/
theorem before_erase {l : List α} (hnodup : l.Nodup) {x y : α} (hne : x ≠ y) :
    before (l.erase y) x = if before l x = some y then before l y else before l x := by
  induction l with
  | nil => simp [before]
  | cons first rest ih =>
      obtain ⟨hfirst, hrest⟩ := List.nodup_cons.1 hnodup
      by_cases hy : first = y
      · subst hy
        have hhead : before (first :: rest) first = none := before_head hnodup rfl
        have hbefore : before rest x ≠ some first := fun h => hfirst (mem_of_before h).2
        rw [List.erase_cons_head, hhead, before]
        by_cases hx : rest.head? = some x
        · simp [hx, before_head hrest hx]
        · simp [hx, hbefore]
      · rw [List.erase_cons_tail (by simpa using hy), before, before, before, head?_erase,
          ih hrest]
        by_cases hx : rest.head? = some x
        · simp [hx, hne, hy]
        · by_cases hhead : rest.head? = some y
          · -- `x` moves up to the front exactly if it stood right behind `y`.
            simp only [hhead, if_true, after_eq_some_iff hrest, Option.some.injEq, Ne.symm hne,
              if_false]
            by_cases hbefore : before rest x = some y <;> simp [hbefore]
          · simp [hx, hhead]

end BuddySystem.Neighbours
