import BuddySystem.Layout
import BuddySystem.Proofs.Word

/-!
# Layouts that exist

What is known of a layout from the fact that it exists, and of two layouts that were put one after
the other.
-/

namespace BuddySystem.Layout

/-- A layout has the size and the alignment that it was made of, and these leave room. -/
theorem ofSize?_eq_some {size align : Nat} {layout : Layout}
    (h : ofSize? size align = some layout) :
    layout = ⟨size, align⟩ ∧ Word.isPowerOfTwo align ∧ size ≤ sizeLimit - align := by
  rw [ofSize?] at h
  split at h
  · next hvalid =>
      rw [Bool.and_eq_true, decide_eq_true_iff] at hvalid
      exact ⟨(Option.some.inj h).symm, hvalid⟩
  · cases h

/-- The second layout starts behind the first one where it suits its alignment, and the size of both
ends with it. -/
theorem extend?_eq_some {first second both : Layout} {offset : Nat} (halign : 0 < second.align)
    (h : first.extend? second = some (both, offset)) :
    first.size ≤ offset ∧ second.align ∣ offset ∧ both.size = offset + second.size ∧
      both.align = max first.align second.align ∧ both.size ≤ sizeLimit - both.align := by
  simp only [extend?, Word.add?, Option.bind_eq_bind, Option.pure_def, Option.bind_eq_some_iff,
    Option.some.injEq, Prod.mk.injEq] at h
  obtain ⟨size, hsize, layout, hlayout, rfl, rfl⟩ := h
  obtain ⟨rfl, -, hle⟩ := ofSize?_eq_some hlayout
  split at hsize
  · cases hsize
    exact ⟨Word.le_roundUp halign, Word.dvd_roundUp _ _, rfl, rfl, hle⟩
  · cases hsize

end BuddySystem.Layout
