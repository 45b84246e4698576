import BuddySystem.Proofs.Bitmap
import BuddySystem.Proofs.Storage
import Mathlib.Algebra.Order.Floor.Div

/-!
# Writing to a bitmap

A bitmap is a finite map from indices to truth values: `Bitmap.written` is what was written for an
index last, and `recalls_run` says that this is what a bitmap shows after any writes, whatever its
storage held when it was set up. The invariant is that the bits of the bitmap are the values that
were written (`setAll_eq_ok`). This includes the padding, where nothing is ever written, so testing
whole words tells whether any value is true (`recalls_of_bit`).
-/

namespace BuddySystem.Bitmap

variable {bits : Nat}

/-- The value that was written last for an index; `false` if none was. -/
def written (writes : List (Nat × Bool)) (index : Nat) : Bool :=
  (writes.reverse.lookup index).getD false

/-- Sets bits, one after the other. -/
def setAll (map : Bitmap bits) (writes : List (Nat × Bool)) : Checked (Bitmap bits) :=
  writes.foldlM (fun map write => map.set write.1 write.2) map

/-- What is seen of a bitmap that maps indices to truth values. -/
structure Recalls (map : Bitmap bits) (value : Nat → Bool) : Prop where
  get_eq : ∀ index < bits, map.get index = .ok (value index)
  any_iff : map.any = true ↔ ∃ index < bits, map.get index = .ok true
  /-- The bits of the last word that lie past the end are clear. -/
  padding : ∀ word (hword : word < wordCount bits), ∀ position < Word.bits,
    bits ≤ word * Word.bits + position → map.words[word].toNat.testBit position = false
  /-- An index past the end cannot be used, and an attempt changes nothing. -/
  get_outside : ∀ index, bits ≤ index →
    (BitmapCall.read index).perform.run map = .error .violated map
  set_outside : ∀ index value, bits ≤ index →
    (BitmapCall.write index value).perform.run map = .error .violated map

/-- The words that a bitmap of this many bits uses when only a pointer to them is known. -/
structure Confined (bits : Nat) : Prop where
  wordCount_eq : wordCount bits = bits ⌈/⌉ 64
  /-- No call uses any other word, whatever its arguments are. -/
  touched_lt : ∀ (calls : List BitmapCall) (storage : Storage UInt64), storage.touched = [] →
    ∀ word ∈ (afterCalls (BitmapCall.raw bits) storage calls).touched, word < wordCount bits
  /-- What a call does with the words is what it does on a bitmap. -/
  mirrors : ∀ call : BitmapCall, Mirrors (BitmapCall.shown bits) (call.raw bits) call.perform

/-! ## Values that were written -/

theorem written_concat (writes : List (Nat × Bool)) (write : Nat × Bool) (index : Nat) :
    written (writes ++ [write]) index =
      if index = write.1 then write.2 else written writes index := by
  rw [written, List.reverse_concat, List.lookup_cons]
  by_cases h : index = write.1
  · rw [if_pos h, beq_iff_eq.2 h]
    rfl
  · rw [if_neg h, beq_eq_false_iff_ne.2 h]
    rfl

/-- Nothing is known of an index that was never written to. -/
theorem written_eq_false {writes : List (Nat × Bool)} {index : Nat}
    (h : ∀ write ∈ writes, write.1 ≠ index) : written writes index = false := by
  have hnone : writes.reverse.lookup index = none := by
    rw [List.lookup_eq_none_iff]
    intro write hmem
    simpa using (h write (List.mem_reverse.1 hmem)).symm
  rw [written, hnone, Option.getD_none]

/-- Of a bitmap without any bit set, the bits are the values that are written. -/
theorem setAll_eq_ok {map : Bitmap bits} (hclear : ∀ index, map.bit index = false)
    {writes : List (Nat × Bool)} (h : ∀ write ∈ writes, write.1 < bits) :
    ∃ after, map.setAll writes = .ok after ∧ ∀ index, after.bit index = written writes index := by
  -- The induction is on the writes from the first one on, so that the last one is on top.
  induction writes using List.reverseRecOn with
  | nil => exact ⟨map, rfl, hclear⟩
  | append_singleton writes write ih =>
      obtain ⟨between, hrun, hbetween⟩ := ih fun earlier hmem => h earlier (by simp [hmem])
      obtain ⟨after, hset, hafter⟩ := between.set_eq_ok (h write (by simp)) write.2
      refine ⟨after, ?_, fun index => ?_⟩
      · rw [setAll] at hrun ⊢
        rw [List.foldlM_append, hrun]
        simp only [List.foldlM_cons, List.foldlM_nil, bind, Except.bind, hset]
        rfl
      · rw [hafter, hbetween, written_concat]

/-! ## What a bitmap shows -/

/-- A bitmap shows the values that its bits are, if none of them is true past the end. -/
theorem recalls_of_bit {map : Bitmap bits} {value : Nat → Bool}
    (hbit : ∀ index, map.bit index = value index) (hend : ∀ index, bits ≤ index →
      value index = false) : map.Recalls value where
  get_eq index hlt := by rw [map.get_eq_bit hlt, hbit]
  any_iff := by
    rw [← Bool.not_eq_false, any_eq_false_iff, not_forall]
    constructor
    · intro hset
      obtain ⟨index, hset⟩ := hset
      rw [Bool.not_eq_false] at hset
      have hlt : index < bits := by
        by_contra hge
        rw [hbit, hend index (Nat.le_of_not_lt hge)] at hset
        exact Bool.false_ne_true hset
      exact ⟨index, hlt, by rw [map.get_eq_bit hlt, hset]⟩
    · intro hset
      obtain ⟨index, hlt, hset⟩ := hset
      rw [map.get_eq_bit hlt] at hset
      exact ⟨index, by rw [Except.ok.inj hset]; decide⟩
  padding word hword position hposition hpast := by
    have hclear := map.bit_eq_getLsbD hword hposition
    rw [hbit, hend _ hpast] at hclear
    exact hclear.symm
  get_outside index hge := by
    have hget : map.get index = .error .violated := dif_neg (Nat.not_lt.2 hge)
    simp only [BitmapCall.perform, EStateM.run_bind, EStateM.run_get, hget, run_liftM_error]
  set_outside index value hge := by
    have hset : map.set index value = .error .violated := dif_neg (Nat.not_lt.2 hge)
    simp only [BitmapCall.perform, EStateM.run_bind, EStateM.run_get, hset, run_liftM_error]

/-- There are as many words as it takes to hold all bits. -/
theorem wordCount_eq_ceilDiv (bits : Nat) : wordCount bits = bits ⌈/⌉ 64 := by
  rw [Nat.ceilDiv_eq_add_pred_div, wordCount, Word.bits]
  split <;> omega

/-- A bitmap has no more words than it needs, and none of its calls leaves them. -/
theorem confined (bits : Nat) : Confined bits where
  wordCount_eq := wordCount_eq_ceilDiv bits
  touched_lt calls storage hfresh word hmem := by
    have hextends := (Follows.extends_afterCalls (BitmapCall.follows bits) storage calls).2
    refine (hextends.touched word hmem).resolve_left fun hbefore => ?_
    rw [id, hfresh] at hbefore
    exact List.not_mem_nil hbefore
  mirrors call := (BitmapCall.follows bits call).mirrors

/-- A bitmap that was set up over any storage shows the values that were written last, and uses none
but its own words. -/
theorem recalls_run (hbits : 0 < bits) (storage : Vector UInt64 (wordCount bits))
    {writes : List (Nat × Bool)} (hwrites : ∀ write ∈ writes, write.1 < bits) :
    ∃ fresh after, clear storage = .ok fresh ∧ fresh.setAll writes = .ok after ∧
      after.Recalls (written writes) ∧ Confined bits := by
  obtain ⟨fresh, hfresh, hclear⟩ := clear_eq_ok hbits
  obtain ⟨after, hafter, hbit⟩ := setAll_eq_ok hclear hwrites
  refine ⟨fresh, after, hfresh, hafter, recalls_of_bit hbit fun index hge => ?_, confined bits⟩
  refine written_eq_false fun write hmem => ?_
  exact Nat.ne_of_lt (Nat.lt_of_lt_of_le (hwrites write hmem) hge)

/-- Two words of ones, of the second of which a single bit belongs to the bitmap. -/
theorem recalls_run_padded :
    let writes := [(64, true), (63, true), (64, false), (0, true)]
    0 < 65 ∧ (∀ write ∈ writes, write.1 < 65) ∧
      ∃ fresh after : Bitmap 65, clear (Vector.replicate _ (-1)) = .ok fresh ∧
        fresh.setAll writes = .ok after ∧ after.Recalls (written writes) ∧ Confined 65 := by
  intro writes
  have hwrites : ∀ write ∈ writes, write.1 < 65 := by decide
  exact ⟨by decide, hwrites, recalls_run (by decide) _ hwrites⟩

end BuddySystem.Bitmap
