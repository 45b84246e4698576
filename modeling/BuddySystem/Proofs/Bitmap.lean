import BuddySystem.Bitmap

/-!
# Bits of a bitmap

`Bitmap.bit` shows the bits of a bitmap, those that lie past its end included. Inside the bitmap
`get` reads the bit, `set` changes this bit and no other one, and a cleared bitmap has no bit set.
A bitmap is determined by its bits (`eq_of_bit`).
-/

namespace BuddySystem.Bitmap

/-- The word that picks out a bit is a power of two. -/
theorem toBitVec_mask (index : Nat) :
    (mask index).toBitVec = BitVec.twoPow 64 (index % Word.bits) := by
  have hlt : index % 64 < 64 := Nat.mod_lt _ (by decide)
  have hword : index % 64 < 2 ^ 64 := Nat.lt_trans hlt (by decide)
  apply BitVec.eq_of_toNat_eq
  rw [UInt64.toNat_toBitVec, mask, UInt64.toNat_shiftLeft, UInt64.toNat_one, Nat.toUInt64_eq,
    UInt64.toNat_ofNat', Nat.mod_eq_of_lt hword, Nat.mod_eq_of_lt hlt, Nat.one_shiftLeft,
    BitVec.toNat_twoPow]

theorem and_mask_ne_zero (word : UInt64) (index : Nat) :
    (word &&& mask index != 0) = word.toBitVec.getLsbD (index % Word.bits) := by
  have hlt : index % Word.bits < 64 := Nat.mod_lt _ (by decide)
  have hzero : (word &&& mask index = 0) ↔ (word &&& mask index).toBitVec = 0#64 :=
    UInt64.toBitVec_inj.symm
  rw [Bool.eq_iff_iff, bne_iff_ne, ne_eq, hzero, UInt64.toBitVec_and, toBitVec_mask,
    BitVec.and_twoPow]
  split
  · next h =>
      simp only [h, iff_true]
      intro heq
      have htwo := BitVec.toNat_twoPow_of_lt hlt
      rw [heq] at htwo
      exact absurd htwo (Nat.ne_of_lt (Nat.two_pow_pos _))
  · next h => simp [h]

/-- Setting a bit of a word changes this bit only. -/
theorem getLsbD_set (word : UInt64) (index position : Nat) (value : Bool) :
    (if value then word ||| mask index else word &&& ~~~mask index).toBitVec.getLsbD position =
      if position = index % Word.bits then value else word.toBitVec.getLsbD position := by
  have hlt : index % Word.bits < 64 := Nat.mod_lt _ (by decide)
  cases value <;>
    simp only [if_true, Bool.false_eq_true, if_false, UInt64.toBitVec_or, UInt64.toBitVec_and,
      UInt64.toBitVec_not, toBitVec_mask, BitVec.getLsbD_or, BitVec.getLsbD_and,
      BitVec.getLsbD_not, BitVec.getLsbD_twoPow, hlt, decide_true, Bool.true_and,
      eq_comm (a := index % Word.bits)]
  · split
    · next h => simp [h]
    · next h =>
        by_cases hposition : position < 64
        · simp [h, hposition]
        · simp [h, hposition, BitVec.getLsbD_of_ge _ _ (Nat.le_of_not_lt hposition)]
  · split <;> simp_all

variable {bits : Nat}

/-- The bit at a position, or `false` if no word of the bitmap holds it. -/
def bit (map : Bitmap bits) (index : Nat) : Bool :=
  match map.words[index / Word.bits]? with
  | some word => word.toBitVec.getLsbD (index % Word.bits)
  | none => false

theorem get_eq_bit (map : Bitmap bits) {index : Nat} (h : index < bits) :
    map.get index = .ok (map.bit index) := by
  have hword := div_lt_wordCount h
  rw [get, dif_pos h, bit, Vector.getElem?_eq_getElem hword]
  exact congrArg Except.ok (and_mask_ne_zero _ index)

/-- Setting a bit of the bitmap succeeds and leaves every other bit alone. -/
theorem set_eq_ok (map : Bitmap bits) {index : Nat} (h : index < bits) (value : Bool) :
    ∃ after, map.set index value = .ok after ∧
      ∀ other, after.bit other = if other = index then value else map.bit other := by
  have hword := div_lt_wordCount h
  refine ⟨_, by rw [set, dif_pos h], fun other => ?_⟩
  simp only [bit, Vector.getElem?_set]
  by_cases hsame : index / Word.bits = other / Word.bits
  · -- In one word, two bits are the same exactly if their positions in the word are.
    have hequal : other = index ↔ other % Word.bits = index % Word.bits := by
      constructor
      · exact fun heq => heq ▸ rfl
      · intro hmod
        rw [← Nat.div_add_mod other Word.bits, ← Nat.div_add_mod index Word.bits, hmod, hsame]
    rw [if_pos hsame, ← hsame, Vector.getElem?_eq_getElem hword]
    simp only [getLsbD_set, hequal]
  · have hne : other ≠ index := fun heq => hsame (heq ▸ rfl)
    rw [if_neg hsame, if_neg hne]

/-- A cleared bitmap has no bit set, in its padding either. -/
theorem clear_eq_ok {storage : Vector UInt64 (wordCount bits)} (h : 0 < bits) :
    ∃ map, clear storage = .ok map ∧ ∀ index, map.bit index = false := by
  refine ⟨⟨storage.map fun _ => 0⟩, ?_, fun index => ?_⟩
  · simp [clear, Checked.require, h, bind, Except.bind, pure, Except.pure]
  · simp only [bit, Vector.getElem?_map]
    cases storage[index / Word.bits]? <;> simp

/-! ## All bits -/

/-- The bits of a bitmap are those of its words, one word after the other. -/
theorem bit_eq_getLsbD (map : Bitmap bits) {word position : Nat} (hword : word < wordCount bits)
    (hposition : position < Word.bits) :
    map.bit (word * Word.bits + position) = map.words[word].toBitVec.getLsbD position := by
  have hdiv : (word * Word.bits + position) / Word.bits = word := by
    simp only [Word.bits] at *
    omega
  have hmod : (word * Word.bits + position) % Word.bits = position := by
    simp only [Word.bits] at *
    omega
  rw [bit, hdiv, hmod, Vector.getElem?_eq_getElem hword]

/-- Bitmaps with the same bits, padding included, are the same. -/
theorem eq_of_bit {map other : Bitmap bits} (h : ∀ index, map.bit index = other.bit index) :
    map = other := by
  have hwords : map.words = other.words := by
    apply Vector.ext
    intro word hword
    apply UInt64.toBitVec_inj.1
    apply BitVec.eq_of_getLsbD_eq
    intro position hposition
    rw [← bit_eq_getLsbD map hword hposition, ← bit_eq_getLsbD other hword hposition, h]
  cases map
  cases other
  rw [Bitmap.mk.injEq]
  exact hwords

/-- Testing whole words finds the bits that are set. -/
theorem any_eq_false_iff (map : Bitmap bits) :
    map.any = false ↔ ∀ index, map.bit index = false := by
  have hwords : map.any = false ↔ ∀ word (h : word < wordCount bits), map.words[word] = 0 := by
    rw [any, Vector.any_eq_false]
    simp
  rw [hwords]
  constructor
  · intro hzero index
    rw [bit]
    cases hword : map.words[index / Word.bits]? with
    | none => rfl
    | some word =>
        obtain ⟨hlt, rfl⟩ := Vector.getElem?_eq_some_iff.1 hword
        simp [hzero _ hlt]
  · intro hbit word hword
    apply UInt64.toBitVec_inj.1
    apply BitVec.eq_of_getLsbD_eq
    intro position hposition
    rw [← bit_eq_getLsbD map hword hposition, hbit]
    simp

end BuddySystem.Bitmap
