import BuddySystem.Proofs.Evaluation.Clashes
import BuddySystem.Proofs.Evaluation.Decode

/-!
# What the bytes of a block tell

Whether a block verifies is told by the memory at its addresses and by the id that it was painted
with last, whatever else was painted and written since it was set up. `Bytes.ofNumber` gives the
eight bytes of an id, the lowest first, and a block verifies exactly if it shows them over and over
(`Block.verify_iff_bytes`). If there is room for all eight, they tell the id
(`eq_of_paintByte`). `faithfulPaint` puts this together.
-/

namespace BuddySystem

open Bytes Evaluation

/-! ## Bytes of an id -/

theorem Bytes.getElem?_ofNumber {width i : Nat} (n : Nat) (h : i < width) :
    (ofNumber width n)[i]? = some (n / 256 ^ i).toUInt8 := by
  induction width generalizing n i with
  | zero => exact absurd h (Nat.not_lt_zero i)
  | succ width ih =>
      cases i with
      | zero => rw [ofNumber, List.getElem?_cons_zero, Nat.pow_zero, Nat.div_one]
      | succ i =>
          rw [ofNumber, List.getElem?_cons_succ, ih _ (Nat.lt_of_succ_lt_succ h),
            Nat.div_div_eq_div_mul, Nat.pow_succ']

/-- The bytes that a block is painted with are those of its number, over and over. -/
theorem toNat_paintByte_id (id : UInt64) (position : Nat) :
    (paintByte id position).toNat = id.toNat / 256 ^ (position % 8) % 256 := by
  have hbyte := toNat_paintByte id.toNat position
  rwa [Nat.toUInt64_eq, UInt64.ofNat_toNat] at hbyte

/-- The bytes of an id, the lowest first, are what a block is painted with. -/
theorem getElem?_ofNumber_id (id : UInt64) (position : Nat) :
    (ofNumber 8 id.toNat)[position % 8]? = some (paintByte id position) := by
  rw [getElem?_ofNumber _ (Nat.mod_lt _ (by decide)), Option.some.injEq, ← UInt8.toNat_inj,
    toNat_paintByte_id, Nat.toUInt8_eq, UInt8.toNat_ofNat']

/-- Ids that are painted with the same bytes are the same. -/
theorem eq_of_paintByte {id other : UInt64}
    (h : ∀ position < 8, paintByte id position = paintByte other position) : id = other := by
  have hmod : id.toNat % 256 ^ 8 = other.toNat % 256 ^ 8 := by
    refine mod_eq_of_bytes 8 fun position hposition => ?_
    have hbyte := congrArg UInt8.toNat (h position hposition)
    rwa [toNat_paintByte_id, toNat_paintByte_id, Nat.mod_eq_of_lt hposition] at hbyte
  have hlt : ∀ id : UInt64, id.toNat < 256 ^ 8 := UInt64.toNat_lt
  rw [Nat.mod_eq_of_lt (hlt id), Nat.mod_eq_of_lt (hlt other)] at hmod
  exact UInt64.toNat_inj.1 hmod

/-! ## What is done to a block -/

/-- Something that is done to a block, or to the memory that it is in. -/
inductive Touch where
  /-- The block is painted with an id. -/
  | paint (id : UInt64)
  /-- A byte is written at a position of the block. -/
  | poke (position : Nat) (byte : UInt8)
  /-- A byte is written at an address, be it one of the block or not. -/
  | write (addr : Nat) (byte : UInt8)

namespace Touch

/-- The block and the memory afterwards. -/
def apply : Block × Memory → Touch → Block × Memory
  | (block, memory), .paint id => block.paint id memory
  | (block, memory), .poke position byte => (block, block.poke position byte memory)
  | (block, memory), .write addr byte => (block, memory.write addr byte)

/-- The id that a block is painted with, if it is. -/
def id? : Touch → Option UInt64
  | .paint id => some id
  | .poke _ _ => none
  | .write _ _ => none

/-- The id that was painted last; the first one if none has been painted since. -/
def lastId (first : UInt64) (touches : List Touch) : UInt64 :=
  (touches.filterMap id?).getLastD first

theorem lastId_cons (first : UInt64) (touch : Touch) (touches : List Touch) :
    lastId first (touch :: touches) = lastId (touch.id?.getD first) touches := by
  cases touch with
  | paint id => exact List.getLastD_cons
  | poke => rfl
  | write => rfl

/-- A block stays where it is, and remembers the id that was painted last. -/
theorem foldl_apply (touches : List Touch) (state : Block × Memory) :
    (touches.foldl apply state).1 =
      ⟨state.1.slice, state.1.request, lastId state.1.id touches⟩ := by
  induction touches generalizing state with
  | nil => rfl
  | cons touch touches ih =>
      have hfirst : (apply state touch).1 =
          ⟨state.1.slice, state.1.request, touch.id?.getD state.1.id⟩ := by
        cases touch <;> rfl
      rw [List.foldl_cons, ih, hfirst, lastId_cons]

end Touch

/-! ## Verifying a block -/

/-- A block verifies if it shows the bytes of its id, over and over. -/
theorem Block.verify_iff_bytes {block : Block} {memory : Memory} :
    block.verify memory = true ↔ ∀ i < block.slice.len,
      (ofNumber 8 block.id.toNat)[i % 8]? = some (memory.read (block.slice.addr + i)) := by
  rw [verify, Memory.holds_iff]
  refine forall₂_congr fun i _ => ?_
  rw [getElem?_ofNumber_id, Option.some.injEq, eq_comm]

/-- A byte that is written to a painted block shows, unless it is the one that is there. -/
theorem Block.verify_poke_iff {block : Block} {memory : Memory} (h : block.verify memory)
    {position : Nat} (hposition : position < block.slice.len) (byte : UInt8) :
    block.verify (block.poke position byte memory) = true ↔
      paintByte block.id position = byte := by
  rw [verify, Memory.holds_iff] at h ⊢
  have hread : ∀ i, (block.poke position byte memory).read (block.slice.addr + i) =
      if i = position then byte else memory.read (block.slice.addr + i) := by
    intro i
    simp only [poke, if_pos hposition, Memory.read_write, Nat.add_right_inj]
  constructor
  · intro hbytes
    have hbyte := hbytes position hposition
    rw [hread, if_pos rfl] at hbyte
    exact hbyte.symm
  · intro hbyte i hi
    rw [hread]
    split
    · next heq => rw [heq, hbyte]
    · exact h i hi

/-- A block that has room for all bytes of an id verifies against this id only. -/
theorem Block.verify_paint_iff (memory : Memory) {slice : Slice} (h : 8 ≤ slice.len)
    (request : Request) (id other : UInt64) :
    Block.verify ⟨slice, request, other⟩ (memory.paint slice id) = true ↔ id = other := by
  constructor
  · intro hverify
    rw [verify, Memory.holds_iff] at hverify
    refine eq_of_paintByte fun position hposition => ?_
    have hlt : position < slice.len := Nat.lt_of_lt_of_le hposition h
    have hmem : slice.addr + position ∈ slice.addresses :=
      ⟨Nat.le_add_right _ _, Nat.add_lt_add_left hlt _⟩
    rw [← hverify position hlt, memory.read_paint_of_mem hmem, Nat.add_sub_cancel_left]
  · rintro rfl
    exact verify_paint memory slice request id

/-- What painting a block at a slice does, and what can be told by verifying it. -/
structure FaithfulPaint (slice : Slice) (request : Request) : Prop where
  /-- Whatever is done to a block that was set up, it verifies as long as it has the bytes that it
  was painted with last. -/
  verify_iff : ∀ (first : UInt64) (before : Memory) (touches : List Touch),
    let after := touches.foldl Touch.apply (Block.init slice request first before)
    after.1.verify after.2 = true ↔ ∀ i < slice.len,
      (ofNumber 8 (Touch.lastId first touches).toNat)[i % 8]? =
        some (after.2.read (slice.addr + i))
  /-- It verifies when it has just been painted, whatever the memory held. -/
  verify_paint : ∀ (old id : UInt64) (before : Memory),
    let painted := Block.paint ⟨slice, request, old⟩ id before
    painted.1.verify painted.2 = true
  /-- It does not any more when a byte of it is replaced by another one. -/
  verify_poke : ∀ (old id : UInt64) (before : Memory) (byte : UInt8), ∀ position < slice.len,
    let painted := Block.paint ⟨slice, request, old⟩ id before
    painted.1.verify (painted.1.poke position byte painted.2) = false ↔
      (ofNumber 8 id.toNat)[position % 8]? ≠ some byte
  /-- It verifies against no other id if there is room for a whole one. -/
  verify_other : 8 ≤ slice.len → ∀ (old id other : UInt64) (before : Memory),
    Block.verify ⟨slice, request, other⟩ (Block.paint ⟨slice, request, old⟩ id before).2 = true ↔
      id = other
  /-- Painting changes no byte outside of the block. -/
  read_paint : ∀ (old id : UInt64) (before : Memory), ∀ addr ∉ slice.addresses,
    (Block.paint ⟨slice, request, old⟩ id before).2.read addr = before.read addr
  read_init : ∀ (first : UInt64) (before : Memory), ∀ addr ∉ slice.addresses,
    (Block.init slice request first before).2.read addr = before.read addr

/-- Painting is faithful in blocks of every length, at every address. -/
theorem faithfulPaint (slice : Slice) (request : Request) : FaithfulPaint slice request where
  verify_iff first before touches := by
    have hblock := Touch.foldl_apply touches (Block.init slice request first before)
    dsimp only
    rw [hblock, Block.verify_iff_bytes]
    rfl
  verify_paint _ id before := Block.verify_paint before slice request id
  verify_poke _ id before byte position hposition := by
    have hpainted := Block.verify_paint before slice request id
    dsimp only [Block.paint]
    rw [← Bool.not_eq_true, Block.verify_poke_iff hpainted hposition, getElem?_ofNumber_id, Ne,
      Option.some.injEq]
  verify_other hlen _ id other before := Block.verify_paint_iff before hlen request id other
  read_paint _ id before addr hout :=
    before.eqOn_paint (Set.disjoint_singleton_left.2 hout) id (Set.mem_singleton addr)
  read_init id before addr hout :=
    before.eqOn_paint (Set.disjoint_singleton_left.2 hout) id (Set.mem_singleton addr)

-- Seven bytes do not tell ids that differ in the highest byte only.
example :
    Block.verify ⟨⟨0, 7⟩, ⟨7, 1⟩, 1⟩ ((Memory.zero 0).paint ⟨0, 7⟩ (2 ^ 56 + 1)) = true := by
  decide +kernel

end BuddySystem
