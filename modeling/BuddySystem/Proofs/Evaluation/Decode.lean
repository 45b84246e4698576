import BuddySystem.Evaluation.Decode
import Mathlib.Algebra.Group.Nat.Defs

/-!
# Operations and their bytes

Any list of bytes stands for a list of operations within the bounds of `Request.maxSize` and
`Request.maxAlignBits`, of which there are no more than bytes. `Operation.encodeList` goes the other
way: the bytes of any operations within these bounds are decoded to the same operations, whatever
follows them (`Operation.decodeList_encodeList`). Decoding takes as many bytes as encoding gives, or
all that there are (`Operation.decodeList_snd`). `Operation.faithful_decodeList` puts this together.
-/

namespace BuddySystem

/-! ## Numbers -/

namespace Bytes

/-- A number in `width` bytes, the lowest first. -/
def ofNumber : Nat → Nat → List UInt8
  | 0, _ => []
  | width + 1, n => n.toUInt8 :: ofNumber width (n / 256)

@[simp] theorem length_ofNumber (width n : Nat) : (ofNumber width n).length = width := by
  induction width generalizing n with
  | zero => rfl
  | succ width ih => rw [ofNumber, List.length_cons, ih]

/-- The bytes of a number that are enough for it give the number back. -/
theorem littleEndian_ofNumber {width n : Nat} (h : n < 256 ^ width) :
    littleEndian (ofNumber width n) = n := by
  induction width generalizing n with
  | zero => rw [ofNumber, littleEndian, Nat.lt_one_iff.1 h]
  | succ width ih =>
      rw [ofNumber, littleEndian, ih (Nat.div_lt_of_lt_mul (by rwa [← Nat.pow_succ'])),
        Nat.toUInt8_eq, UInt8.toNat_ofNat']
      exact Nat.mod_add_div n 256

theorem littleEndian_lt (bytes : List UInt8) : littleEndian bytes < 256 ^ bytes.length := by
  induction bytes with
  | nil => exact Nat.one_pos
  | cons byte rest ih =>
      have hbyte := byte.toNat_lt
      rw [littleEndian, List.length_cons, Nat.pow_succ]
      omega

theorem takeNumber_lt (width : Nat) (bytes : List UInt8) :
    (takeNumber width bytes).1 < 256 ^ width := by
  refine Nat.lt_of_lt_of_le (littleEndian_lt _) (Nat.pow_le_pow_right (by decide) ?_)
  exact List.length_take_le width bytes

/-- The bytes of a number are taken off the front as the number. -/
theorem takeNumber_ofNumber {width n : Nat} (h : n < 256 ^ width) (rest : List UInt8) :
    takeNumber width (ofNumber width n ++ rest) = (n, rest) := by
  have hlength := length_ofNumber width n
  rw [takeNumber, List.take_left' hlength, List.drop_left' hlength, littleEndian_ofNumber h]

end Bytes

open Bytes

/-! ## Requests -/

namespace Request

/-- Whether a request asks for no more than requests from bytes do. -/
structure Bounded (request : Request) : Prop where
  size_le : request.size ≤ maxSize
  exists_align : ∃ alignBits ≤ maxAlignBits, request.align = 2 ^ alignBits

/-- The bytes of a request. -/
def encode (request : Request) : List UInt8 :=
  ofNumber 1 request.align.log2 ++ ofNumber 8 request.size

/-- A request that is within bounds is read from what was written of it. -/
theorem decode_encode {request : Request} (h : request.Bounded) (rest : List UInt8) :
    decode (request.encode ++ rest) = (request, rest) := by
  obtain ⟨size, align⟩ := request
  obtain ⟨hsize, alignBits, hbits, rfl⟩ := h
  simp only [maxSize, maxAlignBits] at hsize hbits
  rw [decode, encode, List.append_assoc, Nat.log2_two_pow, takeNumber_ofNumber (by omega)]
  dsimp only
  rw [takeNumber_ofNumber (by omega), maxSize, maxAlignBits, Nat.mod_eq_of_lt (by omega),
    Nat.mod_eq_of_lt (by omega)]

/-- Every request that is read is within bounds. -/
theorem bounded_decode (bytes : List UInt8) : (decode bytes).1.Bounded where
  size_le := Nat.le_of_lt_succ (Nat.mod_lt _ (Nat.succ_pos maxSize))
  exists_align := ⟨_, Nat.le_of_lt_succ (Nat.mod_lt _ (Nat.succ_pos maxAlignBits)), rfl⟩

/-- A request takes as many bytes as it is encoded with. -/
theorem decode_snd (bytes : List UInt8) :
    (decode bytes).2 = bytes.drop (decode bytes).1.encode.length := by
  rw [encode, List.length_append, length_ofNumber, length_ofNumber, ← List.drop_drop]
  rfl

end Request

/-! ## Operations -/

namespace Operation

/-- Whether an operation is one that bytes can stand for. -/
def Bounded : Operation → Prop
  | .alloc request => request.Bounded
  | .dealloc index => index < Word.bound

/-- The bytes of an operation. -/
def encode : Operation → List UInt8
  | .alloc request => ofNumber 4 0 ++ request.encode
  | .dealloc index => ofNumber 4 (2 ^ 31) ++ ofNumber 8 index

/-- The bytes of operations. An odd byte stands before each of them, and an even one behind the
last. -/
def encodeList : List Operation → List UInt8
  | [] => [0]
  | operation :: rest => 1 :: (operation.encode ++ encodeList rest)

/-- An operation that is within bounds is read from what was written of it. -/
theorem decode_encode {operation : Operation} (h : operation.Bounded) (rest : List UInt8) :
    decode (operation.encode ++ rest) = (operation, rest) := by
  cases operation with
  | alloc request =>
      rw [decode, encode, List.append_assoc, takeNumber_ofNumber (by decide)]
      exact congrArg (fun taken => (Operation.alloc taken.1, taken.2))
        (Request.decode_encode h rest)
  | dealloc index =>
      rw [decode, encode, List.append_assoc, takeNumber_ofNumber (by decide)]
      exact congrArg (fun taken => (Operation.dealloc taken.1, taken.2))
        (@takeNumber_ofNumber 8 index h rest)

/-- Every operation that is read is within bounds. -/
theorem bounded_decode (bytes : List UInt8) : (decode bytes).1.Bounded := by
  rw [decode]
  dsimp only
  split
  · exact Request.bounded_decode _
  · exact takeNumber_lt 8 _

/-- An operation takes as many bytes as it is encoded with. -/
theorem decode_snd (bytes : List UInt8) :
    (decode bytes).2 = bytes.drop (decode bytes).1.encode.length := by
  rw [decode]
  dsimp only
  split
  · show (Request.decode (bytes.drop 4)).2 = _
    rw [Request.decode_snd, encode, List.length_append, length_ofNumber, List.drop_drop]
    rfl
  · rw [encode, List.length_append, length_ofNumber, length_ofNumber, ← List.drop_drop]
    rfl

/-! ## Lists of operations -/

/-- Operations that are within bounds are read from what was written of them. -/
theorem decodeList_encodeList {operations : List Operation}
    (h : ∀ operation ∈ operations, operation.Bounded) (rest : List UInt8) :
    decodeList (encodeList operations ++ rest) = (operations, rest) := by
  induction operations with
  | nil => rw [encodeList, List.singleton_append, decodeList, if_pos (by decide)]
  | cons operation operations ih =>
      have hfirst := decode_encode (h operation List.mem_cons_self)
      have hrest := ih fun later hlater => h later (List.mem_cons_of_mem _ hlater)
      rw [encodeList, List.cons_append, List.append_assoc, decodeList, if_neg (by decide), hfirst,
        hrest]

/-- All operations that are read are within bounds. -/
theorem bounded_decodeList (bytes : List UInt8) :
    ∀ operation ∈ (decodeList bytes).1, operation.Bounded := by
  fun_induction decodeList bytes with
  | case1 => exact fun _ => nofun
  | case2 => exact fun _ => nofun
  | case3 more rest hodd operations left hrest ih =>
      rw [hrest] at ih
      intro operation hmem
      rcases List.mem_cons.1 hmem with rfl | hlater
      · exact bounded_decode rest
      · exact ih operation hlater

/-- Every operation has a byte in front of it. -/
theorem length_decodeList_le (bytes : List UInt8) :
    (decodeList bytes).1.length ≤ bytes.length := by
  fun_induction decodeList bytes with
  | case1 => exact Nat.le_refl 0
  | case2 => exact Nat.zero_le _
  | case3 more rest hodd operations left hrest ih =>
      rw [hrest] at ih
      exact Nat.succ_le_succ (Nat.le_trans ih (length_decode_le rest))

/-- Operations take as many bytes as they are encoded with. -/
theorem decodeList_snd (bytes : List UInt8) :
    (decodeList bytes).2 = bytes.drop (encodeList (decodeList bytes).1).length := by
  fun_induction decodeList bytes with
  | case1 => rfl
  | case2 => rfl
  | case3 more rest hodd operations left hrest ih =>
      rw [hrest] at ih
      dsimp only at ih ⊢
      rw [ih, encodeList, List.length_cons, List.length_append, List.drop_succ_cons,
        ← List.drop_drop, ← decode_snd]

/-- Whether a way to read operations off bytes gives exactly the operations within the bounds, and
`encode` gives bytes for each list of them. -/
structure Faithful (decode : List UInt8 → List Operation × List UInt8)
    (encode : List Operation → List UInt8) : Prop where
  /-- There are no more operations than bytes. -/
  length_le : ∀ bytes, (decode bytes).1.length ≤ bytes.length
  size_le : ∀ bytes request, .alloc request ∈ (decode bytes).1 → request.size ≤ 65536
  exists_align : ∀ bytes request, .alloc request ∈ (decode bytes).1 →
    ∃ alignBits ≤ 15, request.align = 2 ^ alignBits
  index_lt : ∀ bytes index, .dealloc index ∈ (decode bytes).1 → index < 2 ^ 64
  /-- As many bytes are taken as the operations are encoded with, or all that there are. -/
  left_eq : ∀ bytes, (decode bytes).2 = bytes.drop (encode (decode bytes).1).length
  /-- Operations within the bounds are read off their bytes, whatever follows these. -/
  decode_encode : ∀ operations : List Operation,
    (∀ request, .alloc request ∈ operations →
      request.size ≤ 65536 ∧ ∃ alignBits ≤ 15, request.align = 2 ^ alignBits) →
    (∀ index, .dealloc index ∈ operations → index < 2 ^ 64) →
    ∀ rest, decode (encode operations ++ rest) = (operations, rest)

/-- Decoding gives exactly the lists of operations within the bounds. -/
theorem faithful_decodeList : Faithful decodeList encodeList where
  length_le := length_decodeList_le
  size_le bytes _ hmem := (bounded_decodeList bytes _ hmem).size_le
  exists_align bytes _ hmem := (bounded_decodeList bytes _ hmem).exists_align
  index_lt bytes _ hmem := bounded_decodeList bytes _ hmem
  left_eq := decodeList_snd
  decode_encode operations halloc hdealloc := by
    refine decodeList_encodeList fun operation hmem => ?_
    cases operation with
    | alloc request =>
        obtain ⟨hsize, halign⟩ := halloc request hmem
        exact ⟨hsize, halign⟩
    | dealloc index => exact hdealloc index hmem

-- A byte that announces an operation, and nothing more: what is missing is taken to be zero.
example : decodeList [1] = ([.alloc ⟨0, 1⟩], []) := by
  cbv

end Operation

end BuddySystem
