import BuddySystem.Bytes
import BuddySystem.Evaluation.Operation
import BuddySystem.Word

/-!
# Operations from bytes

Any list of bytes stands for a list of operations, so that operations can be made from random
bytes.
-/

namespace BuddySystem

/-- No request from bytes asks for more bytes than this. -/
def Request.maxSize : Nat := 65536

/-- No request from bytes asks for an alignment with a greater exponent than this. -/
def Request.maxAlignBits : Nat := 15

/-- Takes a request off the front: a byte for the exponent of the alignment and eight bytes for
the size. -/
def Request.decode (bytes : List UInt8) : Request × List UInt8 :=
  let (alignBits, rest) := Bytes.takeNumber 1 bytes
  let (size, rest) := Bytes.takeNumber 8 rest
  (⟨size % (maxSize + 1), 2 ^ (alignBits % (maxAlignBits + 1))⟩, rest)

namespace Operation

/-- Takes an operation off the front. The upper half of the numbers of four bytes stands for a
deallocation, the lower one for an allocation. -/
def decode (bytes : List UInt8) : Operation × List UInt8 :=
  let (tag, rest) := Bytes.takeNumber 4 bytes
  if tag * 2 / 2 ^ (32 : Nat) = 0 then
    let (request, rest) := Request.decode rest
    (.alloc request, rest)
  else
    let (index, rest) := Bytes.takeNumber 8 rest
    (.dealloc index, rest)

/-- An operation does not put bytes back. -/
theorem length_decode_le (bytes : List UInt8) : (decode bytes).2.length ≤ bytes.length := by
  unfold decode
  dsimp only
  split <;> simp only [Request.decode, Bytes.takeNumber, List.length_drop] <;> omega

/-- Takes operations off the front. An odd byte stands before each of them, and an even one or
the end of the bytes behind the last. -/
def decodeList : List UInt8 → List Operation × List UInt8
  | [] => ([], [])
  | more :: rest =>
      if more % 2 = 0 then
        ([], rest)
      else
        let (operations, left) := decodeList (decode rest).2
        ((decode rest).1 :: operations, left)
termination_by bytes => bytes.length
decreasing_by
  have := length_decode_le rest
  simp only [List.length_cons]
  omega

end Operation

end BuddySystem
