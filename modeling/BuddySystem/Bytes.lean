/-!
# Numbers in bytes

Numbers are stored with the lowest byte first. Where bytes are missing at the end, they are taken
to be zero, so a number can be taken off the front of any list of bytes.
-/

namespace BuddySystem.Bytes

/-- The number that bytes stand for, the lowest first. -/
def littleEndian : List UInt8 → Nat
  | [] => 0
  | byte :: rest => byte.toNat + 256 * littleEndian rest

/-- Takes a number of `width` bytes off the front. -/
def takeNumber (width : Nat) (bytes : List UInt8) : Nat × List UInt8 :=
  (littleEndian (bytes.take width), bytes.drop width)

end BuddySystem.Bytes
