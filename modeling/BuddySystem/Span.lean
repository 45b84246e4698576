import BuddySystem.Word

/-!
# Address ranges

A `Span` is a range of addresses whose end is still an address. Every pointer that an arena hands
out or takes back is computed from the span of the arena, and the computation checks that the
pointer lies inside.
-/

namespace BuddySystem

/-- A pointer to a number of bytes. -/
structure Slice where
  addr : Nat
  len : Nat
  deriving DecidableEq

/-- The `extent` addresses from `addr` on. -/
structure Span where
  addr : Nat
  extent : Nat
  /-- The address one past the end is a word. -/
  stop_lt : addr + extent < Word.bound
  deriving DecidableEq

namespace Span

/-- The span of these addresses, unless its end leaves the address space. -/
def of? (addr extent : Nat) : Option Span :=
  if h : addr + extent < Word.bound then some ⟨addr, extent, h⟩ else none

/-- The address one past the end. -/
def stop (span : Span) : Nat :=
  span.addr + span.extent

/-- Whether an address lies in the span. -/
def contains (span : Span) (addr : Nat) : Bool :=
  span.addr ≤ addr && addr < span.stop

/-- How far an address of the span is from its start. -/
def offsetOf (span : Span) (addr : Nat) : Checked Nat := do
  Checked.require (span.contains addr) .violated
  Word.sub addr span.addr

/-- The address at an offset inside the span. -/
def addrAt (span : Span) (offset : Nat) : Checked Nat := do
  Checked.require (offset < span.extent) .violated
  return span.addr + offset

/-- The `len` bytes at an offset. They have to end inside the span, and to start inside it even
if there are none. -/
def slice (span : Span) (offset len : Nat) : Checked Slice := do
  Checked.require ((Word.add? offset len).any (· ≤ span.extent)) .violated
  return ⟨← span.addrAt offset, len⟩

end Span

end BuddySystem
