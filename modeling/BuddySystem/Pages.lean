import BuddySystem.Event
import BuddySystem.Provider

/-!
# Whole pages from the operating system

A provider that maps a range of pages for every request and unmaps it when it is given back. Up
to the size of a page an alignment comes for free. For a greater one more is mapped than needed,
and the pages before and behind the aligned part are unmapped again.
-/

namespace BuddySystem

/-- What an operating system does with ranges of pages. -/
structure Kernel (σ : Type) where
  /-- The size of a page in bytes, a power of two. -/
  pageSize : Nat
  /-- Maps a range of this many bytes and gives its address. -/
  map : Nat → σ → Option Nat × σ
  /-- Unmaps the range of this many bytes at an address, and tells whether it could. -/
  unmap : Nat → Nat → σ → Bool × σ

namespace Kernel

variable {σ : Type}

/-- Maps a range, and tells of a failure. The null address is of no use. -/
def mapLogged (kernel : Kernel σ) (len : Nat) : Call (Logged σ) (Option Nat) := do
  match ← Logged.inside.run (modifyGet (kernel.map len)) with
  | some addr => return if addr = 0 then none else some addr
  | none =>
      Logged.note [.mapFailed len]
      return none

/-- Unmaps a range, and tells of a failure. -/
def unmapLogged (kernel : Kernel σ) (addr len : Nat) : Call (Logged σ) Unit := do
  unless ← Logged.inside.run (modifyGet (kernel.unmap addr len)) do
    Logged.note [.unmapFailed addr len]

/-- Maps a range of `len` bytes that is aligned to more than a page. -/
def mapAligned (kernel : Kernel σ) (len align : Nat) : Call (Logged σ) (Option Nat) := do
  let some total := Word.add? len align
    | return none
  let some first ← kernel.mapLogged total
    | return none
  let some addr := Word.roundUp? first align
    | return none
  let head ← Call.ofChecked (Word.sub addr first)
  let tail ← Call.ofChecked (do Word.sub (← Word.sub total head) len)
  if head > 0 then
    kernel.unmapLogged first head
  if tail > 0 then
    kernel.unmapLogged (addr + len) tail
  return some addr

/-- Whole pages as a provider. -/
def pages (kernel : Kernel σ) : Provider (Logged σ) where
  allocate size align := do
    if size = 0 || !Word.isPowerOfTwo align then
      return none
    let some len := Word.roundUp? size kernel.pageSize
      | return none
    let mapped ←
      if align ≤ kernel.pageSize then
        kernel.mapLogged len
      else
        kernel.mapAligned len align
    return mapped.map (⟨·, size⟩)
  deallocate addr size _ :=
    match Word.roundUp? size kernel.pageSize with
    | some len => kernel.unmapLogged addr len
    | none => Logged.note [.unmapImpossible addr size]

end Kernel

end BuddySystem
