import BuddySystem.Pages

/-!
# The machine below

The sources of memory that are not made of others: the heap, ranges of pages, and two that exist
to show how an arena behaves on unusual memory.

A process has the addresses below `Host.userEnd`. Memory is granted there from the upper end
downwards, below everything granted before, so no two ranges overlap and a fresh one has never
been used. Address space without memory lies above the addresses of the process and is granted
upwards.
-/

namespace BuddySystem

/-- What is granted of an address space. -/
structure Host where
  /-- No range of memory that was granted starts below this address. -/
  low : Nat
  /-- No range without memory that was granted reaches beyond this address. -/
  high : Nat
  deriving DecidableEq

namespace Host

/-- The size of a page in bytes. -/
def pageSize : Nat := 4096

/-- The addresses of a process lie below this: those of 47 bits without the last page. -/
def userEnd : Nat := 2 ^ (47 : Nat) - pageSize

/-- The addresses from here on belong to the process as it is started, and are not granted. -/
def grantEnd : Nat := 2 ^ (47 : Nat) - 2 ^ (40 : Nat)

/-- No request for this much memory, or more, can be served. -/
def memory : Nat := 2 ^ (33 : Nat)

/-- The address space before anything is granted. -/
def fresh : Host := ⟨grantEnd, 2 ^ (47 : Nat)⟩

/-- Grants memory at the greatest address of an alignment that has enough room below everything
granted before, if there is one besides the null address. -/
def grant (size align : Nat) (host : Host) : Option Nat × Host :=
  let addr := (host.low - size) / align * align
  if addr = 0 then (none, host) else (some addr, { host with low := addr })

/-- Grants address space without memory at the next address of an alignment. -/
def reserve (size align : Nat) (host : Host) : Nat × Host :=
  let addr := Word.roundUp host.high align
  (addr, { host with high := addr + size })

/-- The heap. It serves every request that has a layout and some bytes, within the memory of the
machine. -/
def heap : Provider Host where
  allocate size align := do
    if size = 0 || (Layout.ofSize? size align).isNone || size + align ≥ memory then
      return none
    return (← modifyGet (grant size align)).map (⟨·, size⟩)
  deallocate _ _ _ := return ()

/-- Address space without memory behind it, of which there is always enough. -/
def sparse : Provider Host where
  allocate size align := return some ⟨← modifyGet (reserve size align), size⟩
  deallocate _ _ _ := return ()

/-- The end of the address space: every request is granted at the greatest address of its
alignment. -/
def top : Provider Host where
  allocate size align := return some ⟨Word.bound - align, size⟩
  deallocate _ _ _ := return ()

/-- The operating system. A range of addresses can be unmapped if it starts with a page, has some,
and lies within the addresses of the process, whether or not it was mapped. -/
def kernel : Kernel Host where
  pageSize
  map len host :=
    if len = 0 ∨ len ≥ memory then
      (none, host)
    else
      grant len pageSize host
  unmap addr len host :=
    (addr % pageSize = 0 ∧ len ≠ 0 ∧ addr + len ≤ userEnd, host)

end Host

end BuddySystem
