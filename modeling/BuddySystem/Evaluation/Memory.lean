import BuddySystem.Span

/-!
# Memory

A byte for every address. Only a window of the addresses is stored; all bytes outside of it are
zero, and the window grows with the first write outside of it. `read_write` says that a write
changes the byte at its address and no other.
-/

namespace BuddySystem

/-- The bytes of all addresses. -/
structure Memory where
  /-- The first address of the window. -/
  origin : Nat
  /-- The bytes of the window. -/
  window : Array UInt8
  deriving DecidableEq

namespace Memory

/-- Memory that is zero everywhere. Writes at or above `origin` are stored without moving the
window. -/
def zero (origin : Nat) : Memory := ⟨origin, #[]⟩

/-- The byte at an address. -/
def read (memory : Memory) (addr : Nat) : UInt8 :=
  if addr < memory.origin then 0 else memory.window.getD (addr - memory.origin) 0

/-- Memory with another byte at an address. -/
def write (memory : Memory) (addr : Nat) (byte : UInt8) : Memory :=
  if addr < memory.origin then
    ⟨addr, #[byte] ++ Array.replicate (memory.origin - addr - 1) 0 ++ memory.window⟩
  else
    let index := addr - memory.origin
    let ⟨origin, window⟩ := memory
    if index < window.size then
      ⟨origin, window.setIfInBounds index byte⟩
    else
      ⟨origin, (window ++ Array.replicate (index - window.size) 0).push byte⟩

/-- Memory with other bytes at the `len` addresses from `addr` on. -/
def fill (memory : Memory) (addr len : Nat) (byte : Nat → UInt8) : Memory :=
  len.fold (fun i _ memory => memory.write (addr + i) (byte i)) memory

/-- Whether the `len` addresses from `addr` on have these bytes. -/
def holds (memory : Memory) (addr len : Nat) (byte : Nat → UInt8) : Bool :=
  len.all fun i _ => memory.read (addr + i) == byte i

/-- The bytes at the `len` addresses from `addr` on, as a list. -/
def bytes (memory : Memory) (addr len : Nat) : List UInt8 :=
  (List.range len).map fun i => memory.read (addr + i)

/-! ## Reading what was written -/

/-- A write below the window changes the byte at its address and no other. -/
theorem read_write_of_lt (memory : Memory) {addr : Nat} (other : Nat) (byte : UInt8)
    (hbelow : addr < memory.origin) :
    (memory.write addr byte).read other = if other = addr then byte else memory.read other := by
  obtain ⟨origin, window⟩ := memory
  replace hbelow : addr < origin := hbelow
  have hone : #[byte].size = 1 := rfl
  have hsize : (#[byte] ++ Array.replicate (origin - addr - 1) 0).size = origin - addr := by
    rw [Array.size_append, hone, Array.size_replicate]
    omega
  unfold write read
  by_cases hother : other = addr
  · subst hother
    rw [if_pos rfl]
    simp only [hbelow, if_true, Nat.lt_irrefl, if_false, Nat.sub_self,
      Array.getD_eq_getD_getElem?, Array.append_assoc, Array.getElem?_append, hone]
    rfl
  · by_cases hlow : other < addr
    · simp [hbelow, hlow, hother, Nat.lt_trans hlow hbelow]
    · simp only [hbelow, if_true, hlow, if_false, hother, Array.getD_eq_getD_getElem?,
        Array.getElem?_append, Array.getElem?_replicate, hsize, hone]
      -- The window has grown by zeros below the old origin, and moved up behind them.
      by_cases hgap : other < origin
      · rw [if_pos (by omega), if_neg (by omega), if_pos (by omega), if_pos hgap]
        rfl
      · have hmoved : other - addr - (origin - addr) = other - origin := by omega
        rw [if_neg (by omega), if_neg hgap, hmoved]

/-- A write that leaves the window where it is changes the byte at its address and no other. -/
theorem read_write_of_le (memory : Memory) {addr : Nat} (other : Nat) (byte : UInt8)
    (hle : memory.origin ≤ addr) :
    (memory.write addr byte).read other = if other = addr then byte else memory.read other := by
  obtain ⟨origin, window⟩ := memory
  replace hle : origin ≤ addr := hle
  have hbelow : ¬addr < origin := Nat.not_lt.2 hle
  unfold write read
  simp only [hbelow, if_false]
  by_cases hlow : other < origin
  · have hother : other ≠ addr := by omega
    rw [if_neg hother, if_pos hlow]
    split <;> rfl
  · simp only [hlow, if_false]
    have hindex : other - origin = addr - origin ↔ other = addr := by omega
    split
    · next hin =>
        simp only [Array.getD_eq_getD_getElem?, Array.getElem?_setIfInBounds]
        by_cases hother : other = addr
        · subst hother
          rw [if_pos rfl, if_pos hin, if_pos rfl]
          rfl
        · rw [if_neg (Ne.symm (mt hindex.mp hother)), if_neg hother]
    · next hout =>
        have hsize :
            (window ++ Array.replicate (addr - origin - window.size) 0).size = addr - origin := by
          rw [Array.size_append, Array.size_replicate]
          omega
        simp only [Array.getD_eq_getD_getElem?, Array.getElem?_push, Array.getElem?_append,
          Array.getElem?_replicate, hsize, hindex]
        by_cases hother : other = addr
        · rw [if_pos hother, if_pos hother]
          rfl
        · rw [if_neg hother, if_neg hother]
          by_cases hold : other - origin < window.size
          · rw [if_pos hold]
          · -- A byte that is not stored and one that was filled in are both zero.
            rw [if_neg hold, Array.getElem?_eq_none (Nat.le_of_not_lt hold)]
            split <;> rfl

/-- A write changes the byte at its address and no other. -/
theorem read_write (memory : Memory) (addr other : Nat) (byte : UInt8) :
    (memory.write addr byte).read other = if other = addr then byte else memory.read other := by
  rcases Nat.lt_or_ge addr memory.origin with hbelow | hle
  · exact memory.read_write_of_lt other byte hbelow
  · exact memory.read_write_of_le other byte hle

/-- Filling changes the bytes of its range and no others. -/
theorem read_fill (memory : Memory) (addr len other : Nat) (byte : Nat → UInt8) :
    (memory.fill addr len byte).read other =
      if addr ≤ other ∧ other < addr + len then byte (other - addr) else memory.read other := by
  unfold fill
  induction len with
  | zero =>
      rw [if_neg (by omega)]
      rfl
  | succ len ih =>
      rw [Nat.fold_succ, read_write, ih]
      by_cases hlast : other = addr + len
      · subst hlast
        rw [if_pos rfl, if_pos (by omega), Nat.add_sub_cancel_left]
      · rw [if_neg hlast]
        by_cases hmem : addr ≤ other ∧ other < addr + len
        · rw [if_pos hmem, if_pos (by omega)]
        · rw [if_neg hmem, if_neg (by omega)]

/-- A range holds bytes if each of its addresses does. -/
theorem holds_iff (memory : Memory) (addr len : Nat) (byte : Nat → UInt8) :
    memory.holds addr len byte ↔ ∀ i < len, memory.read (addr + i) = byte i := by
  unfold holds
  induction len with
  | zero => simp
  | succ len ih =>
      rw [Nat.all_succ, Bool.and_eq_true, ih]
      grind

end Memory

end BuddySystem
