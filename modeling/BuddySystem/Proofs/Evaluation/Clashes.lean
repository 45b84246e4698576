import BuddySystem.Proofs.Evaluation.Course
import Mathlib.Data.List.Nodup

/-!
# Blocks that overlap in the end

Two slices clash if they share eight addresses in a row, counted from starts that agree modulo eight
(`Slice.Clash`). Blocks that clash and both have the bytes of their numbers have the same number
(`Slice.Clash.number_mod_eq`): in such a window every byte of a number can be seen. But blocks that
are held at the same time have different numbers (`Performed.numbered`). So if nothing is written
while blocks are given back, one of two blocks that clash is found to be overwritten in the end
(`overwritten_of_clash`, `found_of_clash`), whatever was painted before and whichever of them comes
first.
-/

namespace BuddySystem

/-- Whether two slices share eight addresses in a row, and their starts agree modulo eight. -/
structure Slice.Clash (left right : Slice) : Prop where
  mod_eq : left.addr % 8 = right.addr % 8
  exists_window : ∃ addr, ∀ i < 8, addr + i ∈ left.addresses ∧ addr + i ∈ right.addresses

namespace Evaluation

/-! ## Bytes that two blocks share -/

/-- Numbers that agree in their lowest bytes agree modulo the range of these bytes. -/
theorem mod_eq_of_bytes {number other : Nat} (count : Nat)
    (h : ∀ i < count, number / 256 ^ i % 256 = other / 256 ^ i % 256) :
    number % 256 ^ count = other % 256 ^ count := by
  induction count with
  | zero => rw [Nat.pow_zero, Nat.mod_one, Nat.mod_one]
  | succ count ih =>
      rw [Nat.mod_pow_succ, Nat.mod_pow_succ, h count (Nat.lt_succ_self count),
        ih fun i hi => h i (Nat.lt_succ_of_lt hi)]

/-- A block that has the bytes of its number shows them at each of its addresses. -/
theorem Holding.Unspoiled.read_eq {holding : Holding} {memory : Memory} {addr : Nat}
    (h : holding.Unspoiled memory) (hmem : addr ∈ holding.slice.addresses) :
    (memory.read addr).toNat =
      holding.number / 256 ^ ((addr - holding.slice.addr) % 8) % 256 := by
  obtain ⟨hle, hlt⟩ := hmem
  have hbyte := h (addr - holding.slice.addr) (by omega)
  rwa [Nat.add_sub_cancel' hle] at hbyte

/-- Blocks that clash and both have the bytes of their numbers have the same number, as far as it
is painted. -/
theorem Slice.Clash.number_mod_eq {holding other : Holding} {memory : Memory}
    (hclash : holding.slice.Clash other.slice) (h : holding.Unspoiled memory)
    (hother : other.Unspoiled memory) :
    holding.number % Word.bound = other.number % Word.bound := by
  obtain ⟨hmod, addr, hwindow⟩ := hclash
  refine mod_eq_of_bytes 8 fun digit hdigit => ?_
  -- The place in the window at which both blocks show this byte of their numbers.
  obtain ⟨i, hi, hplace⟩ : ∃ i < 8, (addr + i - holding.slice.addr) % 8 = digit :=
    ⟨(digit + 8 - (addr - holding.slice.addr) % 8) % 8, Nat.mod_lt _ (by decide), by
      have hle := (hwindow 0 (by decide)).1.1
      omega⟩
  obtain ⟨hmem, hmem'⟩ := hwindow i hi
  have hplace' : (addr + i - other.slice.addr) % 8 = digit := by
    have hle := hmem.1
    have hle' := hmem'.1
    omega
  rw [← hplace, ← h.read_eq hmem, hplace, ← hplace', ← hother.read_eq hmem']

/-! ## Numbers of blocks -/

variable {σ : Type} {subject : Subject σ} {start before between after : Memory × σ}
  {completed operations : List Operation} {held rest : List Holding} {blocks : List Block}

/-- Blocks that are held have different numbers, all of them numbers of operations before. -/
structure Numbered (count : Nat) (held : List Holding) : Prop where
  nodup : (held.map Holding.number).Nodup
  lt : ∀ holding ∈ held, holding.number < count

/-- An operation that reveals no flaw leaves the held blocks numbered. -/
theorem Performs.numbered {count : Nat} {operation : Operation}
    (h : Performs subject held before count operation rest after) (hheld : Numbered count held) :
    Numbered (count + 1) rest := by
  have hlt : ∀ holding ∈ held, holding.number < count + 1 := fun holding hmem =>
    Nat.lt_succ_of_lt (hheld.lt holding hmem)
  cases h with
  | refused => exact ⟨hheld.nodup, hlt⟩
  | served =>
      refine ⟨?_, ?_⟩
      · rw [List.map_append, List.map_singleton, List.nodup_append_comm]
        refine List.nodup_cons.2 ⟨fun hmem => ?_, hheld.nodup⟩
        obtain ⟨holding, hmem, heq⟩ := List.mem_map.1 hmem
        exact (hheld.lt holding hmem).ne heq
      · intro holding hmem
        rcases List.mem_append.1 hmem with hmem | hmem
        · exact hlt holding hmem
        · obtain rfl := List.mem_singleton.1 hmem
          exact Nat.lt_succ_self count
  | skipped => exact ⟨hheld.nodup, hlt⟩
  | returned htaken =>
      have hperm := htaken.perm
      refine ⟨?_, fun holding hmem => hlt holding ?_⟩
      · exact ((hperm.map Holding.number).nodup_iff.1 hheld.nodup).of_cons
      · exact hperm.mem_iff.2 (List.mem_cons_of_mem _ hmem)

/-- Any number of operations leave the held blocks numbered below their number. -/
theorem Performed.numbered (h : Performed subject start completed held after) :
    Numbered completed.length held := by
  induction h with
  | start => exact ⟨List.nodup_nil, by simp⟩
  | step _ hstep ih =>
      rw [List.length_append, List.length_singleton]
      exact hstep.numbered ih

/-! ## Giving blocks back without writing -/

/-- Whether a subject that takes a block back changes no byte of the memory. -/
def Quiet (subject : Subject σ) : Prop :=
  ∀ addr size align before after,
    (subject.deallocate addr size align).run before = .ok () after → after.1.read = before.1.read

/-- What a quiet subject has taken back had the bytes of its number from the beginning. -/
theorem Drained.unspoiled (hquiet : Quiet subject) (h : Drained subject held between rest after) :
    after.1.read = between.1.read ∧
      ∀ holding ∈ held, holding ∈ rest ∨ holding.Unspoiled between.1 := by
  induction h with
  | start => exact ⟨rfl, fun _ hmem => .inl hmem⟩
  | @step returned _ _ _ _ hbytes hrun ih =>
      obtain ⟨hread, hheld⟩ := ih
      refine ⟨(hquiet _ _ _ _ _ hrun).trans hread, fun holding hmem => ?_⟩
      rcases hheld holding hmem with hmem | hunspoiled
      · rcases List.mem_cons.1 hmem with rfl | hmem
        · refine .inr fun i hi => ?_
          rw [← hread]
          exact hbytes i hi
        · exact .inl hmem
      · exact .inr hunspoiled

/-- Not all of the blocks that are held can be given back if two of them clash. -/
theorem not_drained_of_clash (hquiet : Quiet subject) (hwords : operations.length ≤ Word.bound)
    (hperformed : Performed subject start operations held between) {i j : Nat}
    {holding other : Holding} (hij : i ≠ j) (hi : held[i]? = some holding)
    (hj : held[j]? = some other) (hclash : holding.slice.Clash other.slice) :
    ¬Drained subject held between [] after := by
  intro hdrained
  have hnumbered := hperformed.numbered
  have hmem := List.mem_of_getElem? hi
  have hmem' := List.mem_of_getElem? hj
  have hunspoiled : ∀ holding ∈ held, holding.Unspoiled between.1 := fun holding hmem =>
    ((hdrained.unspoiled hquiet).2 holding hmem).resolve_left List.not_mem_nil
  have hmod := Slice.Clash.number_mod_eq hclash (hunspoiled holding hmem) (hunspoiled other hmem')
  rw [Nat.mod_eq_of_lt ((hnumbered.lt holding hmem).trans_le hwords),
    Nat.mod_eq_of_lt ((hnumbered.lt other hmem').trans_le hwords)] at hmod
  have hnumber : (held.map Holding.number)[i]? = (held.map Holding.number)[j]? := by
    rw [List.getElem?_map, List.getElem?_map, hi, hj, Option.map_some, Option.map_some, hmod]
  have hlt : i < (held.map Holding.number).length := by
    rw [List.length_map]
    exact (List.getElem?_eq_some_iff.1 hi).1
  exact hij ((List.getElem?_inj hlt hnumbered.nodup).1 hnumber)

/-- Operations that are all performed lead to one list of blocks and one state only. -/
theorem Performed.blocks_eq (h : Performed subject start operations held between)
    (hrun : (performAll subject [] [] operations).run start = .ok (.ok blocks) after) :
    blocks = held.map Holding.block ∧ after = between := by
  have hperform := h.run_performAll []
  rw [List.append_nil, hrun] at hperform
  cases hperform
  exact ⟨rfl, rfl⟩

/-- An evaluation in which two blocks clash at the end reports that a block was overwritten, unless
a block is not taken back. -/
theorem Concludes.of_clash (hquiet : Quiet subject)
    {result : EStateM.Result Abort (Memory × σ) (Except Failure Unit)}
    (h : Concludes subject start operations result) (hwords : operations.length ≤ Word.bound)
    (hrun : (performAll subject [] [] operations).run start = .ok (.ok blocks) between)
    {i j : Nat} (hij : i ≠ j) {block other : Block} (hi : blocks[i]? = some block)
    (hj : blocks[j]? = some other) (hclash : block.slice.Clash other.slice) :
    (∃ after, result = .ok (.error ⟨operations, none, .overwritten⟩) after) ∨
    ∃ abort after, result = .error abort after ∧ ∃ addr size align before,
      (subject.deallocate addr size align).run before = .error abort after := by
  cases h with
  | flawed hoperations hperformed hflaw =>
      rw [hoperations, hperformed.run_performAll] at hrun
      simp only [performAll, EStateM.run_bind, hflaw.run_eq] at hrun
      cases hrun
  | broken hoperations hperformed hbreak =>
      rw [hoperations, hperformed.run_performAll] at hrun
      simp only [performAll, EStateM.run_bind, hbreak.run_eq] at hrun
      cases hrun
  | overwritten => exact .inl ⟨_, rfl⟩
  | undrained _ _ _ hbroken => exact .inr ⟨_, _, rfl, _, _, _, _, hbroken⟩
  | passed hperformed hdrained =>
      obtain ⟨rfl, rfl⟩ := hperformed.blocks_eq hrun
      rw [List.getElem?_map, Option.map_eq_some_iff] at hi hj
      obtain ⟨holding, hi, rfl⟩ := hi
      obtain ⟨other, hj, rfl⟩ := hj
      exact absurd hdrained (not_drained_of_clash hquiet hwords hperformed hij hi hj hclash)

end Evaluation

open Evaluation

/-- If two blocks clash when all operations were performed, and nothing is written when blocks are
given back, the report is that a block was overwritten, found after all operations. There is no
report only if the allocator breaks off taking a block back. Operations are numbered by words. -/
theorem overwritten_of_clash {σ : Type} {subject : Subject σ} (hquiet : Quiet subject)
    {start between : Memory × σ} {operations : List Operation}
    (hwords : operations.length ≤ Word.bound) {blocks : List Block}
    (hrun : (performAll subject [] [] operations).run start = .ok (.ok blocks) between)
    {i j : Nat} (hij : i ≠ j) {block other : Block} (hi : blocks[i]? = some block)
    (hj : blocks[j]? = some other) (hclash : block.slice.Clash other.slice) :
    (∃ after, (evaluate subject operations).run start =
      .ok (.error ⟨operations, none, .overwritten⟩) after) ∨
    ∃ abort after, (evaluate subject operations).run start = .error abort after ∧
      ∃ addr size align before,
        (subject.deallocate addr size align).run before = .error abort after :=
  (concludes_evaluate subject start operations).of_clash hquiet hwords hrun hij hi hj hclash

/-- An allocator whose third block lies over the second one, eight bytes before it. -/
theorem overwritten_of_clash_overlap :
    let subject := Defective.subject ⟨Defective.maxAlign, 64, .overlap, 2⟩
    let operations := [.alloc ⟨8, 8⟩, .dealloc 0, .alloc ⟨24, 8⟩, .alloc ⟨20, 4⟩]
    let start := (Memory.zero Defective.maxAlign, Defective.State.initial)
    Quiet subject ∧ (∃ between, (performAll subject [] [] operations).run start =
      .ok (.ok [⟨⟨Defective.maxAlign + 8, 24⟩, ⟨24, 8⟩, 2⟩,
        ⟨⟨Defective.maxAlign, 20⟩, ⟨20, 4⟩, 3⟩]) between) ∧
    ∃ after, (evaluate subject operations).run start =
      .ok (.error ⟨operations, none, .overwritten⟩) after := by
  intro subject operations start
  have hquiet : Quiet subject := by
    intro addr size align before after hrun
    cases hrun
    rfl
  obtain ⟨between, hrun⟩ : ∃ between, (performAll subject [] [] operations).run start =
      .ok (.ok [⟨⟨Defective.maxAlign + 8, 24⟩, ⟨24, 8⟩, 2⟩,
        ⟨⟨Defective.maxAlign, 20⟩, ⟨20, 4⟩, 3⟩]) between := ⟨_, rfl⟩
  have hclash : Slice.Clash ⟨Defective.maxAlign + 8, 24⟩ ⟨Defective.maxAlign, 20⟩ := by
    refine ⟨by decide, Defective.maxAlign + 8, fun i hi => ?_⟩
    simp only [Slice.addresses, Set.mem_Ico]
    omega
  refine ⟨hquiet, ⟨between, hrun⟩, ?_⟩
  rcases overwritten_of_clash hquiet (by decide) hrun (i := 0) (j := 1) (by decide) rfl rfl hclash
    with hfound | ⟨abort, after, -, addr, size, align, before, hbroken⟩
  · exact hfound
  · -- Taking a block back is not broken off.
    cases hbroken

/-- If blocks are taken back always, without anything being written, there is always a report. -/
theorem found_of_clash {σ : Type} {subject : Subject σ} (hquiet : Quiet subject)
    (hreturns : ∀ addr size align before, ∃ after,
      (subject.deallocate addr size align).run before = .ok () after)
    {start between : Memory × σ} {operations : List Operation}
    (hwords : operations.length ≤ Word.bound) {blocks : List Block}
    (hrun : (performAll subject [] [] operations).run start = .ok (.ok blocks) between)
    {i j : Nat} (hij : i ≠ j) {block other : Block} (hi : blocks[i]? = some block)
    (hj : blocks[j]? = some other) (hclash : block.slice.Clash other.slice) :
    ∃ after, (evaluate subject operations).run start =
      .ok (.error ⟨operations, none, .overwritten⟩) after := by
  rcases (concludes_evaluate subject start operations).of_clash hquiet hwords hrun hij hi hj hclash
    with hfound | ⟨abort, after, -, addr, size, align, before, hbroken⟩
  · exact hfound
  · obtain ⟨taken, hreturned⟩ := hreturns addr size align before
    cases hreturned.symm.trans hbroken

end BuddySystem
