import BuddySystem.Evaluation.Report
import BuddySystem.Proofs.Evaluation.Course
import BuddySystem.Proofs.Provider
import Mathlib.Algebra.Order.Ring.Nat
import Mathlib.Algebra.Order.Sub.Basic
import Mathlib.Data.Finset.Erase
import Mathlib.Data.Finset.Insert
import Mathlib.Data.Nat.SuccPred

/-!
# Calls of an evaluation

An evaluation gives back what it was granted, and nothing else: for every call that gives memory
back there is an earlier request that was granted this memory, and no two of these calls belong to
the same request (`Paired`). This holds of the calls on any subject, whatever it does
(`accountable_evaluate`). To write the calls down changes nothing else (`mirrors_evaluate`).

The invariant is that the blocks that are held are the granted requests to which no call belongs yet
(`Owing`).
-/

namespace BuddySystem

namespace Evaluation

/-! ## Places of calls -/

section

variable {transfers : List Transfer} {transfer : Transfer} {place addr size align : Nat}
  {origin : Nat → Nat}

/-- The places of the requests that were granted. -/
def grants (transfers : List Transfer) : Set Nat :=
  { place | ∃ size align slice, transfers[place]? = some (.allocate size align (some slice)) }

/-- The places of the calls that give memory back. -/
def returns (transfers : List Transfer) : Set Nat :=
  { place | ∃ addr size align, transfers[place]? = some (.deallocate addr size align) }

/-- Whether the request at a place was granted memory, and nothing is wrong with it. -/
def GrantedAt (transfers : List Transfer) (place addr size align : Nat) : Prop :=
  ∃ slice, transfers[place]? = some (.allocate size align (some slice)) ∧ slice.addr = addr ∧
    Sound ⟨size, align⟩ slice

/-- Every call that gives memory back belongs to a request. -/
structure Paired (transfers : List Transfer) (origin : Nat → Nat) : Prop where
  /-- The request comes before the call, and was granted the memory that the call names. -/
  earlier : ∀ place addr size align, transfers[place]? = some (.deallocate addr size align) →
    origin place < place ∧ GrantedAt transfers (origin place) addr size align
  /-- No two calls belong to the same request. -/
  once : Set.InjOn origin (returns transfers)

/-- The calls up to one more are the calls before it, and this one at the end. -/
theorem getElem?_concat_eq_some {other : Transfer} :
    (transfers ++ [transfer])[place]? = some other ↔
      transfers[place]? = some other ∨ place = transfers.length ∧ transfer = other := by
  rcases Nat.lt_trichotomy place transfers.length with hlt | rfl | hgt
  · simp [List.getElem?_append_left hlt, hlt.ne]
  · simp
  · simp [hgt.ne', hgt.le, List.getElem?_eq_none, Nat.succ_le_of_lt hgt]

theorem lt_length_of_mem_returns (h : place ∈ returns transfers) : place < transfers.length := by
  obtain ⟨addr, size, align, h⟩ := h
  exact (List.getElem?_eq_some_iff.1 h).1

theorem lt_length_of_mem_grants (h : place ∈ grants transfers) : place < transfers.length := by
  obtain ⟨size, align, slice, h⟩ := h
  exact (List.getElem?_eq_some_iff.1 h).1

theorem GrantedAt.mem_grants (h : GrantedAt transfers place addr size align) :
    place ∈ grants transfers := by
  obtain ⟨slice, h, -⟩ := h
  exact ⟨size, align, slice, h⟩

theorem GrantedAt.concat (h : GrantedAt transfers place addr size align) (transfer : Transfer) :
    GrantedAt (transfers ++ [transfer]) place addr size align := by
  obtain ⟨slice, h, hsound⟩ := h
  exact ⟨slice, getElem?_concat_eq_some.2 (.inl h), hsound⟩

theorem returns_concat_allocate (granted : Option Slice) :
    returns (transfers ++ [.allocate size align granted]) = returns transfers := by
  ext place
  simp [returns, getElem?_concat_eq_some]

/-- The call that gives memory back stands at the end. -/
theorem returns_concat_deallocate :
    returns (transfers ++ [.deallocate addr size align]) =
      insert transfers.length (returns transfers) := by
  ext place
  simp [returns, getElem?_concat_eq_some, exists_or, or_comm]

theorem grants_concat_refused :
    grants (transfers ++ [.allocate size align none]) = grants transfers := by
  ext place
  simp [grants, getElem?_concat_eq_some]

/-- The request that is granted stands at the end. -/
theorem grants_concat_granted (slice : Slice) :
    grants (transfers ++ [.allocate size align (some slice)]) =
      insert transfers.length (grants transfers) := by
  ext place
  simp [grants, getElem?_concat_eq_some, exists_or, or_comm]

theorem grants_concat_deallocate :
    grants (transfers ++ [.deallocate addr size align]) = grants transfers := by
  ext place
  simp [grants, getElem?_concat_eq_some]

namespace Paired

theorem nil (origin : Nat → Nat) : Paired [] origin where
  earlier place addr size align h := by simp at h
  once place h := by simp [returns] at h

/-- A request does not give anything back, whatever comes of it. -/
theorem concat_allocate (h : Paired transfers origin) (granted : Option Slice) :
    Paired (transfers ++ [.allocate size align granted]) origin where
  earlier place addr size align hplace := by
    rcases getElem?_concat_eq_some.1 hplace with hplace | ⟨-, heq⟩
    · obtain ⟨hlt, hgranted⟩ := h.earlier place addr size align hplace
      exact ⟨hlt, hgranted.concat _⟩
    · cases heq
  once := by
    rw [returns_concat_allocate]
    exact h.once

/-- A call gives back what the request at a place was granted, to which no call belongs yet. -/
theorem concat_deallocate (h : Paired transfers origin)
    (hgranted : GrantedAt transfers place addr size align)
    (hopen : ∀ back ∈ returns transfers, origin back ≠ place) :
    Paired (transfers ++ [.deallocate addr size align])
      (Function.update origin transfers.length place) where
  earlier back addr size align hback := by
    rcases getElem?_concat_eq_some.1 hback with hback | ⟨rfl, heq⟩
    · have hlt := (List.getElem?_eq_some_iff.1 hback).1
      obtain ⟨hearlier, hgranted⟩ := h.earlier back addr size align hback
      rw [Function.update_of_ne hlt.ne]
      exact ⟨hearlier, hgranted.concat _⟩
    · cases heq
      rw [Function.update_self]
      exact ⟨lt_length_of_mem_grants hgranted.mem_grants, hgranted.concat _⟩
  once := by
    have hnew : transfers.length ∉ returns transfers := fun hmem =>
      (lt_length_of_mem_returns hmem).ne rfl
    have hold : Set.EqOn (Function.update origin transfers.length place) origin
        (returns transfers) :=
      fun back hmem => Function.update_of_ne (lt_length_of_mem_returns hmem).ne _ _
    rw [returns_concat_deallocate, Set.injOn_insert hnew, hold.injOn_iff, hold.image_eq,
      Function.update_self]
    refine ⟨h.once, ?_⟩
    rintro ⟨back, hmem, heq⟩
    exact hopen back hmem heq

end Paired

/-! ## Requests that are open -/

/-- The blocks that are held were granted to the open requests, and these are the granted requests
to which no call belongs. -/
structure Owing (transfers : List Transfer) (held : List Holding) (origin : Nat → Nat)
    (unpaired : Finset Nat) : Prop where
  paired : Paired transfers origin
  granted : Multiset.Rel (fun (holding : Holding) place => GrantedAt transfers place
    holding.slice.addr holding.request.size holding.request.align) held unpaired.val
  mem_iff : ∀ place, place ∈ unpaired ↔
    place ∈ grants transfers ∧ ∀ back ∈ returns transfers, origin back ≠ place

namespace Owing

variable {held rest : List Holding} {holding : Holding} {unpaired : Finset Nat}

theorem nil (origin : Nat → Nat) : Owing [] [] origin ∅ where
  paired := .nil origin
  granted := .zero
  mem_iff place := by simp [grants]

theorem perm (h : Owing transfers held origin unpaired) (hperm : held.Perm rest) :
    Owing transfers rest origin unpaired where
  paired := h.paired
  granted := Multiset.coe_eq_coe.2 hperm ▸ h.granted
  mem_iff := h.mem_iff

/-- A request that is refused opens nothing. -/
theorem refused (h : Owing transfers held origin unpaired) :
    Owing (transfers ++ [.allocate size align none]) held origin unpaired where
  paired := h.paired.concat_allocate none
  granted := h.granted.mono fun _ _ _ _ hgranted => hgranted.concat _
  mem_iff place := by
    rw [grants_concat_refused, returns_concat_allocate]
    exact h.mem_iff place

/-- A request that is granted a sound slice is open, and the slice is held. -/
theorem served (h : Owing transfers held origin unpaired) {request : Request} {slice : Slice}
    (hsound : Sound request slice) (number : Nat) :
    Owing (transfers ++ [.allocate request.size request.align (some slice)])
      (held ++ [⟨slice, request, number⟩]) origin (insert transfers.length unpaired) where
  paired := h.paired.concat_allocate (some slice)
  granted := by
    have hnew : transfers.length ∉ unpaired := fun hmem =>
      (lt_length_of_mem_grants ((h.mem_iff _).1 hmem).1).ne rfl
    have hheld : ((held ++ [⟨slice, request, number⟩] : List Holding) : Multiset Holding) =
        ⟨slice, request, number⟩ ::ₘ (held : Multiset Holding) :=
      Multiset.coe_eq_coe.2 (List.perm_append_singleton _ _)
    rw [Finset.insert_val_of_notMem hnew, hheld]
    refine .cons ⟨slice, getElem?_concat_eq_some.2 (.inr ⟨rfl, rfl⟩), rfl, hsound⟩ ?_
    exact h.granted.mono fun _ _ _ _ hgranted => hgranted.concat _
  mem_iff place := by
    rw [grants_concat_granted, returns_concat_allocate, Finset.mem_insert, Set.mem_insert_iff,
      h.mem_iff, or_and_right]
    refine or_congr_left (iff_self_and.2 ?_)
    rintro rfl back hback heq
    -- A call belongs to an earlier request, so to none that is made now.
    obtain ⟨addr, size, align, hplace⟩ := hback
    have hlt := (List.getElem?_eq_some_iff.1 hplace).1
    have hearlier := (h.paired.earlier back addr size align hplace).1
    omega

/-- The request of a block that is given back is no longer open. -/
theorem returned (h : Owing transfers (holding :: rest) origin unpaired) :
    ∃ origin unpaired, Owing (transfers ++
      [.deallocate holding.slice.addr holding.request.size holding.request.align]) rest origin
        unpaired := by
  have hgranted := h.granted
  rw [← Multiset.cons_coe, Multiset.rel_cons_left] at hgranted
  obtain ⟨place, others, hplace, hothers, heq⟩ := hgranted
  have hmem : place ∈ unpaired := by
    rw [← Finset.mem_val, heq]
    exact Multiset.mem_cons_self _ _
  have hopen := ((h.mem_iff place).1 hmem).2
  refine ⟨Function.update origin transfers.length place, unpaired.erase place,
    h.paired.concat_deallocate hplace hopen, ?_, fun other => ?_⟩
  · rw [Finset.erase_val, heq, Multiset.erase_cons_head]
    exact hothers.mono fun _ _ _ _ hgranted => hgranted.concat _
  · rw [grants_concat_deallocate, returns_concat_deallocate, Finset.mem_erase, h.mem_iff]
    simp only [Set.mem_insert_iff, forall_eq_or_imp, Function.update_self]
    have hold : ∀ back ∈ returns transfers,
        Function.update origin transfers.length place back = origin back := fun back hback =>
      Function.update_of_ne (lt_length_of_mem_returns hback).ne _ _
    grind

end Owing

end

/-! ## Calls that are written down -/

section

variable {σ : Type} {subject : Subject σ} {before after start : Memory × Recorded σ}
  {held rest : List Holding}

/-- A request is written down with what it was granted. -/
theorem transfers_allocate {size align : Nat} {granted : Option Slice}
    (h : ((recorded subject).allocate size align).run before = .ok granted after) :
    after.2.transfers = before.2.transfers ++ [.allocate size align granted] := by
  rw [recorded, Provider.run_allocate_recordedBy] at h
  split at h
  · cases h
    rfl
  · cases h

/-- A request that is broken off is not written down. -/
theorem transfers_allocate_error {size align : Nat} {abort : Abort}
    (h : ((recorded subject).allocate size align).run before = .error abort after) :
    after.2.transfers = before.2.transfers := by
  rw [recorded, Provider.run_allocate_recordedBy] at h
  split at h
  · cases h
  · cases h
    rfl

/-- Memory that is given back is written down, even if that is broken off. -/
theorem transfers_deallocate (subject : Subject σ) (addr size align : Nat)
    (before : Memory × Recorded σ) :
    (stateOf (((recorded subject).deallocate addr size align).run before)).2.transfers =
      before.2.transfers ++ [.deallocate addr size align] := by
  rw [recorded, Provider.run_deallocate_recordedBy, Focus.run_run]
  split <;> rfl

/-- Whether the blocks that are held are the granted requests to which no call belongs. -/
def Owed (held : List Holding) (state : Memory × Recorded σ) : Prop :=
  ∃ origin unpaired, Owing state.2.transfers held origin unpaired

namespace Owed

theorem nil (memory : Memory) (state : σ) : Owed [] (memory, ⟨state, []⟩) :=
  ⟨id, ∅, .nil id⟩

theorem perm (h : Owed held before) (hperm : held.Perm rest) : Owed rest before := by
  obtain ⟨origin, unpaired, howing⟩ := h
  exact ⟨origin, unpaired, howing.perm hperm⟩

/-- A block that is given back is no longer owed, even if that is broken off. -/
theorem returned (subject : Subject σ) {holding : Holding} (h : Owed (holding :: rest) before) :
    Owed rest (stateOf ((takeBack (recorded subject) holding.block).run before)) := by
  obtain ⟨origin, unpaired, howing⟩ := h
  obtain ⟨origin, unpaired, hreturned⟩ := howing.returned
  rw [Owed, takeBack, transfers_deallocate]
  exact ⟨origin, unpaired, hreturned⟩

/-- A block that an operation paints anew and gives back is no longer owed. -/
theorem repainted (subject : Subject σ) (h : Owed held before) {place : Nat}
    {holding : Holding} (htaken : SwapRemoved held place holding rest) (id : UInt64) :
    Owed rest (stateOf ((takeBack (recorded subject) holding.block).run
      (before.1.paint holding.slice id, before.2))) := by
  have hpainted : Owed (holding :: rest) (before.1.paint holding.slice id, before.2) :=
    h.perm htaken.perm
  exact hpainted.returned subject

/-- While blocks are owed, every call that gives memory back belongs to a request. -/
theorem exists_paired (h : Owed held after) : ∃ origin, Paired after.2.transfers origin := by
  obtain ⟨origin, unpaired, howing⟩ := h
  exact ⟨origin, howing.paired⟩

/-- When nothing is held, every granted request has a call that belongs to it. -/
theorem bijOn (h : Owed [] after) :
    ∃ origin, Paired after.2.transfers origin ∧
      Set.BijOn origin (returns after.2.transfers) (grants after.2.transfers) := by
  obtain ⟨origin, unpaired, howing⟩ := h
  refine ⟨origin, howing.paired, ?_, howing.paired.once, ?_⟩
  · intro back hback
    obtain ⟨addr, size, align, hplace⟩ := hback
    exact (howing.paired.earlier back addr size align hplace).2.mem_grants
  · intro place hplace
    have hnone : unpaired = ∅ := by
      have hgranted := howing.granted
      rw [Multiset.coe_nil, Multiset.rel_zero_left, Finset.val_eq_zero] at hgranted
      exact hgranted
    by_contra hopen
    have hmem : place ∈ unpaired := (howing.mem_iff place).2
      ⟨hplace, fun back hback heq => hopen ⟨back, hback, heq⟩⟩
    rw [hnone] at hmem
    exact Finset.notMem_empty place hmem

end Owed

/-- An operation that reveals no flaw leaves the blocks that it holds owed. -/
theorem Performs.owed {number : Nat} {operation : Operation}
    (h : Performs (recorded subject) held before number operation rest after)
    (howed : Owed held before) : Owed rest after := by
  cases h with
  | refused hrun =>
      obtain ⟨origin, unpaired, howing⟩ := howed
      rw [Owed, transfers_allocate hrun]
      exact ⟨origin, unpaired, howing.refused⟩
  | served hrun hsound =>
      obtain ⟨origin, unpaired, howing⟩ := howed
      rw [Owed, transfers_allocate hrun]
      exact ⟨origin, _, howing.served hsound number⟩
  | skipped => exact howed
  | returned htaken _ hrun =>
      have hafter := howed.repainted subject htaken number.toUInt64
      rwa [hrun] at hafter

/-- Any number of operations that reveal no flaw leave the blocks that they hold owed. -/
theorem Performed.owed {completed : List Operation}
    (h : Performed (recorded subject) start completed held after) (hstart : Owed [] start) :
    Owed held after := by
  induction h with
  | start => exact hstart
  | step _ hstep ih => exact hstep.owed ih

/-- Blocks that are given back in the end leave the rest owed. -/
theorem Drained.owed (h : Drained (recorded subject) held start rest after)
    (hstart : Owed held start) : Owed rest after := by
  induction h with
  | start => exact hstart
  | step _ _ hrun ih =>
      have hafter := ih.returned subject
      rwa [hrun] at hafter

/-- When an operation reveals a flaw, every call that gives memory back belongs to a request. -/
theorem Reveals.exists_paired {operation : Operation} {flaw : Flaw}
    (h : Reveals (recorded subject) held before operation flaw after) (howed : Owed held before) :
    ∃ origin, Paired after.2.transfers origin := by
  obtain ⟨origin, hpaired⟩ := howed.exists_paired
  refine ⟨origin, ?_⟩
  cases h with
  | zeroSize hrun | wrongLength hrun | misaligned hrun =>
      rw [transfers_allocate hrun]
      exact hpaired.concat_allocate _
  | overwritten => exact hpaired

/-- When an operation is broken off, every call that gives memory back belongs to a request. -/
theorem Breaks.exists_paired {number : Nat} {operation : Operation} {abort : Abort}
    (h : Breaks (recorded subject) held before number operation abort after)
    (howed : Owed held before) : ∃ origin, Paired after.2.transfers origin := by
  cases h with
  | allocate hrun =>
      rw [transfers_allocate_error hrun]
      exact howed.exists_paired
  | unaligned hrun =>
      obtain ⟨origin, hpaired⟩ := howed.exists_paired
      rw [transfers_allocate hrun]
      exact ⟨origin, hpaired.concat_allocate _⟩
  | deallocate htaken _ hrun =>
      have hafter := howed.repainted subject htaken number.toUInt64
      rw [hrun] at hafter
      exact hafter.exists_paired

/-- However an evaluation ends, every call that gives memory back belongs to a request. -/
theorem Concludes.exists_paired {operations : List Operation}
    {result : EStateM.Result Abort (Memory × Recorded σ) (Except Failure Unit)}
    (h : Concludes (recorded subject) start operations result) (hstart : Owed [] start) :
    ∃ origin, Paired (stateOf result).2.transfers origin := by
  cases h with
  | flawed _ hperformed hflaw => exact hflaw.exists_paired (hperformed.owed hstart)
  | broken _ hperformed hbreak => exact hbreak.exists_paired (hperformed.owed hstart)
  | overwritten hperformed hdrained | passed hperformed hdrained =>
      exact (hdrained.owed (hperformed.owed hstart)).exists_paired
  | undrained hperformed hdrained _ hrun =>
      have hafter := (hdrained.owed (hperformed.owed hstart)).returned subject
      rw [hrun] at hafter
      exact hafter.exists_paired

end

/-! ## Evaluations with the calls written down -/

section

variable {σ : Type} (subject : Subject σ)

theorem mirrors_allocate (size align : Nat) :
    Mirrors beside.view ((recorded subject).allocate size align) (subject.allocate size align) := by
  refine subject.mirrors_allocate_recordedBy beside _ ?_ ?_ size align <;> exact fun _ _ => rfl

theorem mirrors_deallocate (addr size align : Nat) :
    Mirrors beside.view ((recorded subject).deallocate addr size align)
      (subject.deallocate addr size align) := by
  refine subject.mirrors_deallocate_recordedBy beside _ ?_ ?_ addr size align <;>
    exact fun _ _ => rfl

/-- A block is verified, painted and given back as without writing it down. -/
theorem mirrors_giveBack (block : Block) (repaint : Option UInt64) :
    Mirrors beside.view (giveBack (recorded subject) block repaint)
      (giveBack subject block repaint) := by
  intro before
  by_cases hverify : block.verify before.1
  · have hmirrored : block.verify (beside.view before).1 := hverify
    have hback := (mirrors_deallocate subject block.slice.addr block.request.size
      block.request.align).bind fun _ => .pure beside.view (Except.ok () : Except Flaw Unit)
    simp only [giveBack, EStateM.run_bind, EStateM.run_get, hverify, hmirrored, if_true]
    cases repaint with
    | none => exact hback before
    | some id => exact hback (before.1.paint block.slice id, before.2)
  · have hmirrored : ¬block.verify (beside.view before).1 := hverify
    rw [run_giveBack_spoiled (recorded subject) hverify, run_giveBack_spoiled subject hmirrored]
    rfl

theorem mirrors_perform (id : UInt64) (held : List Block) (operation : Operation) :
    Mirrors beside.view (perform (recorded subject) id held operation)
      (perform subject id held operation) := by
  cases operation with
  | alloc request =>
      refine (mirrors_allocate subject request.size request.align).bind fun granted => ?_
      cases granted with
      | none => exact .pure _ _
      | some slice =>
          intro before
          dsimp only
          cases check request slice with
          | error fault => rfl
          | ok flaw? => cases flaw? <;> rfl
  | dealloc index =>
      rw [perform, perform]
      cases takeModulo held index with
      | none => exact .pure _ _
      | some taken => exact (mirrors_giveBack subject _ _).bind fun _ => .pure _ _

/-- A number of operations do what they do when no calls are written down. -/
theorem mirrors_performAll (completed : List Operation) (held : List Block)
    (operations : List Operation) :
    Mirrors beside.view (performAll (recorded subject) completed held operations)
      (performAll subject completed held operations) := by
  induction operations generalizing completed held with
  | nil => exact .pure _ _
  | cons operation rest ih =>
      refine (mirrors_perform subject _ _ _).bind fun answer => ?_
      cases answer with
      | error flaw => exact .pure _ _
      | ok held => exact ih _ _

theorem mirrors_drain (held : List Block) :
    Mirrors beside.view (drain (recorded subject) held) (drain subject held) := by
  induction held with
  | nil => exact .pure _ _
  | cons block rest ih =>
      refine (mirrors_giveBack subject _ _).bind fun answer => ?_
      cases answer with
      | error flaw => exact .pure _ _
      | ok done => exact ih

/-- Writing the calls down changes nothing else. -/
theorem mirrors_evaluate (operations : List Operation) :
    Mirrors beside.view (evaluate (recorded subject) operations) (evaluate subject operations) := by
  refine (mirrors_performAll subject _ _ _).bind fun answer => ?_
  cases answer with
  | error failure => exact .pure _ _
  | ok held =>
      refine (mirrors_drain subject held).bind fun answer => ?_
      cases answer <;> exact .pure _ _

end

/-- The calls that an operation makes until it reveals a flaw. -/
inductive CallsUntilFlaw : Operation → List Transfer → Prop
  | alloc (request : Request) (slice : Slice) :
      CallsUntilFlaw (.alloc request) [.allocate request.size request.align (some slice)]
  | dealloc (index : Nat) : CallsUntilFlaw (.dealloc index) []

/-- An operation that reveals a flaw has made one request, or none if it gives a block back. -/
theorem Reveals.callsUntilFlaw {σ : Type} {subject : Subject σ} {held : List Holding}
    {before after : Memory × Recorded σ} {operation : Operation} {flaw : Flaw}
    (h : Reveals (recorded subject) held before operation flaw after) :
    ∃ calls, CallsUntilFlaw operation calls ∧
      after.2.transfers = before.2.transfers ++ calls := by
  cases h with
  | zeroSize hrun | wrongLength hrun | misaligned hrun =>
      exact ⟨_, .alloc _ _, transfers_allocate hrun⟩
  | overwritten => exact ⟨[], .dealloc _, (List.append_nil _).symm⟩

/-- An evaluation with the calls on the subject written down. -/
abbrev evaluateRecorded {σ : Type} (subject : Subject σ) (start : Memory × σ)
    (operations : List Operation) :
    EStateM.Result Abort (Memory × Recorded σ) (Except Failure Unit) :=
  (evaluate (recorded subject) operations).run (start.1, ⟨start.2, []⟩)

/-- An evaluation accounts for everything that it was granted. -/
structure Accountable {σ : Type} (subject : Subject σ) (start : Memory × σ)
    (operations : List Operation) : Prop where
  /-- The evaluation comes to what it comes to when no calls are written down. -/
  mirrored : viewed beside.view (evaluateRecorded subject start operations) =
    (evaluate subject operations).run start
  /-- Memory is given back once at most, and only what was granted before without a flaw. -/
  paired : ∃ origin, Paired (stateOf (evaluateRecorded subject start operations)).2.transfers origin
  /-- If no flaw is found, everything that was granted is given back. -/
  settled : ∀ after, evaluateRecorded subject start operations = .ok (.ok ()) after →
    ∃ origin, Paired after.2.transfers origin ∧
      Set.BijOn origin (returns after.2.transfers) (grants after.2.transfers)
  /-- There is no call after one that reveals a flaw, or after a block was found overwritten that
  an operation is to give back. -/
  flawed : ∀ completed operation flaw after,
    evaluateRecorded subject start operations =
        .ok (.error ⟨completed, some operation, flaw⟩) after →
      ∃ held before calls,
        Performed (recorded subject) (start.1, ⟨start.2, []⟩) completed held before ∧
        Reveals (recorded subject) held before operation flaw after ∧
        CallsUntilFlaw operation calls ∧ after.2.transfers = before.2.transfers ++ calls
  /-- There is no call after a block was found overwritten in the end. -/
  overwritten : ∀ completed flaw after,
    evaluateRecorded subject start operations = .ok (.error ⟨completed, none, flaw⟩) after →
      ∃ held between holding rest,
        Performed (recorded subject) (start.1, ⟨start.2, []⟩) operations held between ∧
        Drained (recorded subject) held between (holding :: rest) after ∧
        ¬holding.Unspoiled after.1

end Evaluation

open Evaluation

/-- An evaluation of any subject accounts for everything that it was granted. -/
theorem accountable_evaluate {σ : Type} (subject : Subject σ) (start : Memory × σ)
    (operations : List Operation) : Accountable subject start operations := by
  have hconcludes : Concludes (recorded subject) _ operations
      (evaluateRecorded subject start operations) := concludes_evaluate _ _ _
  have hstart : Owed [] (start.1, (⟨start.2, []⟩ : Recorded σ)) := .nil start.1 start.2
  refine ⟨mirrors_evaluate subject operations _, hconcludes.exists_paired hstart,
    fun after h => ?_, fun completed operation flaw after h => ?_,
    fun completed flaw after h => ?_⟩
  · rw [h] at hconcludes
    cases hconcludes with
    | passed hperformed hdrained => exact (hdrained.owed (hperformed.owed hstart)).bijOn
  · rw [h] at hconcludes
    cases hconcludes with
    | flawed _ hperformed hflaw =>
        obtain ⟨calls, hcalls, htransfers⟩ := hflaw.callsUntilFlaw
        exact ⟨_, _, calls, hperformed, hflaw, hcalls, htransfers⟩
  · rw [h] at hconcludes
    cases hconcludes with
    | overwritten hperformed hdrained hbytes =>
        exact ⟨_, _, _, _, hperformed, hdrained, hbytes⟩

end BuddySystem
