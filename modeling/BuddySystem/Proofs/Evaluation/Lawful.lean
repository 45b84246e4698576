import BuddySystem.Evaluation.Defective
import BuddySystem.Proofs.Evaluation.Held
import BuddySystem.Proofs.Word
import Mathlib.Order.Interval.Set.Disjoint

/-!
# Lawful subjects

A subject is lawful if it keeps the promises of an allocator at every moment that its evaluations
come to (`Reached`): its calls return, what it grants suits the request and lies apart from the
blocks that are held, and its calls change no byte of these blocks (`Lawful`). No flaw is found in
a lawful subject (`evaluate_eq_ok_of_lawful`).

The invariant is that the blocks that are held are intact (`Lawful.intact`). So an operation leads
from one moment to the next (`Lawful.perform`), and by induction a list of operations does
(`Lawful.performAll`), and giving back what is held in the end (`Lawful.drain`).
-/

namespace BuddySystem.Evaluation

variable {σ : Type}

/-- How far an evaluation has got. -/
inductive Stage where
  /-- A number of operations were performed. -/
  | performed (count : Nat)
  /-- What is held in the end is being given back. -/
  | draining

/-- The call that gives a block back to a subject. -/
abbrev takeBack (subject : Subject σ) (block : Block) : Call (Memory × σ) Unit :=
  subject.deallocate block.slice.addr block.request.size block.request.align

/-- The blocks that are held and the state of a subject at the moments between two operations, in
any evaluation from a start. -/
inductive Reached (subject : Subject σ) (start : Memory × σ) :
    Stage → List Block → Memory × σ → Prop
  | start : Reached subject start (.performed 0) [] start
  | refused {count : Nat} {held : List Block} {before after : Memory × σ} {request : Request}
      (h : Reached subject start (.performed count) held before)
      (hrun : (subject.allocate request.size request.align).run before = .ok none after) :
      Reached subject start (.performed (count + 1)) held after
  | served {count : Nat} {held : List Block} {before after : Memory × σ} {request : Request}
      {slice : Slice} (h : Reached subject start (.performed count) held before)
      (hrun : (subject.allocate request.size request.align).run before = .ok (some slice) after) :
      Reached subject start (.performed (count + 1)) (held ++ [⟨slice, request, count.toUInt64⟩])
        (after.1.paint slice count.toUInt64, after.2)
  /-- A block is to be given back, but none is held. -/
  | skipped {count : Nat} {before : Memory × σ}
      (h : Reached subject start (.performed count) [] before) :
      Reached subject start (.performed (count + 1)) [] before
  | returned {count index : Nat} {held rest : List Block} {block : Block}
      {before after : Memory × σ} (h : Reached subject start (.performed count) held before)
      (htake : takeModulo held index = some (block, rest))
      (hrun : (takeBack subject block).run (before.1.paint block.slice count.toUInt64, before.2) =
        .ok () after) :
      Reached subject start (.performed (count + 1)) rest after
  /-- All operations were performed. -/
  | ended {count : Nat} {held : List Block} {before : Memory × σ}
      (h : Reached subject start (.performed count) held before) :
      Reached subject start .draining held before
  | drained {rest : List Block} {block : Block} {before after : Memory × σ}
      (h : Reached subject start .draining (block :: rest) before)
      (hrun : (takeBack subject block).run before = .ok () after) :
      Reached subject start .draining rest after

/-- A block that is given back, the blocks that are still held, and the state of the subject then,
in any evaluation from a start. -/
inductive Returning (subject : Subject σ) (start : Memory × σ) :
    Block → List Block → Memory × σ → Prop
  /-- An operation paints the block anew. -/
  | repainted {count index : Nat} {held rest : List Block} {block : Block} {before : Memory × σ}
      (h : Reached subject start (.performed count) held before)
      (htake : takeModulo held index = some (block, rest)) :
      Returning subject start block rest (before.1.paint block.slice count.toUInt64, before.2)
  | drained {rest : List Block} {block : Block} {before : Memory × σ}
      (h : Reached subject start .draining (block :: rest) before) :
      Returning subject start block rest before

/-- A slice is what a request asks for, and lies apart from the blocks that are held. -/
structure Suits (held : List Block) (request : Request) (slice : Slice) : Prop where
  size_ne_zero : request.size ≠ 0
  len_eq : slice.len = request.size
  align_ne_zero : request.align ≠ 0
  align_dvd : request.align ∣ slice.addr
  apart : ∀ block ∈ held, Disjoint block.slice.addresses slice.addresses

/-- What an allocator promises, at every moment that its evaluations from a start come to. -/
structure Lawful (subject : Subject σ) (start : Memory × σ) : Prop where
  /-- A request is answered, no byte of a block that is held is changed, and a slice that is granted
  suits the request. -/
  allocate : ∀ {count : Nat} {held : List Block} {before : Memory × σ},
    Reached subject start (.performed count) held before → ∀ request : Request,
    ∃ granted after,
      (subject.allocate request.size request.align).run before = .ok granted after ∧
      Spares held before.1 after.1 ∧ ∀ slice ∈ granted, Suits held request slice
  /-- A block is taken back, and no byte of a block that is still held is changed. -/
  deallocate : ∀ {block : Block} {rest : List Block} {before : Memory × σ},
    Returning subject start block rest before →
    ∃ after, (takeBack subject block).run before = .ok () after ∧ Spares rest before.1 after.1

/-! ## Single calls -/

section

variable {subject : Subject σ} {held rest : List Block} {block : Block} {before after : Memory × σ}
  {request : Request} {slice : Slice} {id : UInt64} {index : Nat}

/-- Nothing is wrong with a slice that suits its request. -/
theorem Suits.check (h : Suits held request slice) : check request slice = .ok none := by
  have hrem : Word.rem slice.addr request.align = .ok 0 := by
    rw [Word.rem, if_neg h.align_ne_zero, Nat.mod_eq_zero_of_dvd h.align_dvd]
  rw [Evaluation.check, if_neg h.size_ne_zero, if_neg (not_not.2 h.len_eq), hrem]
  rfl

theorem run_perform_refused
    (hrun : (subject.allocate request.size request.align).run before = .ok none after) :
    (perform subject id held (.alloc request)).run before = .ok (.ok held) after := by
  simp only [perform, EStateM.run_bind, hrun, EStateM.run_pure]

theorem run_perform_served
    (hrun : (subject.allocate request.size request.align).run before = .ok (some slice) after)
    (hcheck : check request slice = .ok none) :
    (perform subject id held (.alloc request)).run before =
      .ok (.ok (held ++ [⟨slice, request, id⟩])) (after.1.paint slice id, after.2) := by
  simp only [perform, EStateM.run_bind, hrun, hcheck, Call.run_ofChecked_ok, EStateM.run_modify,
    EStateM.run_pure, Block.init]

theorem run_giveBack_some (hverify : block.verify before.1)
    (hrun : (takeBack subject block).run (before.1.paint block.slice id, before.2) =
      .ok () after) :
    (giveBack subject block (some id)).run before = .ok (.ok ()) after := by
  simp only [giveBack, EStateM.run_bind, EStateM.run_get, hverify, if_true, EStateM.run_modify,
    EStateM.run_pure, Block.paint, hrun]

theorem run_giveBack_none (hverify : block.verify before.1)
    (hrun : (takeBack subject block).run before = .ok () after) :
    (giveBack subject block none).run before = .ok (.ok ()) after := by
  simp only [giveBack, EStateM.run_bind, EStateM.run_get, hverify, if_true, EStateM.run_pure, hrun]

end

/-! ## Evaluations of a lawful subject -/

variable {subject : Subject σ} {start before : Memory × σ} {held : List Block}

namespace Lawful

/-- At every moment the blocks that are held are intact. -/
theorem intact (h : Lawful subject start) {stage : Stage}
    (hreached : Reached subject start stage held before) : Intact held before.1 := by
  -- The induction is on the moments; the answer at each of them is the one that was promised.
  induction hreached with
  | start => exact .nil _
  | refused hreached hrun ih =>
      obtain ⟨granted, after, hanswer, hspares, -⟩ := h.allocate hreached _
      cases hanswer.symm.trans hrun
      exact ih.spared hspares
  | served hreached hrun ih =>
      obtain ⟨granted, after, hanswer, hspares, hsuits⟩ := h.allocate hreached _
      cases hanswer.symm.trans hrun
      exact (ih.spared hspares).init (hsuits _ rfl).apart _ _
  | skipped _ ih => exact ih
  | returned hreached htake hrun ih =>
      obtain ⟨after, hanswer, hspares⟩ := h.deallocate (.repainted hreached htake)
      cases hanswer.symm.trans hrun
      exact ((ih.perm (takeModulo_perm htake)).repaint _).spared hspares
  | ended _ ih => exact ih
  | drained hreached hrun ih =>
      obtain ⟨after, hanswer, hspares⟩ := h.deallocate (.drained hreached)
      cases hanswer.symm.trans hrun
      exact ih.tail.spared hspares

/-- An operation finds no flaw. -/
theorem perform (h : Lawful subject start) {count : Nat}
    (hreached : Reached subject start (.performed count) held before) (operation : Operation) :
    ∃ rest after,
      (perform subject count.toUInt64 held operation).run before = .ok (.ok rest) after ∧
      Reached subject start (.performed (count + 1)) rest after := by
  cases operation with
  | alloc request =>
      obtain ⟨granted, after, hrun, -, hsuits⟩ := h.allocate hreached request
      cases granted with
      | none => exact ⟨_, _, run_perform_refused hrun, .refused hreached hrun⟩
      | some slice =>
          have hcheck := (hsuits slice rfl).check
          exact ⟨_, _, run_perform_served hrun hcheck, .served hreached hrun⟩
  | dealloc index =>
      cases htake : takeModulo held index with
      | none =>
          obtain rfl := takeModulo_eq_none_iff.1 htake
          exact ⟨_, _, rfl, .skipped hreached⟩
      | some taken =>
          obtain ⟨block, rest⟩ := taken
          obtain ⟨after, hrun, -⟩ := h.deallocate (.repainted hreached htake)
          have hverify : block.verify before.1 := by
            refine (h.intact hreached).painted block ?_
            exact (takeModulo_perm htake).mem_iff.2 List.mem_cons_self
          refine ⟨rest, after, ?_, .returned hreached htake hrun⟩
          simp only [Evaluation.perform, htake, EStateM.run_bind, run_giveBack_some hverify hrun,
            EStateM.run_pure, Except.map]

/-- No operation finds a flaw. -/
theorem performAll (h : Lawful subject start) {completed : List Operation}
    (hreached : Reached subject start (.performed completed.length) held before)
    (operations : List Operation) :
    ∃ rest after,
      (performAll subject completed held operations).run before = .ok (.ok rest) after ∧
      Reached subject start (.performed (completed ++ operations).length) rest after := by
  induction operations generalizing completed held before with
  | nil =>
      rw [List.append_nil]
      exact ⟨held, before, rfl, hreached⟩
  | cons operation operations ih =>
      obtain ⟨held', between, hrun, hbetween⟩ := h.perform hreached operation
      have hlength : (completed ++ [operation]).length = completed.length + 1 := by simp
      obtain ⟨rest, after, hruns, hafter⟩ := ih (hlength ▸ hbetween)
      rw [List.append_assoc] at hafter
      refine ⟨rest, after, ?_, hafter⟩
      simp only [Evaluation.performAll, EStateM.run_bind, hrun, hruns]

/-- No flaw is found when the blocks that are held in the end are given back. -/
theorem drain (h : Lawful subject start)
    (hreached : Reached subject start .draining held before) :
    ∃ after, (drain subject held).run before = .ok (.ok ()) after ∧
      Reached subject start .draining [] after := by
  induction held generalizing before with
  | nil => exact ⟨before, rfl, hreached⟩
  | cons block rest ih =>
      obtain ⟨between, hrun, -⟩ := h.deallocate (.drained hreached)
      have hverify := (h.intact hreached).painted block List.mem_cons_self
      obtain ⟨after, hruns, hafter⟩ := ih (.drained hreached hrun)
      refine ⟨after, ?_, hafter⟩
      simp only [Evaluation.drain, EStateM.run_bind, run_giveBack_none hverify hrun, hruns]

/-- An evaluation finds no flaw, and in the end nothing is held. -/
theorem evaluate (h : Lawful subject start) (operations : List Operation) :
    ∃ after, (evaluate subject operations).run start = .ok (.ok ()) after ∧
      Reached subject start .draining [] after := by
  have hstart : Reached subject start (.performed ([] : List Operation).length) [] start := .start
  obtain ⟨held, between, hrun, hbetween⟩ := h.performAll hstart operations
  obtain ⟨after, hdrain, hafter⟩ := h.drain (.ended hbetween)
  refine ⟨after, ?_, hafter⟩
  simp only [Evaluation.evaluate, EStateM.run_bind, hrun, hdrain, EStateM.run_pure]

end Lawful

end BuddySystem.Evaluation

/-! ## An allocator without a defect -/

namespace BuddySystem.Defective

open Evaluation

variable {allocator : Defective}

/-- Without a defect a request is refused, or its block lies behind all others. -/
theorem run_grant_cases {active : Option Defect} (hactive : active = none ∨ active = some .none)
    (memory : Memory) (state : State) (size align : Nat) :
    (allocator.grant active size align).run (memory, state) = .ok none (memory, state) ∨
    Word.isPowerOfTwo align ∧ align ≤ maxAlign ∧ size ≠ 0 ∧
      (allocator.grant active size align).run (memory, state) =
        .ok (some ⟨allocator.base + Word.roundUp state.next align, size⟩)
          (memory, { state with
            next := max state.next (Word.roundUp state.next align + size)
            last? := some (Word.roundUp state.next align) }) := by
  by_cases hrequest : !Word.isPowerOfTwo align || align > maxAlign || size > allocator.size
  · left
    simp only [grant, EStateM.run_bind, EStateM.run_get, hrequest, if_true, EStateM.run_pure]
  · by_cases hzero : size = 0
    · left
      rcases hactive with rfl | rfl <;> simp [grant, hzero]
    · by_cases hroom : Word.roundUp state.next align + size > allocator.size
      · left
        rcases hactive with rfl | rfl <;> simp [grant, hrequest, hzero, hroom]
      · right
        simp only [Bool.or_eq_true, not_or] at hrequest
        refine ⟨by simpa using hrequest.1.1, by simpa using hrequest.1.2, hzero, ?_⟩
        rcases hactive with rfl | rfl <;> simp [grant, hrequest, hzero, hroom]

/-- An allocator without a defect refuses a request, or grants it behind all earlier ones. -/
theorem run_allocate_cases (hdefect : allocator.defect = .none) (before : Memory × State)
    (size align : Nat) :
    ∃ after : State,
      (allocator.subject.allocate size align).run before = .ok none (before.1, after) ∧
        after.next = before.2.next ∨
      (allocator.subject.allocate size align).run before =
          .ok (some ⟨allocator.base + Word.roundUp before.2.next align, size⟩) (before.1, after) ∧
        after.next = max before.2.next (Word.roundUp before.2.next align + size) ∧
        Word.isPowerOfTwo align ∧ align ≤ maxAlign ∧ size ≠ 0 := by
  obtain ⟨memory, state⟩ := before
  have hactive : (if state.calls ≥ allocator.after then some allocator.defect else none) = none ∨
      (if state.calls ≥ allocator.after then some allocator.defect else none) = some .none := by
    rw [hdefect]
    split <;> simp
  rcases run_grant_cases hactive memory { state with calls := state.calls + 1 } size align with
    hrun | ⟨hpower, halign, hsize, hrun⟩
  · exact ⟨_, .inl ⟨hrun, rfl⟩⟩
  · exact ⟨_, .inr ⟨hrun, rfl, hpower, halign, hsize⟩⟩

/-- All blocks that are held lie below the end of the memory that is in use. -/
theorem stop_le_of_reached (hdefect : allocator.defect = .none) {memory : Memory} {stage : Stage}
    {held : List Block} {after : Memory × State}
    (h : Reached allocator.subject (memory, State.initial) stage held after) :
    ∀ block ∈ held, block.slice.addr + block.slice.len ≤ allocator.base + after.2.next := by
  induction h with
  | start => simp
  | @refused _ _ before _ request _ hrun ih =>
      obtain ⟨after, ⟨hanswer, hnext⟩ | ⟨hanswer, -⟩⟩ :=
        run_allocate_cases hdefect before request.size request.align
      · cases hanswer.symm.trans hrun
        rwa [hnext]
      · cases hanswer.symm.trans hrun
  | @served _ _ before _ request slice _ hrun ih =>
      obtain ⟨after, ⟨hanswer, -⟩ | ⟨hanswer, hnext, -⟩⟩ :=
        run_allocate_cases hdefect before request.size request.align
      · cases hanswer.symm.trans hrun
      · cases hanswer.symm.trans hrun
        intro block hmem
        rw [hnext]
        rcases List.mem_append.1 hmem with hmem | hmem
        · have hle := ih block hmem
          omega
        · obtain rfl := List.mem_singleton.1 hmem
          dsimp only
          omega
  | skipped _ ih => exact ih
  | returned _ htake hrun ih =>
      cases hrun
      exact fun other hmem =>
        ih other ((takeModulo_perm htake).mem_iff.2 (List.mem_cons_of_mem _ hmem))
  | ended _ ih => exact ih
  | drained _ hrun ih =>
      cases hrun
      exact fun other hmem => ih other (List.mem_cons_of_mem _ hmem)

/-- An allocator without a defect is lawful. -/
theorem lawful (hdefect : allocator.defect = .none) (hbase : maxAlign ∣ allocator.base)
    (memory : Memory) : Lawful allocator.subject (memory, State.initial) where
  allocate {count held before} hreached request := by
    obtain ⟨after, ⟨hrun, -⟩ | ⟨hrun, -, hpower, halign, hsize⟩⟩ :=
      run_allocate_cases hdefect before request.size request.align
    · exact ⟨_, _, hrun, .refl _ _, nofun⟩
    · refine ⟨_, _, hrun, .refl _ _, ?_⟩
      rintro slice ⟨rfl⟩
      obtain ⟨k, hk⟩ := Word.isPowerOfTwo_iff.1 hpower
      have hpos : 0 < request.align := hk ▸ Nat.two_pow_pos k
      refine ⟨hsize, rfl, hpos.ne', ?_, fun block hmem => ?_⟩
      · have hmax : request.align ∣ maxAlign := by
          rw [hk] at halign ⊢
          exact Nat.pow_dvd_pow 2 ((Nat.pow_le_pow_iff_right Nat.one_lt_two (m := 16)).1 halign)
        exact Nat.dvd_add (Nat.dvd_trans hmax hbase) (Nat.dvd_mul_left _ _)
      · have hstop := stop_le_of_reached hdefect hreached block hmem
        have hround := Word.le_roundUp hpos (n := before.2.next)
        rw [Slice.addresses, Slice.addresses, Set.Ico_disjoint_Ico]
        refine (min_le_left _ _).trans (le_max_of_le_right (hstop.trans ?_))
        exact Nat.add_le_add_left hround _
  deallocate _ := ⟨_, rfl, .refl _ _⟩

end BuddySystem.Defective

namespace BuddySystem

open Evaluation

/-- No flaw is found in a lawful subject, whatever the operations are. -/
theorem evaluate_eq_ok_of_lawful {σ : Type} {subject : Subject σ} {start : Memory × σ}
    (h : Lawful subject start) (operations : List Operation) :
    ∃ after, (evaluate subject operations).run start = .ok (.ok ()) after := by
  obtain ⟨after, hrun, -⟩ := h.evaluate operations
  exact ⟨after, hrun⟩

/-- The allocator without a defect passes, with a request of size zero and a block given back. -/
theorem evaluate_eq_ok_of_lawful_defective :
    Lawful (Defective.subject ⟨Defective.maxAlign, 4096, .none, 0⟩)
      (Memory.zero 0, Defective.State.initial) ∧
    ∃ after, (evaluate (Defective.subject ⟨Defective.maxAlign, 4096, .none, 0⟩)
      [.alloc ⟨100, 8⟩, .alloc ⟨0, 1⟩, .alloc ⟨64, 256⟩, .dealloc 6, .alloc ⟨5, 2⟩]).run
        (Memory.zero 0, Defective.State.initial) = .ok (.ok ()) after := by
  have h : Lawful (Defective.subject ⟨Defective.maxAlign, 4096, .none, 0⟩)
      (Memory.zero 0, Defective.State.initial) :=
    Defective.lawful rfl (Nat.dvd_refl _) _
  exact ⟨h, evaluate_eq_ok_of_lawful h _⟩

end BuddySystem
