import BuddySystem.Proofs.Evaluation.Lawful

/-!
# The course of an evaluation

What happens in an evaluation, told without the evaluation: an operation is performed (`Performs`),
it reveals a flaw (`Reveals`), or it is broken off (`Breaks`), as the answers of the subject and the
bytes of the blocks that are held say. The first operation that reveals a flaw ends an evaluation,
and so does the first block that turns out to be overwritten when everything is given back in the
end. `Concludes` puts this together. An evaluation concludes as it says (`concludes_evaluate`), and
in no other way (`Concludes.run_eq`), so what an evaluation reports is true, and it reports all of
it (`truthful_evaluate`).
-/

namespace BuddySystem

/-! ## Bytes of numbers -/

/-- A block is painted with the eight lowest bytes of a number, the lowest first, over and over. -/
theorem toNat_paintByte (number position : Nat) :
    (paintByte number.toUInt64 position).toNat = number / 256 ^ (position % 8) % 256 := by
  have hlt : position % 8 < 8 := Nat.mod_lt _ (by decide)
  rw [paintByte]
  generalize position % 8 = index at hlt ⊢
  have hshift : 8 * index % 2 ^ 64 % 64 = 8 * index := by omega
  have hword : 2 ^ 64 = 2 ^ (8 * index) * 2 ^ (64 - 8 * index) := by
    rw [← Nat.pow_add, Nat.add_sub_cancel' (by omega)]
  have hbyte : (2 ^ 8 : Nat) ∣ 2 ^ (64 - 8 * index) := Nat.pow_dvd_pow 2 (by omega)
  -- The bytes that a word cannot hold are not painted.
  calc
    (number.toUInt64 >>> (8 * index).toUInt64).toUInt8.toNat
    _ = number % 2 ^ 64 / 2 ^ (8 * index) % 2 ^ 8 := by
      rw [UInt64.toNat_toUInt8, UInt64.toNat_shiftRight, UInt64.toNat_ofNat', UInt64.toNat_ofNat',
        hshift, Nat.shiftRight_eq_div_pow]
    _ = number / 2 ^ (8 * index) % 2 ^ 8 := by
      rw [hword, Nat.mod_mul_right_div_self, Nat.mod_mod_of_dvd _ hbyte]
    _ = number / 256 ^ index % 256 := by
      rw [Nat.pow_mul]
      rfl

namespace Evaluation

/-! ## Taking an item by its place -/

/-- `rest` is left of a list when the item at a place is taken out and the last item of the list is
put there instead. -/
def SwapRemoved {α : Type} (items : List α) (place : Nat) (item : α) (rest : List α) : Prop :=
  ∃ front behind, items = front ++ item :: behind ∧ front.length = place ∧
    rest = front ++ (behind.getLast?.toList ++ behind.dropLast)

section

variable {α β : Type} {items rest : List α} {index : Nat} {item : α}

/-- The last item takes the place of the one that is taken out. -/
theorem takeModulo_append (front behind : List α)
    (hplace : index % (front ++ item :: behind).length = front.length) :
    takeModulo (front ++ item :: behind) index =
      some (item, front ++ (behind.getLast?.toList ++ behind.dropLast)) := by
  rw [takeModulo, hplace]
  rcases List.eq_nil_or_concat behind with rfl | ⟨inner, last, rfl⟩
  · simp
  · have hlast : (item :: (inner ++ [last])).getLast? = some last := by
      rw [← List.cons_append, List.getLast?_concat]
    have hrest : (last :: (inner ++ [last])).dropLast = last :: inner := by
      rw [← List.cons_append, List.dropLast_concat]
    simp [hlast, hrest]

/-- The place of the item that is taken is counted round the list. -/
theorem takeModulo_eq_some_iff :
    takeModulo items index = some (item, rest) ↔
      SwapRemoved items (index % items.length) item rest := by
  constructor
  · intro h
    have hlt : index % items.length < items.length := by
      refine Nat.mod_lt _ (List.length_pos_iff.2 ?_)
      rintro rfl
      cases h
    have hitems : items.take (index % items.length) ++
        items[index % items.length] :: items.drop (index % items.length + 1) = items := by simp
    have hplace : (items.take (index % items.length)).length = index % items.length := by
      rw [List.length_take, Nat.min_eq_left hlt.le]
    have htake := takeModulo_append (items.take (index % items.length))
      (items.drop (index % items.length + 1)) (by rw [hitems, hplace])
    rw [hitems, h] at htake
    obtain ⟨rfl, rfl⟩ := Prod.mk.inj (Option.some.inj htake)
    exact ⟨_, _, hitems.symm, hplace, rfl⟩
  · intro h
    obtain ⟨front, behind, rfl, hplace, rfl⟩ := h
    exact takeModulo_append front behind hplace.symm

/-- The item that is taken out and the others are all the items. -/
theorem SwapRemoved.perm {place : Nat} (h : SwapRemoved items place item rest) :
    items.Perm (item :: rest) := by
  obtain ⟨front, behind, rfl, -, rfl⟩ := h
  have hbehind : (behind.getLast?.toList ++ behind.dropLast).Perm behind := by
    rcases List.eq_nil_or_concat behind with rfl | ⟨inner, last, rfl⟩
    · exact .nil
    · rw [List.concat_eq_append, List.getLast?_concat, List.dropLast_concat]
      exact (List.perm_append_singleton last inner).symm
  exact List.perm_middle.trans ((hbehind.symm.append_left front).cons item)

theorem takeModulo_map (f : α → β) :
    takeModulo (items.map f) index = (takeModulo items index).map (Prod.map f (List.map f)) := by
  simp only [takeModulo, List.length_map, List.getLast?_map, List.getElem?_map]
  cases items.getLast? <;> cases items[index % items.length]? <;>
    simp [List.map_set, List.map_dropLast]

end

/-! ## What operations come to -/

/-- A block that is held, and the number of the operation that asked for it. -/
structure Holding where
  slice : Slice
  request : Request
  number : Nat

namespace Holding

/-- The block as it was painted. -/
def block (holding : Holding) : Block :=
  ⟨holding.slice, holding.request, holding.number.toUInt64⟩

/-- Whether the bytes of a block are still those of its number, the lowest first, over and over. -/
def Unspoiled (holding : Holding) (memory : Memory) : Prop :=
  ∀ i < holding.slice.len,
    (memory.read (holding.slice.addr + i)).toNat = holding.number / 256 ^ (i % 8) % 256

/-- The bytes of a block are verified exactly if they are those of its number. -/
theorem verify_block {holding : Holding} {memory : Memory} :
    holding.block.verify memory ↔ holding.Unspoiled memory := by
  rw [Block.verify, Memory.holds_iff]
  refine forall₂_congr fun i _ => ?_
  rw [← UInt8.toNat_inj, block, toNat_paintByte]

end Holding

/-- Whether nothing is wrong with what a request was granted. -/
structure Sound (request : Request) (slice : Slice) : Prop where
  size_ne_zero : request.size ≠ 0
  len_eq : slice.len = request.size
  align_ne_zero : request.align ≠ 0
  align_dvd : request.align ∣ slice.addr

variable {σ : Type}

section

variable (subject : Subject σ) (held : List Holding) (before : Memory × σ)

/-- An operation with a number is performed: the blocks that are held afterwards, and the state
then. -/
inductive Performs (number : Nat) : Operation → List Holding → Memory × σ → Prop
  | refused {request : Request} {after : Memory × σ}
      (hrun : (subject.allocate request.size request.align).run before = .ok none after) :
      Performs number (.alloc request) held after
  | served {request : Request} {slice : Slice} {after : Memory × σ}
      (hrun : (subject.allocate request.size request.align).run before = .ok (some slice) after)
      (hsound : Sound request slice) :
      Performs number (.alloc request) (held ++ [⟨slice, request, number⟩])
        (after.1.paint slice number.toUInt64, after.2)
  /-- A block is to be given back, but none is held. -/
  | skipped {index : Nat} (hnone : held = []) : Performs number (.dealloc index) held before
  | returned {index : Nat} {holding : Holding} {rest : List Holding} {after : Memory × σ}
      (htaken : SwapRemoved held (index % held.length) holding rest)
      (hbytes : holding.Unspoiled before.1)
      (hrun : (takeBack subject holding.block).run
        (before.1.paint holding.slice number.toUInt64, before.2) = .ok () after) :
      Performs number (.dealloc index) rest after

/-- An operation reveals a flaw: what it is, and the state then. -/
inductive Reveals : Operation → Flaw → Memory × σ → Prop
  | zeroSize {request : Request} {slice : Slice} {after : Memory × σ}
      (hrun : (subject.allocate request.size request.align).run before = .ok (some slice) after)
      (hsize : request.size = 0) : Reveals (.alloc request) .zeroSizeAccepted after
  | wrongLength {request : Request} {slice : Slice} {after : Memory × σ}
      (hrun : (subject.allocate request.size request.align).run before = .ok (some slice) after)
      (hsize : request.size ≠ 0) (hlen : slice.len ≠ request.size) :
      Reveals (.alloc request) (.wrongLength request.size slice.len) after
  | misaligned {request : Request} {slice : Slice} {after : Memory × σ}
      (hrun : (subject.allocate request.size request.align).run before = .ok (some slice) after)
      (hsize : request.size ≠ 0) (hlen : slice.len = request.size) (hzero : request.align ≠ 0)
      (halign : ¬request.align ∣ slice.addr) : Reveals (.alloc request) .misaligned after
  /-- A block that is to be given back does not have the bytes of its number. -/
  | overwritten {index : Nat} {holding : Holding} {rest : List Holding}
      (htaken : SwapRemoved held (index % held.length) holding rest)
      (hbytes : ¬holding.Unspoiled before.1) : Reveals (.dealloc index) .overwritten before

/-- An operation is broken off: the reason, and the state then. -/
inductive Breaks (number : Nat) : Operation → Abort → Memory × σ → Prop
  | allocate {request : Request} {abort : Abort} {after : Memory × σ}
      (hrun : (subject.allocate request.size request.align).run before = .error abort after) :
      Breaks number (.alloc request) abort after
  /-- There are no multiples of zero to look for. -/
  | unaligned {request : Request} {slice : Slice} {after : Memory × σ}
      (hrun : (subject.allocate request.size request.align).run before = .ok (some slice) after)
      (hsize : request.size ≠ 0) (hlen : slice.len = request.size) (hzero : request.align = 0) :
      Breaks number (.alloc request) (.fault .overflow) after
  | deallocate {index : Nat} {holding : Holding} {rest : List Holding} {abort : Abort}
      {after : Memory × σ} (htaken : SwapRemoved held (index % held.length) holding rest)
      (hbytes : holding.Unspoiled before.1)
      (hrun : (takeBack subject holding.block).run
        (before.1.paint holding.slice number.toUInt64, before.2) = .error abort after) :
      Breaks number (.dealloc index) abort after

end

/-- Operations are performed one after the other from a start: the blocks that are held afterwards,
and the state then. -/
inductive Performed (subject : Subject σ) (start : Memory × σ) :
    List Operation → List Holding → Memory × σ → Prop
  | start : Performed subject start [] [] start
  | step {completed : List Operation} {operation : Operation} {held rest : List Holding}
      {before after : Memory × σ} (h : Performed subject start completed held before)
      (hstep : Performs subject held before completed.length operation rest after) :
      Performed subject start (completed ++ [operation]) rest after

/-- Blocks are given back in order, all of them as they were painted: the ones that are left, and
the state then. -/
inductive Drained (subject : Subject σ) (held : List Holding) (start : Memory × σ) :
    List Holding → Memory × σ → Prop
  | start : Drained subject held start held start
  | step {holding : Holding} {rest : List Holding} {before after : Memory × σ}
      (h : Drained subject held start (holding :: rest) before)
      (hbytes : holding.Unspoiled before.1)
      (hrun : (takeBack subject holding.block).run before = .ok () after) :
      Drained subject held start rest after

/-- How an evaluation ends. -/
inductive Concludes (subject : Subject σ) (start : Memory × σ) (operations : List Operation) :
    EStateM.Result Abort (Memory × σ) (Except Failure Unit) → Prop
  | flawed {completed rest : List Operation} {operation : Operation} {held : List Holding}
      {before after : Memory × σ} {flaw : Flaw}
      (hoperations : operations = completed ++ operation :: rest)
      (hperformed : Performed subject start completed held before)
      (hflaw : Reveals subject held before operation flaw after) :
      Concludes subject start operations (.ok (.error ⟨completed, some operation, flaw⟩) after)
  | broken {completed rest : List Operation} {operation : Operation} {held : List Holding}
      {before after : Memory × σ} {abort : Abort}
      (hoperations : operations = completed ++ operation :: rest)
      (hperformed : Performed subject start completed held before)
      (hbreak : Breaks subject held before completed.length operation abort after) :
      Concludes subject start operations (.error abort after)
  | overwritten {held rest : List Holding} {holding : Holding} {between after : Memory × σ}
      (hperformed : Performed subject start operations held between)
      (hdrained : Drained subject held between (holding :: rest) after)
      (hbytes : ¬holding.Unspoiled after.1) :
      Concludes subject start operations (.ok (.error ⟨operations, none, .overwritten⟩) after)
  /-- A block that is given back in the end is not taken back. -/
  | undrained {held rest : List Holding} {holding : Holding} {between before after : Memory × σ}
      {abort : Abort} (hperformed : Performed subject start operations held between)
      (hdrained : Drained subject held between (holding :: rest) before)
      (hbytes : holding.Unspoiled before.1)
      (hrun : (takeBack subject holding.block).run before = .error abort after) :
      Concludes subject start operations (.error abort after)
  | passed {held : List Holding} {between after : Memory × σ}
      (hperformed : Performed subject start operations held between)
      (hdrained : Drained subject held between [] after) :
      Concludes subject start operations (.ok (.ok ()) after)

/-! ## Single operations -/

theorem Sound.check {request : Request} {slice : Slice} (h : Sound request slice) :
    check request slice = .ok none := by
  have hsuits : Suits [] request slice :=
    ⟨h.size_ne_zero, h.len_eq, h.align_ne_zero, h.align_dvd, by simp⟩
  exact hsuits.check

/-- What is wrong with a slice of the right length is told by a remainder. -/
theorem check_of_len_eq {request : Request} {slice : Slice} (hsize : request.size ≠ 0)
    (hlen : slice.len = request.size) :
    check request slice = (Word.rem slice.addr request.align).map fun rem =>
      if rem = 0 then none else some .misaligned := by
  rw [check, if_neg hsize, if_neg (not_not.2 hlen)]
  cases Word.rem slice.addr request.align with
  | error fault => rfl
  | ok rem =>
      by_cases hrem : rem = 0 <;> simp [bind, Except.bind, Except.map, pure, Except.pure, hrem]

section

variable {subject : Subject σ} {held rest : List Holding} {before after : Memory × σ}
  {operation : Operation} {number : Nat}

/-- The check of a slice that is granted decides what becomes of the operation. -/
theorem run_perform_granted {request : Request} {slice : Slice} {blocks : List Block} {id : UInt64}
    (hrun : (subject.allocate request.size request.align).run before = .ok (some slice) after) :
    (perform subject id blocks (.alloc request)).run before =
      match check request slice with
      | .ok none => .ok (.ok (blocks ++ [⟨slice, request, id⟩])) (after.1.paint slice id, after.2)
      | .ok (some flaw) => .ok (.error flaw) after
      | .error fault => .error (.fault fault) after := by
  rw [perform, EStateM.run_bind, hrun]
  cases hcheck : check request slice with
  | error fault => simp [hcheck]
  | ok flaw? => cases flaw? <;> simp [hcheck, Block.init]

/-- A block that was not overwritten is not taken back, whether or not it is painted anew. -/
theorem run_giveBack_error {block : Block} {abort : Abort} (hverify : block.verify before.1)
    (repaint : Option UInt64)
    (hrun : (takeBack subject block).run
      (repaint.elim before fun id => (before.1.paint block.slice id, before.2)) =
        .error abort after) :
    (giveBack subject block repaint).run before = .error abort after := by
  cases repaint with
  | none =>
      rw [Option.elim_none] at hrun
      simp only [giveBack, EStateM.run_bind, EStateM.run_get, hverify, if_true, hrun]
  | some id =>
      rw [Option.elim_some] at hrun
      simp only [giveBack, EStateM.run_bind, EStateM.run_get, hverify, if_true,
        EStateM.run_modify, Block.paint, hrun]

theorem run_giveBack_spoiled (subject : Subject σ) {block : Block}
    (hverify : ¬block.verify before.1) (repaint : Option UInt64) :
    (giveBack subject block repaint).run before = .ok (.error .overwritten) before := by
  simp [giveBack, hverify]

theorem takeModulo_blocks {index : Nat} {holding : Holding}
    (h : SwapRemoved held (index % held.length) holding rest) :
    takeModulo (held.map Holding.block) index = some (holding.block, rest.map Holding.block) := by
  rw [takeModulo_map, takeModulo_eq_some_iff.2 h]
  rfl

/-- An operation that reveals no flaw and is not broken off is carried out. -/
theorem Performs.run_eq (h : Performs subject held before number operation rest after) :
    (perform subject number.toUInt64 (held.map Holding.block) operation).run before =
      .ok (.ok (rest.map Holding.block)) after := by
  cases h with
  | refused hrun => exact run_perform_refused hrun
  | served hrun hsound =>
      rw [run_perform_granted hrun, hsound.check, List.map_append]
      rfl
  | skipped hnone =>
      subst hnone
      rfl
  | returned htaken hbytes hrun =>
      have hverify := Holding.verify_block.2 hbytes
      simp only [perform, takeModulo_blocks htaken, EStateM.run_bind,
        run_giveBack_some hverify hrun, EStateM.run_pure, Except.map]

/-- An operation that reveals a flaw comes to this flaw. -/
theorem Reveals.run_eq {flaw : Flaw} (h : Reveals subject held before operation flaw after) :
    (perform subject number.toUInt64 (held.map Holding.block) operation).run before =
      .ok (.error flaw) after := by
  cases h with
  | zeroSize hrun hsize => rw [run_perform_granted hrun, check, if_pos hsize]; rfl
  | wrongLength hrun hsize hlen =>
      rw [run_perform_granted hrun, check, if_neg hsize, if_pos hlen]
      rfl
  | misaligned hrun hsize hlen hzero halign =>
      rw [run_perform_granted hrun, check_of_len_eq hsize hlen, Word.rem, if_neg hzero]
      simp [Except.map, mt Nat.dvd_of_mod_eq_zero halign]
  | overwritten htaken hbytes =>
      have hverify := mt Holding.verify_block.1 hbytes
      simp only [perform, takeModulo_blocks htaken, EStateM.run_bind,
        run_giveBack_spoiled subject hverify, EStateM.run_pure, Except.map]

/-- An operation whose call of the subject is broken off is broken off with it. -/
theorem Breaks.run_eq {abort : Abort}
    (h : Breaks subject held before number operation abort after) :
    (perform subject number.toUInt64 (held.map Holding.block) operation).run before =
      .error abort after := by
  cases h with
  | allocate hrun => simp [perform, hrun]
  | unaligned hrun hsize hlen hzero =>
      rw [run_perform_granted hrun, check_of_len_eq hsize hlen, Word.rem, if_pos hzero]
      rfl
  | deallocate htaken hbytes hrun =>
      have hverify := Holding.verify_block.2 hbytes
      have hback := run_giveBack_error hverify (some number.toUInt64) hrun
      simp only [perform, takeModulo_blocks htaken, EStateM.run_bind, hback]

/-- An operation is performed, reveals a flaw or is broken off. -/
theorem exists_step (subject : Subject σ) (held : List Holding) (before : Memory × σ)
    (number : Nat) (operation : Operation) :
    (∃ rest after, Performs subject held before number operation rest after) ∨
    (∃ flaw after, Reveals subject held before operation flaw after) ∨
    ∃ abort after, Breaks subject held before number operation abort after := by
  cases operation with
  | alloc request =>
      cases hrun : (subject.allocate request.size request.align).run before with
      | error abort after => exact .inr (.inr ⟨_, _, .allocate hrun⟩)
      | ok granted after =>
          cases granted with
          | none => exact .inl ⟨_, _, .refused hrun⟩
          | some slice =>
              by_cases hsize : request.size = 0
              · exact .inr (.inl ⟨_, _, .zeroSize hrun hsize⟩)
              by_cases hlen : slice.len = request.size
              · by_cases hzero : request.align = 0
                · exact .inr (.inr ⟨_, _, .unaligned hrun hsize hlen hzero⟩)
                by_cases halign : request.align ∣ slice.addr
                · exact .inl ⟨_, _, .served hrun ⟨hsize, hlen, hzero, halign⟩⟩
                · exact .inr (.inl ⟨_, _, .misaligned hrun hsize hlen hzero halign⟩)
              · exact .inr (.inl ⟨_, _, .wrongLength hrun hsize hlen⟩)
  | dealloc index =>
      cases htake : takeModulo held index with
      | none => exact .inl ⟨_, _, .skipped (takeModulo_eq_none_iff.1 htake)⟩
      | some taken =>
          obtain ⟨holding, rest⟩ := taken
          have htaken := takeModulo_eq_some_iff.1 htake
          by_cases hbytes : holding.Unspoiled before.1
          · cases hrun : (takeBack subject holding.block).run
                (before.1.paint holding.slice number.toUInt64, before.2) with
            | error abort after => exact .inr (.inr ⟨_, _, .deallocate htaken hbytes hrun⟩)
            | ok done after => exact .inl ⟨_, _, .returned htaken hbytes hrun⟩
          · exact .inr (.inl ⟨_, _, .overwritten htaken hbytes⟩)

end

/-! ## Whole evaluations -/

section

variable {subject : Subject σ} {start before after between : Memory × σ}
  {completed operations : List Operation} {held rest : List Holding}

/-- What was performed need not be performed again. -/
theorem Performed.run_performAll (h : Performed subject start completed held before)
    (operations : List Operation) :
    (performAll subject [] [] (completed ++ operations)).run start =
      (performAll subject completed (held.map Holding.block) operations).run before := by
  induction h generalizing operations with
  | start => rfl
  | step _ hstep ih =>
      rw [List.append_assoc, ih, List.singleton_append]
      simp only [performAll, EStateM.run_bind, hstep.run_eq]

/-- What was given back need not be given back again. -/
theorem Drained.run_drain (h : Drained subject held start rest after) :
    (drain subject (held.map Holding.block)).run start =
      (drain subject (rest.map Holding.block)).run after := by
  induction h with
  | start => rfl
  | step _ hbytes hrun ih =>
      have hback := run_giveBack_none (Holding.verify_block.2 hbytes) hrun
      rw [ih, List.map_cons]
      simp only [drain, EStateM.run_bind, hback]

/-- If all operations were performed, what is left is to give everything back. -/
theorem Performed.run_evaluate (h : Performed subject start operations held between) :
    (evaluate subject operations).run start =
      match (drain subject (held.map Holding.block)).run between with
      | .ok (.ok ()) after => .ok (.ok ()) after
      | .ok (.error flaw) after => .ok (.error ⟨operations, none, flaw⟩) after
      | .error abort after => .error abort after := by
  have hperform := h.run_performAll []
  rw [List.append_nil] at hperform
  simp only [evaluate, EStateM.run_bind, hperform, performAll, EStateM.run_pure]
  cases (drain subject (held.map Holding.block)).run between with
  | error abort after => rfl
  | ok answer after => cases answer <;> rfl

/-- An evaluation ends in no other way. -/
theorem Concludes.run_eq {result : EStateM.Result Abort (Memory × σ) (Except Failure Unit)}
    (h : Concludes subject start operations result) :
    (evaluate subject operations).run start = result := by
  cases h with
  | flawed hoperations hperformed hflaw =>
      subst hoperations
      simp only [evaluate, EStateM.run_bind, hperformed.run_performAll, performAll, hflaw.run_eq,
        EStateM.run_pure]
  | broken hoperations hperformed hbreak =>
      subst hoperations
      simp only [evaluate, EStateM.run_bind, hperformed.run_performAll, performAll, hbreak.run_eq]
  | overwritten hperformed hdrained hbytes =>
      have hback := run_giveBack_spoiled subject (mt Holding.verify_block.1 hbytes) none
      rw [hperformed.run_evaluate, hdrained.run_drain, List.map_cons]
      simp only [drain, EStateM.run_bind, hback, EStateM.run_pure]
  | undrained hperformed hdrained hbytes hrun =>
      have hback := run_giveBack_error (Holding.verify_block.2 hbytes) none hrun
      rw [hperformed.run_evaluate, hdrained.run_drain, List.map_cons]
      simp only [drain, EStateM.run_bind, hback]
  | passed hperformed hdrained =>
      rw [hperformed.run_evaluate, hdrained.run_drain]
      rfl

/-- Giving back what is left ends in one of these ways. -/
theorem Drained.exists_concludes (hperformed : Performed subject start operations held between)
    (h : Drained subject held between rest after) :
    ∃ result, Concludes subject start operations result := by
  induction rest generalizing after with
  | nil => exact ⟨_, .passed hperformed h⟩
  | cons holding rest ih =>
      by_cases hbytes : holding.Unspoiled after.1
      · cases hrun : (takeBack subject holding.block).run after with
        | error abort final => exact ⟨_, .undrained hperformed h hbytes hrun⟩
        | ok done final => exact ih (.step h hbytes hrun)
      · exact ⟨_, .overwritten hperformed h hbytes⟩

/-- An evaluation that has performed some operations ends in one of these ways. -/
theorem Performed.exists_concludes (h : Performed subject start completed held before)
    (operations : List Operation) :
    ∃ result, Concludes subject start (completed ++ operations) result := by
  induction operations generalizing completed held before with
  | nil =>
      rw [List.append_nil]
      exact Drained.exists_concludes h .start
  | cons operation operations ih =>
      rcases exists_step subject held before completed.length operation with
        ⟨rest, after, hstep⟩ | ⟨flaw, after, hflaw⟩ | ⟨abort, after, hbreak⟩
      · have hrest := ih (.step h hstep)
        rwa [List.append_assoc] at hrest
      · exact ⟨_, .flawed rfl h hflaw⟩
      · exact ⟨_, .broken rfl h hbreak⟩

/-- An evaluation ends in one of these ways. -/
theorem concludes_evaluate (subject : Subject σ) (start : Memory × σ)
    (operations : List Operation) :
    Concludes subject start operations ((evaluate subject operations).run start) := by
  have hstart : Performed subject start [] [] start := .start
  obtain ⟨result, hresult⟩ := hstart.exists_concludes operations
  rw [List.nil_append] at hresult
  rwa [hresult.run_eq]

end

/-- What an evaluation reports is what happened in it, and nothing that happened goes unreported. -/
structure Truthful (subject : Subject σ) (start : Memory × σ) (operations : List Operation) :
    Prop where
  /-- An operation is reported with a flaw if it reveals this flaw, and all operations before it
  were performed. -/
  flawed : ∀ completed operation flaw after,
    (evaluate subject operations).run start =
        .ok (.error ⟨completed, some operation, flaw⟩) after ↔
      ∃ rest held before, operations = completed ++ operation :: rest ∧
        Performed subject start completed held before ∧
        Reveals subject held before operation flaw after
  /-- A flaw is reported without an operation if all operations were performed, and a block is
  overwritten that is given back in the end. -/
  overwritten : ∀ completed flaw after,
    (evaluate subject operations).run start = .ok (.error ⟨completed, none, flaw⟩) after ↔
      completed = operations ∧ flaw = .overwritten ∧ ∃ held between holding rest,
        Performed subject start operations held between ∧
        Drained subject held between (holding :: rest) after ∧ ¬holding.Unspoiled after.1
  /-- No flaw is reported if all operations were performed, and everything was given back. -/
  passed : ∀ after, (evaluate subject operations).run start = .ok (.ok ()) after ↔
    ∃ held between, Performed subject start operations held between ∧
      Drained subject held between [] after
  /-- There is a report unless the subject breaks off one of its calls. -/
  broken : ∀ abort after, (evaluate subject operations).run start = .error abort after →
    (∃ size align before, (subject.allocate size align).run before = .error abort after) ∨
    ∃ addr size align before, (subject.deallocate addr size align).run before = .error abort after

end Evaluation

open Evaluation

/-- What is reported of a subject that does not serve requests aligned to zero is true, and it is
all that there is to report. -/
theorem truthful_evaluate {σ : Type} {subject : Subject σ}
    (hzero : ∀ size before slice after,
      (subject.allocate size 0).run before ≠ .ok (some slice) after)
    (start : Memory × σ) (operations : List Operation) : Truthful subject start operations := by
  have hconcludes := concludes_evaluate subject start operations
  refine ⟨fun completed operation flaw after => ⟨fun h => ?_, fun h => ?_⟩,
    fun completed flaw after => ⟨fun h => ?_, fun h => ?_⟩,
    fun after => ⟨fun h => ?_, fun h => ?_⟩, fun abort after h => ?_⟩
  · rw [h] at hconcludes
    cases hconcludes with
    | flawed hoperations hperformed hflaw => exact ⟨_, _, _, hoperations, hperformed, hflaw⟩
  · obtain ⟨rest, held, before, hoperations, hperformed, hflaw⟩ := h
    exact (Concludes.flawed hoperations hperformed hflaw).run_eq
  · rw [h] at hconcludes
    cases hconcludes with
    | overwritten hperformed hdrained hbytes =>
        exact ⟨rfl, rfl, _, _, _, _, hperformed, hdrained, hbytes⟩
  · obtain ⟨rfl, rfl, held, between, holding, rest, hperformed, hdrained, hbytes⟩ := h
    exact (Concludes.overwritten hperformed hdrained hbytes).run_eq
  · rw [h] at hconcludes
    cases hconcludes with
    | passed hperformed hdrained => exact ⟨_, _, hperformed, hdrained⟩
  · obtain ⟨held, between, hperformed, hdrained⟩ := h
    exact (Concludes.passed hperformed hdrained).run_eq
  · rw [h] at hconcludes
    cases hconcludes with
    | undrained _ _ _ hrun => exact .inr ⟨_, _, _, _, hrun⟩
    | broken _ _ hbreak =>
        cases hbreak with
        | allocate hrun => exact .inl ⟨_, _, _, hrun⟩
        | deallocate _ _ hrun => exact .inr ⟨_, _, _, _, hrun⟩
        | unaligned hrun _ _ halign =>
            rw [halign] at hrun
            exact absurd hrun (hzero _ _ _ _)

/-- An allocator that changes a block behind the back of its user. -/
theorem truthful_evaluate_scribbling :
    (∀ size before slice after,
      ((Defective.subject ⟨Defective.maxAlign, 64, .scribble, 1⟩).allocate size 0).run before ≠
        .ok (some slice) after) ∧
    (evaluate (Defective.subject ⟨Defective.maxAlign, 64, .scribble, 1⟩)
        [.alloc ⟨8, 8⟩, .alloc ⟨0, 1⟩, .alloc ⟨3, 2⟩, .dealloc 2, .alloc ⟨1, 1⟩]).run'
          (Memory.zero Defective.maxAlign, Defective.State.initial) =
      some (.error ⟨[.alloc ⟨8, 8⟩, .alloc ⟨0, 1⟩, .alloc ⟨3, 2⟩], some (.dealloc 2),
        .overwritten⟩) ∧
    Truthful (Defective.subject ⟨Defective.maxAlign, 64, .scribble, 1⟩)
      (Memory.zero Defective.maxAlign, Defective.State.initial)
      [.alloc ⟨8, 8⟩, .alloc ⟨0, 1⟩, .alloc ⟨3, 2⟩, .dealloc 2, .alloc ⟨1, 1⟩] := by
  have hzero : ∀ size before slice after,
      ((Defective.subject ⟨Defective.maxAlign, 64, .scribble, 1⟩).allocate size 0).run before ≠
        .ok (some slice) after := by
    intro size before slice after
    simp [Defective.subject, Defective.grant, Word.isPowerOfTwo]
  exact ⟨hzero, by decide +kernel, truthful_evaluate hzero _ _⟩

end BuddySystem
