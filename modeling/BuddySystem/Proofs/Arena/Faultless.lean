import BuddySystem.Proofs.Arena.Accounting
import BuddySystem.Proofs.Arena.Runs

/-!
# No check fails

An arena checks itself wherever an index, a length, a sum or a condition that it relies on could be
wrong. `exists_replies_run` says that none of these checks fails: whatever is asked of an arena that
was set up, one thing after the other, each is answered. The guards of `Arena.Guarded` do not fail
either, so every block is taken out of the list that it is in, and put into a list while it is in
none, and words are enough for every number on the way.
-/

namespace BuddySystem

open Arena

/-- Something that is asked of an arena. -/
inductive Access where
  | allocate (size align : Nat)
  | deallocate (addr size align : Nat)
  | owns (addr : Nat)
  | freeBytes
  | isIdle
  | freeBlocks (order : Nat)

/-- What is answered. -/
inductive Reply where
  | allocated (answer : Except Refusal Slice)
  | deallocated (answer : Except Rejection Unit)
  | verdict (answer : Bool)
  | count (answer : Nat)

namespace Arena

variable {config : Config}

/-- The operations of an arena that exist with and without guards. -/
structure Operations (config : Config) where
  allocate : Nat → Nat → Step (Arena config) (Except Refusal Slice)
  deallocate : Nat → Nat → Nat → Step (Arena config) (Except Rejection Unit)
  owns : Arena config → Nat → Checked Bool

/-- The operations as they are. -/
def plain : Operations config where
  allocate := allocate
  deallocate := deallocate
  owns arena addr := .ok (arena.owns addr)

/-- The operations with guards. -/
def guarded : Operations config where
  allocate := Guarded.allocate
  deallocate := Guarded.deallocate
  owns := Guarded.owns

/-- Answers what is asked. -/
def Operations.perform (operations : Operations config) : Access → Call (Arena config) Reply
  | .allocate size align => return .allocated (← Call.ofStep (operations.allocate size align))
  | .deallocate addr size align =>
      return .deallocated (← Call.ofStep (operations.deallocate addr size align))
  | .owns addr => return .verdict (← Call.ofChecked (operations.owns (← get) addr))
  | .freeBytes => return .count (← Call.ofChecked (← get).freeBytes)
  | .isIdle => return .verdict (← Call.ofChecked (← get).isIdle)
  | .freeBlocks order => do
      match (← get).freeBlocks order with
      | .ok count => return .count count
      | .error abort => throw abort

/-- Answers one thing after the other. -/
def Operations.performAll (operations : Operations config) (accesses : List Access) :
    Call (Arena config) (List Reply) :=
  accesses.mapM operations.perform

theorem Operations.run_performAll_cons {operations : Operations config} {access : Access}
    {accesses : List Access} {before between after : Arena config} {reply : Reply}
    {replies : List Reply} (hfirst : (operations.perform access).run before = .ok reply between)
    (hrest : (operations.performAll accesses).run between = .ok replies after) :
    (operations.performAll (access :: accesses)).run before = .ok (reply :: replies) after := by
  rw [performAll] at hrest ⊢
  simp [hfirst, hrest]

/-- A request is not refused for want of a head of a list that is not empty. -/
theorem Guarded.allocate_ne_vanished {size align : Nat} {before after : Arena config}
    {answer : Except Refusal Slice}
    (h : (Guarded.allocate size align).run before = .ok answer after) :
    answer ≠ .error .vanished := by
  rw [Guarded.allocate] at h
  cases horder : config.order? size align with
  | none =>
      rw [horder] at h
      cases h
      simp
  | some target =>
      simp only [horder, run_bind_eq_ok] at h
      obtain ⟨_, _, -, order?, _, -, h⟩ := h
      cases order? with
      | none =>
          cases h
          simp
      | some order =>
          simp only [run_bind_eq_ok] at h
          obtain ⟨leaf?, _, -, h⟩ := h
          cases leaf? with
          | none => cases h
          | some leaf =>
              simp only [run_bind_eq_ok] at h
              obtain ⟨_, _, -, _, _, -, _, _, -, _, _, -, _, _, -, _, _, -, h⟩ := h
              cases h
              simp

variable {start arena : Arena config} {ledger : Ledger}

/-- Whatever is asked is answered, with and without guards, and leaves an arena that keeps a
ledger. -/
theorem Keeps.perform (h : arena.Keeps start ledger) (access : Access)
    (hvalid : ∀ order, access = .freeBlocks order → order ≤ config.maxOrder) :
    ∃ reply after rest, (guarded.perform access).run arena = .ok reply after ∧
      (plain.perform access).run arena = .ok reply after ∧
      reply ≠ .allocated (.error .vanished) ∧ Arena.Keeps after start rest := by
  cases access with
  | allocate size align =>
      obtain ⟨answer, after, rest, hrun, hafter⟩ : ∃ answer after rest,
          (Guarded.allocate size align).run arena = .ok answer after ∧
            Arena.Keeps after start rest := by
        rcases h.guarded_allocate_cases size align with
          ⟨refusal, hrun, -⟩ | ⟨_, _, rest, after, -, -, hrun, hafter⟩
        · exact ⟨_, arena, ledger, hrun, h⟩
        · exact ⟨_, after, rest, hrun, hafter⟩
      have hplain := Guarded.allocate_entails _ _ _ _ _ hrun
      have hne := Guarded.allocate_ne_vanished hrun
      refine ⟨.allocated answer, after, rest, ?_, ?_, ?_, hafter⟩
      · simp [Operations.perform, guarded, hrun]
      · simp [Operations.perform, plain, hplain]
      · exact fun heq => hne (Reply.allocated.inj heq)
  | deallocate addr size align =>
      obtain ⟨answer, after, rest, hrun, hafter⟩ : ∃ answer after rest,
          (Guarded.deallocate addr size align).run arena = .ok answer after ∧
            Arena.Keeps after start rest := by
        rcases h.guarded_deallocate_cases addr size align with
          ⟨reason, -, hrun⟩ | ⟨_, after, -, hrun, hafter⟩
        · exact ⟨_, arena, ledger, hrun, h⟩
        · exact ⟨_, after, _, hrun, hafter⟩
      have hplain := Guarded.deallocate_entails _ _ _ _ _ _ hrun
      refine ⟨.deallocated answer, after, rest, ?_, ?_, nofun, hafter⟩
      · simp [Operations.perform, guarded, hrun]
      · simp [Operations.perform, plain, hplain]
  | owns addr =>
      refine ⟨.verdict (arena.owns addr), arena, ledger, ?_, ?_, nofun, h⟩
      · simp [Operations.perform, guarded, Guarded.owns_eq]
      · simp [Operations.perform, plain]
  | freeBytes =>
      refine ⟨.count (ledger.freeBytes config), arena, ledger, ?_, ?_, nofun, h⟩ <;>
        simp [Operations.perform, h.freeBytes_eq]
  | isIdle =>
      refine ⟨.verdict (ledger.live = ∅), arena, ledger, ?_, ?_, nofun, h⟩ <;>
        simp [Operations.perform, h.isIdle_eq]
  | freeBlocks order =>
      have hcount := h.freeBlocks_eq (hvalid order rfl)
      refine ⟨.count (ledger.free order).length, arena, ledger, ?_, ?_, nofun, h⟩ <;>
        simp [Operations.perform, hcount]

/-- One thing is asked after the other, and each is answered. -/
theorem Keeps.performAll (h : arena.Keeps start ledger) (accesses : List Access)
    (hvalid : ∀ order, .freeBlocks order ∈ accesses → order ≤ config.maxOrder) :
    ∃ replies after, (guarded.performAll accesses).run arena = .ok replies after ∧
      (plain.performAll accesses).run arena = .ok replies after ∧
      .allocated (.error .vanished) ∉ replies := by
  induction accesses generalizing arena ledger with
  | nil => exact ⟨[], arena, rfl, rfl, List.not_mem_nil⟩
  | cons access accesses ih =>
      obtain ⟨reply, between, rest, hguarded, hplain, hne, hbetween⟩ := h.perform access
        fun order heq => hvalid order (by simp [heq])
      obtain ⟨replies, after, hguardeds, hplains, hnone⟩ := ih hbetween
        fun order hmem => hvalid order (List.mem_cons_of_mem _ hmem)
      refine ⟨reply :: replies, after, ?_, ?_, ?_⟩
      · exact Operations.run_performAll_cons hguarded hguardeds
      · exact Operations.run_performAll_cons hplain hplains
      · simp [hne.symm, hnone]

end Arena

/-- Whatever is asked of an arena that was set up, none of its checks fails, those of the guarded
operations included. -/
theorem exists_replies_run {config : Config} {σ : Type} {provider : Provider σ} {before after : σ}
    {start : Arena config} (h : (build config provider).run before = .ok (.ok start) after)
    (accesses : List Access)
    (hvalid : ∀ order, .freeBlocks order ∈ accesses → order ≤ config.maxOrder) :
    ∃ replies rest, (guarded.performAll accesses).run start = .ok replies rest ∧
      (plain.performAll accesses).run start = .ok replies rest ∧
      .allocated (.error .vanished) ∉ replies :=
  (keeps_of_build h).performAll accesses hvalid

/-- A block of a small arena is served and given back, and then the free blocks of its order are
counted. -/
theorem exists_replies_run_small :
    ∃ start after, (build Config.small Host.heap).run Host.fresh = .ok (.ok start) after ∧
      (∀ order, .freeBlocks order ∈
        [Access.allocate 17 4, .deallocate start.span.addr 17 4, .freeBlocks 1] →
          order ≤ Config.small.maxOrder) ∧
      ∃ replies rest,
        (guarded.performAll [.allocate 17 4, .deallocate start.span.addr 17 4,
          .freeBlocks 1]).run start = .ok replies rest ∧
        (plain.performAll [.allocate 17 4, .deallocate start.span.addr 17 4,
          .freeBlocks 1]).run start = .ok replies rest ∧
        .allocated (.error .vanished) ∉ replies := by
  obtain ⟨start, after, h⟩ := exists_build_small
  have hvalid : ∀ order, .freeBlocks order ∈
      [Access.allocate 17 4, .deallocate start.span.addr 17 4, .freeBlocks 1] →
        order ≤ Config.small.maxOrder := by
    simp [Config.small]
  exact ⟨start, after, h, hvalid, exists_replies_run h _ hvalid⟩

end BuddySystem
