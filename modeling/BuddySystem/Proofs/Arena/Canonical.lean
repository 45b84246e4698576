import BuddySystem.Proofs.Arena.Runs

/-!
# Independence of the history

The live blocks of an arena determine its bits, what is in its lists, which requests are served and
what deallocations are answered (`Alike.of_live_eq`). Whatever has happened before has no influence
except on the order within a list: two runs that end with live blocks of the same lengths at the
same offsets end in arenas that are alike, and blocks can be freed in any order (`alike_run`).
-/

namespace BuddySystem

open Occupancy Ledger Arena

namespace Arena

variable {config : Config} {start other left right : Arena config} {ledger rest : Ledger}

/-- Two arenas that differ in nothing but where their memory is and in which order the blocks of
their lists were added. -/
structure Alike (left right : Arena config) : Prop where
  nodes : left.nodes = right.nodes
  free : ∀ order, (left.free.toList order).Perm (right.free.toList order)
  /-- A request is served by both or by neither. -/
  allocate : ∀ size align, ∃ answer reply after rest,
    (Arena.allocate size align).run left = .ok answer after ∧
    (Arena.allocate size align).run right = .ok reply rest ∧ answer.isOk = reply.isOk
  /-- A deallocation at the same offset has the same answer. -/
  deallocate : ∀ addr place, addr + right.span.addr = place + left.span.addr →
    ∀ size align, ∃ answer after rest,
      (Arena.deallocate addr size align).run left = .ok answer after ∧
      (Arena.deallocate place size align).run right = .ok answer rest

/-- The bit of every number is that of a node or past the end. -/
theorem Keeps.nodes_eq (hleft : left.Keeps start ledger) (hright : right.Keeps other rest)
    (hlive : ledger.live = rest.live) : left.nodes = right.nodes := by
  refine Bitmap.eq_of_bit fun index => ?_
  rcases Nat.lt_or_ge index config.nodeCount with hlt | hge
  · obtain ⟨node, hnode, rfl⟩ := Node.exists_number_eq hlt
    rw [Bool.eq_iff_iff, hleft.shows_ledger.bit node hnode, hright.shows_ledger.bit node hnode,
      hlive]
  · rw [hleft.shows_ledger.beyond index hge, hright.shows_ledger.beyond index hge]

/-- What a pointer describes depends on its offset only. -/
theorem judge_congr {base origin addr place : Nat} (h : addr + origin = place + base)
    (live : Finset Node) (size align : Nat) :
    judge config base live addr size align = judge config origin live place size align := by
  have howned : (base ≤ addr ∧ addr < base + config.capacity) ↔
      (origin ≤ place ∧ place < origin + config.capacity) := by
    omega
  have hoffset : addr - base = place - origin := by omega
  rw [judge, judge, hoffset]
  simp only [howned]

/-- A request is served if the ledger has a block for it. -/
theorem Keeps.isOk_allocate_iff (h : left.Keeps start ledger) (size align : Nat) :
    ∃ answer after, (Arena.allocate size align).run left = .ok answer after ∧
      (answer.isOk = true ↔ ∃ target, config.order? size align = some target ∧
        ledger.allocate config.maxOrder target ≠ none) := by
  rcases h.allocate_cases size align with
    ⟨refusal, hrun, hnone⟩ | ⟨target, leaf, rest, after, horder, hserved, hrun, -⟩
  · refine ⟨_, _, hrun, iff_of_false Bool.false_ne_true ?_⟩
    intro hsome
    obtain ⟨target, horder, hserved⟩ := hsome
    exact hserved (hnone target horder)
  · refine ⟨_, _, hrun, iff_of_true rfl ⟨target, horder, ?_⟩⟩
    rw [hserved]
    exact Option.some_ne_none _

/-- A deallocation is answered as the live blocks say. -/
theorem Keeps.answer_deallocate (h : left.Keeps start ledger) (addr size align : Nat) :
    ∃ after, (Arena.deallocate addr size align).run left =
      .ok ((judge config start.span.addr ledger.live addr size align).map fun _ => ()) after := by
  rcases h.deallocate_cases addr size align with
    ⟨reason, hjudge, hrun⟩ | ⟨block, after, hjudge, hrun, -⟩
  · exact ⟨left, by rw [hrun, hjudge]; rfl⟩
  · exact ⟨after, by rw [hrun, hjudge]; rfl⟩

/-- Arenas of which the same blocks are live are alike. -/
theorem Alike.of_live_eq (hleft : left.Keeps start ledger) (hright : right.Keeps other rest)
    (hlive : ledger.live = rest.live) : left.Alike right where
  nodes := hleft.nodes_eq hright hlive
  free order := by
    rw [hleft.shows_ledger.lists.toList_eq, hright.shows_ledger.lists.toList_eq,
      List.perm_ext_iff_of_nodup (hleft.balanced.nodup order) (hright.balanced.nodup order)]
    intro leaf
    have hmem := hleft.balanced.mem_iff ⟨leaf, order⟩
    rw [hlive] at hmem
    exact hmem.trans (hright.balanced.mem_iff ⟨leaf, order⟩).symm
  allocate size align := by
    -- Whether a ledger has a block for a request depends on its live blocks.
    have hnone : ∀ target, ledger.allocate config.maxOrder target = none ↔
        rest.allocate config.maxOrder target = none := fun target => by
      rw [hleft.balanced.allocate_eq_none_iff, hright.balanced.allocate_eq_none_iff, hlive]
    obtain ⟨answer, after, hrun, hiff⟩ := hleft.isOk_allocate_iff size align
    obtain ⟨reply, rest, hrun', hiff'⟩ := hright.isOk_allocate_iff size align
    refine ⟨answer, reply, after, rest, hrun, hrun', ?_⟩
    rw [Bool.eq_iff_iff, hiff, hiff']
    simp only [Ne, hnone]
  deallocate addr place hplace size align := by
    rw [hleft.shows_ledger.span, hright.shows_ledger.span] at hplace
    obtain ⟨after, hrun⟩ := hleft.answer_deallocate addr size align
    obtain ⟨rest, hrun'⟩ := hright.answer_deallocate place size align
    rw [judge_congr hplace, hlive] at hrun
    exact ⟨_, after, rest, hrun, hrun'⟩

end Arena

/-- Whether a use takes memory back. -/
def Use.IsDeallocation : Use → Prop
  | .allocate .. => False
  | .deallocate .. => True

/-- Whether a use takes back the memory of a block of an arena at `base`, if the block is live. -/
def Use.Frees (config : Config) (base : Nat) (block : Node) : Use → Prop
  | .allocate .. => False
  | .deallocate addr size align =>
      config.order? size align = some block.order ∧ addr = base + block.leaf * config.blockSize

namespace Occupied

variable {config : Config} {start : Arena config} {occupied : Occupied config}

/-- The offsets and the lengths of the live blocks in bytes. -/
def placements (occupied : Occupied config) : Finset (Nat × Nat) :=
  occupied.live.image fun block =>
    (block.leaf * config.blockSize, config.blockSize * 2 ^ block.order)

/-- Blocks are known by their offsets and lengths. -/
theorem live_eq_of_placements_eq {other : Occupied config}
    (h : occupied.placements = other.placements) : occupied.live = other.live := by
  refine Finset.image_injective ?_ h
  intro block other heq
  obtain ⟨hleaf, hlen⟩ := Prod.mk.inj heq
  have horder := Nat.pow_right_injective (Nat.le_refl 2)
    (Nat.eq_of_mul_eq_mul_left config.blockSize_pos hlen)
  obtain ⟨leaf, order⟩ := block
  obtain rfl := horder
  obtain rfl := Nat.eq_of_mul_eq_mul_right config.blockSize_pos hleaf
  rfl

/-- A deallocation leaves the blocks live that it does not free. -/
theorem mem_live_step (h : occupied.arena.Keeps start occupied.ledger) {use : Use}
    (huse : use.IsDeallocation) (block : Node) :
    block ∈ (occupied.step use).live ↔
      block ∈ occupied.live ∧ ¬use.Frees config start.span.addr block := by
  cases use with
  | allocate size align => exact huse.elim
  | deallocate addr size align =>
      have hfound : judge config start.span.addr occupied.live addr size align = .ok block ↔
          block ∈ occupied.live ∧ (Use.deallocate addr size align).Frees config start.span.addr
            block := judge_eq_ok_iff h.placed
      rcases h.deallocate_cases addr size align with
        ⟨reason, hjudge, hrun⟩ | ⟨freed, after, hjudge, hrun, -⟩
      · rw [step_rejected hrun]
        refine (and_iff_left_of_imp fun hmem hfrees => ?_).symm
        cases hjudge.symm.trans (hfound.2 ⟨hmem, hfrees⟩)
      · obtain ⟨hmem, -, rfl⟩ := judge_eq_ok hjudge
        rw [step_released hrun, h.released_eq hmem, Finset.mem_erase, and_comm]
        refine and_congr_right fun hblock => not_congr ⟨fun heq => ?_, fun hfrees => ?_⟩
        · exact (hfound.1 (heq ▸ hjudge)).2
        · exact Except.ok.inj ((hfound.2 ⟨hblock, hfrees⟩).symm.trans hjudge)

/-- Deallocations leave the blocks live that none of them frees. -/
theorem mem_live_foldl (h : occupied.arena.Keeps start occupied.ledger) {frees : List Use}
    (hfrees : ∀ use ∈ frees, use.IsDeallocation) (block : Node) :
    block ∈ (frees.foldl step occupied).live ↔
      block ∈ occupied.live ∧ ∀ use ∈ frees, ¬use.Frees config start.span.addr block := by
  induction frees generalizing occupied with
  | nil => simp
  | cons use frees ih =>
      rw [List.foldl_cons, ih (h.step use) fun use hmem => hfrees use (List.mem_cons_of_mem _ hmem),
        mem_live_step h (hfrees use List.mem_cons_self), List.forall_mem_cons, and_assoc]

/-- Freeing blocks in another order leaves the same blocks live. -/
theorem live_foldl_perm (h : occupied.arena.Keeps start occupied.ledger) {frees others : List Use}
    (hfrees : ∀ use ∈ frees, use.IsDeallocation) (hperm : frees.Perm others) :
    (frees.foldl step occupied).live = (others.foldl step occupied).live := by
  ext block
  rw [mem_live_foldl h hfrees, mem_live_foldl h fun use hmem => hfrees use (hperm.mem_iff.2 hmem)]
  simp only [hperm.mem_iff]

end Occupied

variable {config : Config} {σ τ : Type} {provider : Provider σ} {source : Provider τ}
  {before after : σ} {earlier later : τ} {start other : Arena config}

/-- Two runs that end with live blocks of the same lengths at the same offsets end in arenas that
are alike. So do two runs that end with the same deallocations in different orders. -/
theorem alike_run (h : (build config provider).run before = .ok (.ok start) after)
    (hother : (build config source).run earlier = .ok (.ok other) later) :
    (∀ uses history : List Use,
      (Occupied.run start uses).placements = (Occupied.run other history).placements →
        (Occupied.run start uses).arena.Alike (Occupied.run other history).arena) ∧
    ∀ uses frees reordered : List Use, (∀ use ∈ frees, use.IsDeallocation) →
      frees.Perm reordered →
        (Occupied.run start (uses ++ frees)).arena.Alike
          (Occupied.run start (uses ++ reordered)).arena := by
  refine ⟨fun uses history hsame => ?_, fun uses frees reordered hfrees hperm => ?_⟩
  · refine .of_live_eq (keeps_run h uses) (keeps_run hother history) ?_
    exact Occupied.live_eq_of_placements_eq hsame
  · refine .of_live_eq (keeps_run h _) (keeps_run h _) ?_
    have hlive := Occupied.live_foldl_perm (keeps_run h uses) hfrees hperm
    simp only [Occupied.run, ← List.foldl_append] at hlive
    exact hlive

/-- Two small arenas at different addresses with the same live block are alike, and stay so. -/
theorem alike_run_small :
    ∃ start after other later,
      (build Config.small Host.heap).run Host.fresh = .ok (.ok start) after ∧
      (build Config.small Host.heap).run after = .ok (.ok other) later ∧
      start.span.addr ≠ other.span.addr ∧
      (Occupied.run start [.allocate 16 16, .allocate 17 4,
        .deallocate start.span.addr 16 16]).placements =
          (Occupied.run other [.allocate 17 4, .allocate 32 1,
            .deallocate other.span.addr 17 4]).placements ∧
      (Occupied.run start [.allocate 16 16, .allocate 17 4,
        .deallocate start.span.addr 16 16]).arena.Alike
          (Occupied.run other [.allocate 17 4, .allocate 32 1,
            .deallocate other.span.addr 17 4]).arena ∧
      (Occupied.run start [.allocate 16 16, .allocate 17 4, .deallocate start.span.addr 16 16,
        .deallocate (start.span.addr + 32) 17 4]).arena.Alike
          (Occupied.run start [.allocate 16 16, .allocate 17 4,
            .deallocate (start.span.addr + 32) 17 4, .deallocate start.span.addr 16 16]).arena := by
  obtain ⟨start, after, h⟩ := exists_build_small
  obtain ⟨other, later, hother⟩ :
      ∃ other later, (build Config.small Host.heap).run after = .ok (.ok other) later := by
    cases h
    exact ⟨_, _, rfl⟩
  obtain ⟨hhistory, horder⟩ := alike_run h hother
  refine ⟨start, after, other, later, h, hother, ?moved, ?same, hhistory _ _ ?same,
    horder [.allocate 16 16, .allocate 17 4]
      [.deallocate start.span.addr 16 16, .deallocate (start.span.addr + 32) 17 4] _
      (by simp [Use.IsDeallocation]) (.swap _ _ _)⟩
  all_goals
    cases h
    cases hother
    decide +kernel

end BuddySystem
