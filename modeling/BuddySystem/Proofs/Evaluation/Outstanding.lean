import BuddySystem.Proofs.Arena.Access
import BuddySystem.Proofs.Arena.Placement
import BuddySystem.Proofs.Arena.Restoration
import BuddySystem.Proofs.Evaluation.Lawful

/-!
# Evaluations of an arena

At every moment of an evaluation of an arena, the blocks that are held are the live blocks of the
arena (`Outstanding`, `outstanding_of_reached`). Live blocks share no address and are taken back, so
an arena over an aligned region is lawful (`lawful_of_keeps`). `evaluate_arena_run` says that its
evaluations find no flaw, whatever the operations are, and leave it idle.
-/

namespace BuddySystem

open Occupancy Arena Evaluation

/-- The blocks that are held are the live blocks of an arena at `base`: each of them starts where
the live block does that serves its request. -/
structure Outstanding (config : Config) (base : Nat) (held : List Block) (live : Finset Node) :
    Prop where
  nodes : ((held.map fun block =>
      (block.slice.addr, config.order? block.request.size block.request.align) :
      List (Nat × Option Nat)) : Multiset (Nat × Option Nat)) =
    live.val.map fun node => (base + node.leaf * config.blockSize, some node.order)
  len : ∀ block ∈ held, block.slice.len = block.request.size

namespace Outstanding

variable {config : Config} {base : Nat} {held rest : List Block} {live : Finset Node}
  {block : Block}

theorem nil (config : Config) (base : Nat) : Outstanding config base [] ∅ where
  nodes := rfl
  len := by simp

theorem live_eq_empty (h : Outstanding config base [] live) : live = ∅ := by
  have hnone := h.nodes.symm
  rw [List.map_nil, Multiset.coe_nil, Multiset.map_eq_zero, Finset.val_eq_zero] at hnone
  exact hnone

theorem perm (h : Outstanding config base held live) (hperm : held.Perm rest) :
    Outstanding config base rest live where
  nodes := by
    rw [← h.nodes]
    exact Multiset.coe_eq_coe.2 (hperm.map _).symm
  len block hmem := h.len block (hperm.mem_iff.2 hmem)

/-- A block that is held is a live block. -/
theorem exists_node (h : Outstanding config base held live) (hmem : block ∈ held) :
    ∃ node ∈ live, block.slice.addr = base + node.leaf * config.blockSize ∧
      config.order? block.request.size block.request.align = some node.order := by
  have hblock : (block.slice.addr, config.order? block.request.size block.request.align) ∈
      live.val.map fun node => (base + node.leaf * config.blockSize, some node.order) := by
    rw [← h.nodes]
    exact Multiset.mem_coe.2 (List.mem_map_of_mem hmem)
  obtain ⟨node, hnode, heq⟩ := Multiset.mem_map.1 hblock
  obtain ⟨haddr, horder⟩ := Prod.mk.inj heq
  exact ⟨node, hnode, haddr.symm, horder.symm⟩

/-- The addresses of a block that is held are addresses of its live block. -/
theorem addresses_subset (h : Outstanding config base held live) (hmem : block ∈ held) :
    ∃ node ∈ live, block.slice.addresses ⊆ config.addresses base node := by
  obtain ⟨node, hnode, haddr, horder⟩ := h.exists_node hmem
  have hroom := config.size_le_of_order? horder
  rw [← h.len block hmem] at hroom
  refine ⟨node, hnode, ?_⟩
  rw [config.addresses_eq, Slice.addresses, ← haddr]
  exact Set.Ico_subset_Ico_right (Nat.add_le_add_left hroom _)

/-- A block that is held lies in the arena. -/
theorem within (h : Outstanding config base held live) (hlive : Placed config.maxOrder live)
    (hmem : block ∈ held) : block.slice.addresses ⊆ Set.Ico base (base + config.capacity) := by
  obtain ⟨node, hnode, hsubset⟩ := h.addresses_subset hmem
  exact hsubset.trans (config.addresses_subset (hlive.inTree node hnode))

/-- Painting a block that is held changes no byte outside of the arena. -/
theorem eqOn_paint (h : Outstanding config base held live) (hlive : Placed config.maxOrder live)
    (hmem : block ∈ held) (memory : Memory) (id : UInt64) :
    Set.EqOn (memory.paint block.slice id).read memory.read
      (Set.Ico base (base + config.capacity))ᶜ :=
  memory.eqOn_paint (Set.disjoint_compl_left_iff_subset.2 (h.within hlive hmem)) id

/-- A block that is served becomes live and is held. -/
theorem serve (h : Outstanding config base held live) {request : Request} {target leaf : Nat}
    (horder : config.order? request.size request.align = some target)
    (hnew : ⟨leaf, target⟩ ∉ live) (id : UInt64) :
    Outstanding config base
      (held ++ [⟨⟨base + leaf * config.blockSize, request.size⟩, request, id⟩])
      (insert ⟨leaf, target⟩ live) where
  nodes := by
    rw [Finset.insert_val_of_notMem hnew, Multiset.map_cons, ← h.nodes, List.map_append,
      Multiset.cons_coe, Multiset.coe_eq_coe, List.map_singleton, horder]
    exact List.perm_append_singleton _ _
  len block hmem := by
    rcases List.mem_append.1 hmem with hmem | hmem
    · exact h.len block hmem
    · rw [List.mem_singleton.1 hmem]

/-- A block that is released is no longer live and no longer held. -/
theorem release (h : Outstanding config base (block :: rest) live) {node : Node}
    (hnode : node ∈ live) (haddr : block.slice.addr = base + node.leaf * config.blockSize)
    (horder : config.order? block.request.size block.request.align = some node.order) :
    Outstanding config base rest (live.erase node) where
  nodes := by
    have hnodes := h.nodes
    rw [← Finset.insert_erase hnode, Finset.insert_val_of_notMem (Finset.notMem_erase _ _),
      Multiset.map_cons, List.map_cons, ← Multiset.cons_coe, haddr, horder] at hnodes
    exact (Multiset.cons_inj_right _).1 hnodes
  len other hmem := h.len other (List.mem_cons_of_mem _ hmem)

end Outstanding

/-! ## An arena as a subject -/

namespace Arena

variable {config : Config} {start arena after : Arena config} {ledger : Ledger} {log : List Event}
  {memory : Memory} {size align : Nat} {held rest : List Block} {block : Block}

/-- An arena as a subject. Its calls leave the memory alone. -/
abbrev evaluated (config : Config) : Subject (Logged (Arena config)) :=
  subject.toProvider.within Focus.second

theorem run_evaluated_refused {refusal : Refusal}
    (h : (allocate size align).run arena = .ok (.error refusal) after) :
    ((evaluated config).allocate size align).run (memory, ⟨arena, log⟩) =
      .ok none (memory, ⟨after, log ++ refusal.events⟩) := by
  simp [evaluated, Provider.within, subject, run_provider_allocate, Focus.second, h]

theorem run_evaluated_served {slice : Slice}
    (h : (allocate size align).run arena = .ok (.ok slice) after) :
    ((evaluated config).allocate size align).run (memory, ⟨arena, log⟩) =
      .ok (some slice) (memory, ⟨after, log⟩) := by
  simp [evaluated, Provider.within, subject, run_provider_allocate, Focus.second, h]

theorem run_evaluated_released
    (h : (deallocate block.slice.addr block.request.size block.request.align).run arena =
      .ok (.ok ()) after) :
    (takeBack (evaluated config) block).run (memory, ⟨arena, log⟩) =
      .ok () (memory, ⟨after, log⟩) := by
  simp [takeBack, evaluated, Provider.within, subject, run_provider_deallocate, Focus.second, h]

/-- What an arena hands out for a request suits it, and lies apart from the live blocks. -/
theorem Keeps.suits (h : arena.Keeps start ledger) (hbase : config.capacity ∣ start.span.addr)
    (hheld : Outstanding config start.span.addr held ledger.live) {request : Request}
    {slice : Slice}
    (hrun : (allocate request.size request.align).run arena = .ok (.ok slice) after) :
    Suits held request slice := by
  have hoccupied : arena.Keeps start (Occupied.ledger ⟨arena, ledger.live⟩) := h.eq_ledger ▸ h
  have hsafe : (Occupied.mk arena ledger.live).Safe request.size request.align slice :=
    Occupied.safe_of_keeps hoccupied hbase hrun
  obtain ⟨hlen, halign, -, -, hapart, -⟩ := hsafe
  rcases h.allocate_cases request.size request.align with
    ⟨refusal, hrefused, -⟩ | ⟨target, leaf, rest, other, horder, -⟩
  · cases hrefused.symm.trans hrun
  · obtain ⟨⟨hsize, hpower, -⟩, hserving⟩ := config.order?_eq_some_iff.1 horder
    obtain ⟨k, hk⟩ := Word.isPowerOfTwo_iff.1 hpower
    refine ⟨hsize, hlen, (hk ▸ Nat.two_pow_pos k).ne', halign, fun block hmem => ?_⟩
    obtain ⟨node, hnode, hsubset⟩ := hheld.addresses_subset hmem
    refine (hapart node hnode).mono ?_ ?_
    · rw [Occupied.addresses, h.shows_ledger.span]
      exact hsubset
    · rw [Slice.addresses, hlen, Occupied.extent, hserving]
      exact Set.Ico_subset_Ico_right (Nat.add_le_add_left (config.size_le_of_order? horder) _)

/-- A request is refused and the arena stays as it is, or it is served and its block can be held. -/
theorem Keeps.run_evaluated_allocate (h : arena.Keeps start ledger)
    (hbase : config.capacity ∣ start.span.addr)
    (hheld : Outstanding config start.span.addr held ledger.live) (memory : Memory)
    (log : List Event) (request : Request) :
    (∃ noted, ((evaluated config).allocate request.size request.align).run
      (memory, ⟨arena, log⟩) = .ok none (memory, ⟨arena, noted⟩)) ∨
    ∃ slice after filled,
      ((evaluated config).allocate request.size request.align).run (memory, ⟨arena, log⟩) =
        .ok (some slice) (memory, ⟨after, log⟩) ∧
      Suits held request slice ∧ after.Keeps start filled ∧
      ∀ id, Outstanding config start.span.addr (held ++ [⟨slice, request, id⟩]) filled.live := by
  rcases h.allocate_cases request.size request.align with
    ⟨refusal, hrun, -⟩ | ⟨target, leaf, filled, after, horder, hserved, hrun, hafter⟩
  · exact .inl ⟨_, run_evaluated_refused hrun⟩
  · obtain ⟨hlive, -, huntouched⟩ := h.balanced.of_allocate hserved
    refine .inr ⟨_, after, filled, run_evaluated_served hrun, h.suits hbase hheld hrun, hafter,
      fun id => ?_⟩
    rw [hlive]
    refine hheld.serve horder (fun hmem => huntouched ?_) id
    exact ⟨_, hmem, (Node.Inside.refl _).overlaps⟩

/-- A block that is held is taken back, and the others are still held. -/
theorem Keeps.run_evaluated_deallocate (h : arena.Keeps start ledger)
    (hheld : Outstanding config start.span.addr (block :: rest) ledger.live) (memory : Memory)
    (log : List Event) :
    ∃ after vacated,
      (takeBack (evaluated config) block).run (memory, ⟨arena, log⟩) =
        .ok () (memory, ⟨after, log⟩) ∧
      after.Keeps start vacated ∧ Outstanding config start.span.addr rest vacated.live := by
  obtain ⟨node, hnode, haddr, horder⟩ := hheld.exists_node List.mem_cons_self
  obtain ⟨after, hrun, hafter⟩ := h.run_deallocate_of_mem hnode horder
  rw [← haddr] at hrun
  exact ⟨after, _, run_evaluated_released hrun, hafter, hheld.release hnode haddr horder⟩

end Arena

/-! ## Evaluations -/

section

variable {config : Config} {start : Arena config}

/-- At every moment the blocks that are held are the live blocks, and no byte outside of the arena
has changed. -/
theorem outstanding_of_reached (hstart : start.Keeps start (Ledger.idle config.maxOrder))
    (hbase : config.capacity ∣ start.span.addr) {memory : Memory} {log : List Event}
    {stage : Stage} {held : List Block} {after : Memory × Logged (Arena config)}
    (h : Reached (evaluated config) (memory, ⟨start, log⟩) stage held after) :
    ∃ ledger, after.2.state.Keeps start ledger ∧
      Outstanding config start.span.addr held ledger.live ∧
      Set.EqOn after.1.read memory.read
        (Set.Ico start.span.addr (start.span.addr + config.capacity))ᶜ := by
  -- The arena itself changes no byte, so only the painting has to stay inside.
  induction h with
  | start => exact ⟨_, hstart, .nil _ _, Set.eqOn_refl _ _⟩
  | @refused _ _ before _ request _ hrun ih =>
      obtain ⟨ledger, hkeeps, hheld, houtside⟩ := ih
      rcases hkeeps.run_evaluated_allocate hbase hheld before.1 before.2.log request with
        ⟨noted, hanswer⟩ | ⟨slice, after, filled, hanswer, -⟩
      · cases hanswer.symm.trans hrun
        exact ⟨ledger, hkeeps, hheld, houtside⟩
      · cases hanswer.symm.trans hrun
  | @served count _ before _ request slice _ hrun ih =>
      obtain ⟨ledger, hkeeps, hheld, houtside⟩ := ih
      rcases hkeeps.run_evaluated_allocate hbase hheld before.1 before.2.log request with
        ⟨noted, hanswer⟩ | ⟨slice, after, filled, hanswer, -, hafter, hfilled⟩
      · cases hanswer.symm.trans hrun
      · cases hanswer.symm.trans hrun
        have hpaint := (hfilled count.toUInt64).eqOn_paint hafter.placed
          (List.mem_append_right _ List.mem_cons_self) before.1 count.toUInt64
        exact ⟨filled, hafter, hfilled _, hpaint.trans houtside⟩
  | skipped _ ih => exact ih
  | @returned count _ _ rest block before _ _ htake hrun ih =>
      obtain ⟨ledger, hkeeps, hheld, houtside⟩ := ih
      replace hheld := hheld.perm (takeModulo_perm htake)
      have hpaint := hheld.eqOn_paint hkeeps.placed List.mem_cons_self before.1 count.toUInt64
      obtain ⟨after, vacated, hanswer, hafter, hvacated⟩ := hkeeps.run_evaluated_deallocate
        hheld (before.1.paint block.slice count.toUInt64) before.2.log
      cases hanswer.symm.trans hrun
      exact ⟨vacated, hafter, hvacated, hpaint.trans houtside⟩
  | ended _ ih => exact ih
  | @drained _ _ before _ _ hrun ih =>
      obtain ⟨ledger, hkeeps, hheld, houtside⟩ := ih
      obtain ⟨after, vacated, hanswer, hafter, hvacated⟩ :=
        hkeeps.run_evaluated_deallocate hheld before.1 before.2.log
      cases hanswer.symm.trans hrun
      exact ⟨vacated, hafter, hvacated, houtside⟩

/-- An arena over memory that is aligned to its capacity is lawful. -/
theorem lawful_of_keeps (hstart : start.Keeps start (Ledger.idle config.maxOrder))
    (hbase : config.capacity ∣ start.span.addr) (memory : Memory) (log : List Event) :
    Lawful (evaluated config) (memory, ⟨start, log⟩) where
  allocate {count held before} hreached request := by
    obtain ⟨ledger, hkeeps, hheld, -⟩ := outstanding_of_reached hstart hbase hreached
    rcases hkeeps.run_evaluated_allocate hbase hheld before.1 before.2.log request with
      ⟨noted, hrun⟩ | ⟨slice, after, filled, hrun, hsuits, -⟩
    · exact ⟨_, _, hrun, .refl _ _, nofun⟩
    · refine ⟨_, _, hrun, .refl _ _, ?_⟩
      rintro _ ⟨rfl⟩
      exact hsuits
  deallocate {block rest before} hreturning := by
    obtain ⟨ledger, hkeeps, hheld⟩ : ∃ ledger, before.2.state.Keeps start ledger ∧
        Outstanding config start.span.addr (block :: rest) ledger.live := by
      cases hreturning with
      | repainted hreached htake =>
          obtain ⟨ledger, hkeeps, hheld, -⟩ := outstanding_of_reached hstart hbase hreached
          exact ⟨ledger, hkeeps, hheld.perm (takeModulo_perm htake)⟩
      | drained hreached =>
          obtain ⟨ledger, hkeeps, hheld, -⟩ := outstanding_of_reached hstart hbase hreached
          exact ⟨ledger, hkeeps, hheld⟩
    obtain ⟨after, vacated, hrun, -⟩ :=
      hkeeps.run_evaluated_deallocate hheld before.1 before.2.log
    exact ⟨_, hrun, .refl _ _⟩

end

/-- An evaluation of an arena that was just set up, in a region that suits its alignment, finds no
flaw, whatever the operations are. It leaves the arena idle and as it was set up, and no byte
outside of the arena has changed, those of the bookkeeping included. -/
theorem evaluate_arena_run {config : Config} {σ : Type} {provider : Provider σ} {before after : σ}
    {start : Arena config} (h : (build config provider).run before = .ok (.ok start) after)
    (haligned : start.region.align ∣ start.span.addr) (memory : Memory) (log : List Event)
    (operations : List Operation) :
    ∃ final : Memory × Logged (Arena config),
      (evaluate (Arena.subject.toProvider.within Focus.second) operations).run
        (memory, ⟨start, log⟩) = .ok (.ok ()) final ∧
      final.2.state.isIdle = .ok true ∧ final.2.state = start ∧
      Set.EqOn final.1.read memory.read
        (Set.Ico start.span.addr (start.span.addr + config.capacity))ᶜ := by
  have hbase := capacity_dvd_of_build h haligned
  have hstart := keeps_of_build h
  obtain ⟨final, hrun, hfinal⟩ := (lawful_of_keeps hstart hbase memory log).evaluate operations
  obtain ⟨ledger, hkeeps, hheld, houtside⟩ := outstanding_of_reached hstart hbase hfinal
  have hlive := hheld.live_eq_empty
  refine ⟨final, hrun, ?_, hstart.eq_of_live_eq_empty hkeeps hlive, houtside⟩
  rw [hkeeps.isIdle_eq, hlive]
  rfl

/-- An evaluation of a small arena passes, with a request of size zero and a block given back. -/
theorem evaluate_arena_run_small :
    ∃ start after, (build Config.small Host.heap).run Host.fresh = .ok (.ok start) after ∧
      start.region.align ∣ start.span.addr ∧
      ∃ final : Memory × Logged (Arena Config.small),
        (evaluate (Arena.subject.toProvider.within Focus.second)
          [.alloc ⟨16, 16⟩, .alloc ⟨0, 1⟩, .alloc ⟨17, 4⟩, .dealloc 7, .alloc ⟨9, 2⟩]).run
            (Memory.zero start.span.addr, ⟨start, []⟩) = .ok (.ok ()) final ∧
        final.2.state.isIdle = .ok true ∧ final.2.state = start ∧
        Set.EqOn final.1.read (Memory.zero start.span.addr).read
          (Set.Ico start.span.addr (start.span.addr + Config.small.capacity))ᶜ := by
  obtain ⟨start, after, h⟩ := exists_build_small
  have haligned : start.region.align ∣ start.span.addr := by
    cases h
    decide +kernel
  exact ⟨start, after, h, haligned, evaluate_arena_run h haligned _ _ _⟩

end BuddySystem
