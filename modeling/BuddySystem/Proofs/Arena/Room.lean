import BuddySystem.Proofs.Arena.Refinement
import Mathlib.Algebra.Order.BigOperators.Ring.Finset

/-!
# Room that is sure to be left

A live block reaches into a single block of an order if it is not larger than these blocks, and
into all the blocks that it is made of if it is. `Occupancy.load` adds this up over the live blocks.
As long as the sum is less than the number of all blocks of the order, one of them has no live leaf
(`Placed.exists_not_touched`), and since free halves are always joined again it can be handed out.
So the load of an order decides that a request is served, whatever the history was.

Requests of one order that are served one after the other add to the load of the order one by one.
They use an idle arena up exactly if there are as many of them as blocks of the order. From then on
all requests are refused until memory is taken back (`room_run`).
-/

namespace BuddySystem

open Occupancy Arena

/-- The number of blocks of an order that an arena is made of. -/
def Config.places (config : Config) (order : Nat) : Nat :=
  config.capacity / (config.blockSize * 2 ^ order)

theorem Config.places_eq (config : Config) {order : Nat} (h : order ≤ config.maxOrder) :
    config.places order = 2 ^ (config.maxOrder - order) := by
  have hcapacity : config.capacity =
      2 ^ (config.maxOrder - order) * (config.blockSize * 2 ^ order) := by
    rw [Config.capacity, Config.blockSize, ← Nat.pow_add, ← Nat.pow_add]
    congr 1
    omega
  have hpos : 0 < config.blockSize * 2 ^ order :=
    Nat.mul_pos config.blockSize_pos (Nat.two_pow_pos order)
  rw [Config.places, hcapacity, Nat.mul_div_cancel _ hpos]

namespace Occupancy

variable {maxOrder order : Nat} {live : Finset Node} {block : Node}

/-! ## How much of an order is taken -/

/-- The number of blocks of an order that live blocks reach into, if no two of them reach into the
same one. -/
def load (live : Finset Node) (order : Nat) : Nat :=
  ∑ block ∈ live, 2 ^ (block.order - order)

/-- One more live block takes the places that it covers, and at least one. -/
theorem load_insert (h : block ∉ live) (order : Nat) :
    load (insert block live) order = load live order + 2 ^ (block.order - order) := by
  rw [load, Finset.sum_insert h, Nat.add_comm]
  rfl

/-- The places among the blocks of an order that a block reaches into. -/
def reach (block : Node) (order : Nat) : Finset Nat :=
  Finset.Ico (block.leaf / 2 ^ order) (block.leaf / 2 ^ order + 2 ^ (block.order - order))

theorem mem_reach {index : Nat} (hblock : block.InTree maxOrder)
    (hnode : (Node.ofIndex index order).InTree maxOrder)
    (h : block.Overlaps (Node.ofIndex index order)) : index ∈ reach block order := by
  have hpos := Nat.two_pow_pos order
  rw [reach, Finset.mem_Ico]
  rcases Nat.le_total block.order order with hle | hle
  · -- The block lies inside the one with this place.
    obtain ⟨hstart, hstop⟩ := h.inside hblock hnode hle
    have hlt := block.leaf_lt_stop
    have hplace : block.leaf / 2 ^ order = index :=
      Nat.div_eq_of_lt_le hstart (by
        rw [Nat.succ_mul]
        exact Nat.lt_of_lt_of_le hlt hstop)
    rw [hplace, Nat.sub_eq_zero_of_le hle, Nat.pow_zero]
    exact ⟨Nat.le_refl index, Nat.lt_succ_self index⟩
  · -- The block is made of blocks of the order, and this is one of them.
    obtain ⟨hstart, hstop⟩ := h.symm.inside hnode hblock hle
    obtain ⟨outer, -, houter⟩ := hblock.exists_index
    have hpow : 2 ^ block.order = 2 ^ (block.order - order) * 2 ^ order := by
      rw [← Nat.pow_add, Nat.sub_add_cancel hle]
    have hleaf : block.leaf = outer * 2 ^ (block.order - order) * 2 ^ order := by
      rw [Nat.mul_assoc, ← hpow]
      exact congrArg Node.leaf houter
    have hlast : (index + 1) * 2 ^ order ≤
        (outer * 2 ^ (block.order - order) + 2 ^ (block.order - order)) * 2 ^ order := by
      rw [Nat.succ_mul, Nat.add_mul, ← hleaf, ← hpow]
      exact hstop
    rw [hleaf, Nat.mul_div_cancel _ hpos]
    refine ⟨Nat.le_of_mul_le_mul_right ?_ hpos, Nat.le_of_mul_le_mul_right hlast hpos⟩
    rw [← hleaf]
    exact hstart

/-- If the load of an order is less than the number of its blocks, one of them has no live leaf. -/
theorem Placed.exists_not_touched (hlive : Placed maxOrder live) (hle : order ≤ maxOrder)
    (hload : load live order < 2 ^ (maxOrder - order)) :
    ∃ node : Node, node.InTree maxOrder ∧ node.order = order ∧ ¬Touched live node := by
  by_contra hnone
  have hcover : Finset.range (2 ^ (maxOrder - order)) ⊆ live.biUnion (reach · order) := by
    intro index hindex
    have hnode : (Node.ofIndex index order).InTree maxOrder :=
      Node.ofIndex_inTree.2 ⟨hle, Finset.mem_range.1 hindex⟩
    obtain ⟨block, hmem, hover⟩ : Touched live (Node.ofIndex index order) := by
      by_contra huntouched
      exact hnone ⟨_, hnode, rfl, huntouched⟩
    exact Finset.mem_biUnion.2 ⟨block, hmem, mem_reach (hlive.inTree block hmem) hnode hover⟩
  refine Nat.not_lt.2 ?_ hload
  calc 2 ^ (maxOrder - order)
      = (Finset.range (2 ^ (maxOrder - order))).card := (Finset.card_range _).symm
    _ ≤ (live.biUnion (reach · order)).card := Finset.card_le_card hcover
    _ ≤ ∑ block ∈ live, (reach block order).card := Finset.card_biUnion_le
    _ = load live order := by simp only [reach, Nat.card_Ico, Nat.add_sub_cancel_left, load]

end Occupancy

namespace Arena

variable {config : Config} {start arena : Arena config} {ledger : Ledger} {size align order : Nat}

/-! ## Single requests -/

/-- A request is served if the load of its order is less than the number of its blocks. -/
theorem Keeps.exists_served (h : arena.Keeps start ledger)
    (horder : config.order? size align = some order)
    (hload : load ledger.live order < config.places order) :
    ∃ slice after, (allocate size align).run arena = .ok (.ok slice) after := by
  have hle := config.le_maxOrder_of_order? horder
  rw [config.places_eq hle] at hload
  obtain ⟨node, hnode, rfl, huntouched⟩ := h.placed.exists_not_touched hle hload
  obtain ⟨leaf, rest, after, -, hrun⟩ := h.run_allocate_of_not_touched hnode huntouched horder
  exact ⟨_, after, hrun⟩

/-- What is handed out adds to the load of every order. -/
theorem Keeps.load_served (h : arena.Keeps start ledger)
    (horder : config.order? size align = some order) {slice : Slice} {after : Arena config}
    (hrun : (allocate size align).run arena = .ok (.ok slice) after) :
    ∃ filled, after.Keeps start filled ∧
      ∀ other, load filled.live other = load ledger.live other + 2 ^ (order - other) := by
  rcases h.allocate_cases size align with
    ⟨refusal, hrefused, -⟩ | ⟨target, leaf, rest, served, htarget, hserved, hanswer, hkeeps⟩
  · cases hrefused.symm.trans hrun
  · cases hanswer.symm.trans hrun
    obtain rfl := Option.some.inj (horder.symm.trans htarget)
    obtain ⟨hlive, -, huntouched⟩ := h.balanced.of_allocate hserved
    have hnew : Node.mk leaf order ∉ ledger.live := fun hmem =>
      huntouched ⟨_, hmem, (Node.Inside.refl _).overlaps⟩
    refine ⟨rest, hkeeps, fun other => ?_⟩
    rw [hlive, load_insert hnew]

/-- The live blocks have no more leaves than the arena. -/
theorem Keeps.load_zero_le (h : arena.Keeps start ledger) :
    load ledger.live 0 ≤ 2 ^ config.maxOrder := by
  rw [← h.balanced.leafCount_add h.placed]
  exact Nat.le_add_left _ _

/-- Nothing is handed out if all leaves are live. -/
theorem Keeps.respond_allocate_of_full (h : arena.Keeps start ledger)
    (hfull : load ledger.live 0 = 2 ^ config.maxOrder) (size align : Nat) :
    arena.respond (.allocate size align) = (.refused, arena) := by
  rcases h.allocate_cases size align with
    ⟨refusal, hrun, -⟩ | ⟨target, leaf, rest, after, horder, -, hrun, -⟩
  · rw [Arena.respond, hrun]
  · obtain ⟨filled, hfilled, hload⟩ := h.load_served horder hrun
    have hle := hfilled.load_zero_le
    have hpos := Nat.two_pow_pos (target - 0)
    rw [hload 0, hfull] at hle
    omega

end Arena

/-! ## Many requests -/

/-- Whether a use asks for a block of an order. -/
def Use.Asks (config : Config) (order : Nat) : Use → Prop
  | .allocate size align => config.order? size align = some order
  | .deallocate .. => False

namespace Arena

variable {config : Config} {start arena : Arena config} {ledger : Ledger} {order : Nat}

/-- The answers to a number of uses, one after the other. -/
def answers (arena : Arena config) (uses : List Use) : List Answer :=
  (trace respond view arena uses).map Prod.fst

theorem answers_cons (arena : Arena config) (use : Use) (uses : List Use) :
    arena.answers (use :: uses) = (arena.respond use).1 :: (arena.respond use).2.answers uses :=
  rfl

theorem length_answers (arena : Arena config) (uses : List Use) :
    (arena.answers uses).length = uses.length := by
  induction uses generalizing arena with
  | nil => rfl
  | cons use uses ih => rw [answers_cons, List.length_cons, List.length_cons, ih]

/-- Requests of an order are served for which there is room, and each of them adds one to the load
of the order. -/
theorem Keeps.answers_append (h : arena.Keeps start ledger) {requests : List Use}
    (hall : ∀ use ∈ requests, use.Asks config order)
    (hroom : load ledger.live order + requests.length ≤ config.places order) (more : List Use) :
    ∃ (slices : List Slice) (after : Arena config) (filled : Ledger), after.Keeps start filled ∧
      load filled.live 0 = load ledger.live 0 + requests.length * 2 ^ order ∧
      slices.length = requests.length ∧
      arena.answers (requests ++ more) = slices.map .served ++ after.answers more := by
  induction requests generalizing arena ledger with
  | nil => exact ⟨[], arena, ledger, h, by simp, rfl, rfl⟩
  | cons use requests ih =>
      rw [List.length_cons] at hroom
      have hask := hall use List.mem_cons_self
      cases use with
      | deallocate => exact hask.elim
      | allocate size align =>
          obtain ⟨slice, between, hrun⟩ := h.exists_served hask (by omega)
          obtain ⟨filled, hkeeps, hload⟩ := h.load_served hask hrun
          have hone := hload order
          rw [Nat.sub_self, Nat.pow_zero] at hone
          obtain ⟨slices, after, last, hlast, hleaves, hlength, hanswers⟩ :=
            ih hkeeps (fun use hmem => hall use (List.mem_cons_of_mem _ hmem)) (by omega)
          refine ⟨slice :: slices, after, last, hlast, ?_, ?_, ?_⟩
          · rw [hleaves, hload 0, Nat.sub_zero, List.length_cons, Nat.succ_mul]
            omega
          · rw [List.length_cons, hlength, List.length_cons]
          · rw [List.cons_append, answers_cons, Arena.respond, hrun, hanswers]
            rfl

/-- While all leaves are live, every request is refused, up to the first block that is taken
back. -/
theorem Keeps.refused_of_full (h : arena.Keeps start ledger)
    (hfull : load ledger.live 0 = 2 ^ config.maxOrder) {uses : List Use} {i size align : Nat}
    (hask : uses[i]? = some (.allocate size align))
    (hkept : Answer.released ∉ (arena.answers uses).take i) :
    (arena.answers uses)[i]? = some .refused := by
  induction uses generalizing i with
  | nil => cases hask
  | cons use uses ih =>
      rw [answers_cons] at hkept ⊢
      cases i with
      | zero =>
          obtain rfl := Option.some.inj hask
          rw [h.respond_allocate_of_full hfull]
          rfl
      | succ i =>
          rw [List.take_succ_cons, List.mem_cons, not_or] at hkept
          have hsame : (arena.respond use).2 = arena := by
            cases use with
            | allocate size align => rw [h.respond_allocate_of_full hfull]
            | deallocate addr size align =>
                rcases h.deallocate_cases addr size align with
                  ⟨reason, -, hrun⟩ | ⟨block, after, -, hrun, -⟩
                · rw [Arena.respond, hrun]
                · refine absurd ?_ hkept.1
                  rw [Arena.respond, hrun]
          rw [hsame] at hkept ⊢
          exact ih hask hkept.2

end Arena

/-- In every state that an arena reaches, a request is served if the live blocks reach into fewer
blocks of its order than there are. An arena that is idle serves exactly as many requests of an
order as there are blocks of it, and then refuses every request until it has taken memory back. -/
theorem room_run {config : Config} {σ : Type} {provider : Provider σ} {before after : σ}
    {start : Arena config} (h : (build config provider).run before = .ok (.ok start) after)
    (uses : List Use) :
    (∀ size align order, config.order? size align = some order →
      load (Occupied.run start uses).live order < config.places order →
      ∃ slice served, (allocate size align).run (Occupied.run start uses).arena =
        .ok (.ok slice) served) ∧
    ((Occupied.run start uses).arena.isIdle = .ok true →
      ∀ order ≤ config.maxOrder, ∀ requests : List Use,
        (∀ use ∈ requests, use.Asks config order) → requests.length = config.places order →
        ∀ more : List Use, ∃ (slices : List Slice) (replies : List Answer),
          (Occupied.run start uses).arena.answers (requests ++ more) =
            slices.map .served ++ replies ∧
          slices.length = requests.length ∧ replies.length = more.length ∧
          ∀ i size align, more[i]? = some (.allocate size align) →
            Answer.released ∉ replies.take i → replies[i]? = some .refused) := by
  have hkeeps := keeps_run h uses
  refine ⟨fun size align order horder hload => hkeeps.exists_served horder hload, ?_⟩
  intro hidle order hle requests hall hlength more
  have hlive : (Occupied.run start uses).live = ∅ := by
    rw [hkeeps.isIdle_eq] at hidle
    exact of_decide_eq_true (Except.ok.inj hidle)
  have hempty : ∀ other, load (Occupied.run start uses).ledger.live other = 0 := fun other => by
    rw [Occupied.ledger, hlive]
    rfl
  obtain ⟨slices, full, filled, hfilled, hleaves, hslices, hanswers⟩ :=
    hkeeps.answers_append hall (by rw [hempty, hlength, Nat.zero_add]) more
  have hfull : load filled.live 0 = 2 ^ config.maxOrder := by
    rw [hleaves, hempty, hlength, config.places_eq hle, Nat.zero_add, ← Nat.pow_add,
      Nat.sub_add_cancel hle]
  refine ⟨slices, full.answers more, hanswers, hslices, full.length_answers more, ?_⟩
  intro i size align hask hkept
  exact hfilled.refused_of_full hfull hask hkept

/-- A small arena with one place left serves a request, and two blocks fill an idle one. -/
theorem room_run_small :
    ∃ start after, (build Config.small Host.heap).run Host.fresh = .ok (.ok start) after ∧
      load (Occupied.run start [.allocate 16 16, .allocate 17 4]).live 0 <
        Config.small.places 0 ∧
      (∃ slice served, (allocate 9 4).run
        (Occupied.run start [.allocate 16 16, .allocate 17 4]).arena = .ok (.ok slice) served) ∧
      (Occupied.run start [.allocate 16 16, .deallocate start.span.addr 16 16]).arena.isIdle =
        .ok true ∧
      ∃ (slices : List Slice) (replies : List Answer),
        (Occupied.run start [.allocate 16 16, .deallocate start.span.addr 16 16]).arena.answers
          ([.allocate 17 4, .allocate 1 32] ++ [.allocate 1 1]) =
            slices.map .served ++ replies ∧
        slices.length = 2 ∧ replies.length = 1 ∧ replies[0]? = some .refused := by
  obtain ⟨start, after, h⟩ := exists_build_small
  have horder : Config.small.order? 9 4 = some 0 := by decide +kernel
  have hload : load (Occupied.run start [.allocate 16 16, .allocate 17 4]).live 0 <
      Config.small.places 0 := by
    cases h
    decide +kernel
  have hidle : (Occupied.run start
      [.allocate 16 16, .deallocate start.span.addr 16 16]).arena.isIdle = .ok true := by
    cases h
    decide +kernel
  have hall : ∀ use ∈ [Use.allocate 17 4, .allocate 1 32], use.Asks Config.small 1 := by
    simp only [List.forall_mem_cons, Use.Asks]
    exact ⟨by decide +kernel, by decide +kernel, nofun⟩
  obtain ⟨slices, replies, hanswers, hslices, hreplies, hrefused⟩ :=
    (room_run h _).2 hidle 1 (by decide) _ hall (by decide +kernel) [.allocate 1 1]
  exact ⟨start, after, h, hload, (room_run h _).1 9 4 0 horder hload, hidle, slices, replies,
    hanswers, hslices, hreplies, hrefused 0 1 1 rfl (by simp)⟩

end BuddySystem
