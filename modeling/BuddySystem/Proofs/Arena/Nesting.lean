import BuddySystem.Proofs.Arena.Lifetime
import BuddySystem.Proofs.Arena.Placement

/-!
# Arenas in arenas

An arena can be set up in a region that it obtained from another arena, and so on: such arenas form
a tower. `composed_of_stands` says what is true of every tower, however its arenas were used in
between: the region of each arena is one live block of the arena below it, and of every arena
further below it is a part of one. What an arena hands out is in that block, so it meets nothing
else that is live in the arenas below, and no bookkeeping. An arena that is given up takes back this
block and nothing else.

To the arena below, an arena of the tower is a user like any other: setting it up is an allocation,
and giving it up is a deallocation. So each arena of a tower is in a state that it reaches by being
used (`Storey.Reached`), and what is known of a single arena is true of it. The invariant of a tower
adds to this that each region is a live block (`Firm`). It is kept because only the deallocation
that takes the block back ends that it is live (`LodgedAt.step_outer`), and because no use moves a
region (`Storey.Reached.unmoved`).
-/

namespace BuddySystem

open Occupancy Arena

/-- An arena of a tower, with its live blocks. -/
structure Storey where
  config : Config
  occupied : Occupied config

namespace Storey

/-- Where the region of the arena starts. -/
def base (storey : Storey) : Nat :=
  storey.occupied.arena.span.addr

/-- The layout of the region that was obtained for the arena. -/
def layout (storey : Storey) : Layout :=
  storey.occupied.arena.region

/-- The addresses of the region. -/
def territory (storey : Storey) : Set Nat :=
  Set.Ico storey.base (storey.base + storey.layout.size)

/-- The addresses of the bookkeeping. -/
def bookkeeping (storey : Storey) : Set Nat :=
  { addr | ∃ region, storey.config.region? = some region ∧ addr ∈ region.bookkeeping storey.base }

/-- The storey after a use of its arena. -/
def step (storey : Storey) (use : Use) : Storey :=
  ⟨storey.config, storey.occupied.step use⟩

/-- Whether a use of the outer arena takes the region of the inner one back. -/
def Evicts (outer inner : Storey) (use : Use) : Prop :=
  ∃ size align after, use = .deallocate inner.base size align ∧
    (deallocate inner.base size align).run outer.occupied.arena = .ok (.ok ()) after

end Storey

/-- Towers of arenas, the innermost first. The last one was set up over any provider, and each of
the others over the next one, behind the general allocator interface. Between this and giving up the
innermost one, each arena can be used, but the region of another one must not be taken back. -/
inductive Stands : List Storey → Prop where
  | ground {config : Config} {σ : Type} {provider : Provider σ} {before after : σ}
      {arena : Arena config} :
      (build config provider).run before = .ok (.ok arena) after → Stands [⟨config, arena, ∅⟩]
  | use {above below : List Storey} {storey : Storey} (use : Use) :
      Stands (above ++ storey :: below) →
      (∀ inner, above.getLast? = some inner → ¬storey.Evicts inner use) →
      Stands (above ++ storey.step use :: below)
  | build {outer : Storey} {below : List Storey} {config : Config} {arena : Arena config}
      {log : List Event} {after : Logged (Arena outer.config)} :
      Stands (outer :: below) →
      (build config general.toProvider).run ⟨outer.occupied.arena, log⟩ = .ok (.ok arena) after →
      Stands (⟨config, arena, ∅⟩ :: ⟨outer.config, after.state,
        outer.occupied.served arena.region.size arena.region.align
          ⟨arena.span.addr, arena.region.size⟩⟩ :: below)
  | drop {inner outer : Storey} {below : List Storey} {log : List Event}
      {after : Logged (Arena outer.config)} :
      Stands (inner :: outer :: below) →
      (inner.occupied.arena.release general.toProvider).run ⟨outer.occupied.arena, log⟩ =
        .ok () after →
      Stands (⟨outer.config, after.state, outer.occupied.released inner.base⟩ :: below)

/-! ## Storeys in one another -/

/-- Addresses that a storey may hand out if its region lies in a block of another one: no other live
block has them, nor the bookkeeping. -/
structure Enclosed (inner outer : Storey) (block : Node) (range : Set Nat) : Prop where
  within : range ⊆ outer.occupied.addresses block
  apart : ∀ other ∈ outer.occupied.live, other ≠ block →
    Disjoint range (outer.occupied.addresses other)
  bookkeeping : Disjoint range inner.bookkeeping

/-- The region of a storey lies in a live block of another storey, and with it everything that the
inner storey hands out. -/
structure Nested (inner outer : Storey) (block : Node) : Prop where
  live : block ∈ outer.occupied.live
  /-- The region is the one of the configuration, so there is bookkeeping in it. -/
  region : ∃ region, inner.config.region? = some region ∧ inner.layout = region.full
  territory : inner.territory ⊆ outer.occupied.addresses block
  bookkeeping : inner.bookkeeping ⊆ outer.occupied.addresses block
  held : ∀ own ∈ inner.occupied.live,
    Enclosed inner outer block (inner.occupied.addresses own)
  served : ∀ size align slice after,
    (allocate size align).run inner.occupied.arena = .ok (.ok slice) after →
    Enclosed inner outer block (inner.occupied.extent size align slice)

/-- The region of a storey is a live block of another storey. The block is the one that starts with
the region and has the order of its layout. -/
structure LodgedAt (inner outer : Storey) (block : Node) : Prop where
  live : block ∈ outer.occupied.live
  base : outer.occupied.addrOf block = inner.base
  order : outer.config.order? inner.layout.size inner.layout.align = some block.order

/-- A storey lies in a block of the storey below it until it is given up. -/
structure Lodges (inner outer : Storey) (block : Node) : Prop where
  lodged : LodgedAt inner outer block
  nested : Nested inner outer block
  /-- Nothing that is done with the inner storey reaches the outer one. -/
  unreached : ∀ (source : Recorded (Logged (Arena outer.config))) (log : List Event) (deed : Deed),
    (Tenancy.act ⟨source, ⟨inner.occupied.arena, log⟩⟩ deed).source = source
  /-- It is the same block after every use of one of the two. -/
  keptByInner : ∀ use, LodgedAt (inner.step use) outer block
  keptByOuter : ∀ use, ¬outer.Evicts inner use → LodgedAt inner (outer.step use) block
  /-- Whatever is live in the inner storey, giving it up is not broken off. It takes this block of
  the outer storey back and no other one, and adds its length to the free bytes. -/
  dropped : ∀ log, ∃ events after free,
    inner.occupied.arena.releaseEvents = .ok events ∧
    (inner.occupied.arena.release general.toProvider).run ⟨outer.occupied.arena, log⟩ =
      .ok () ⟨after, log⟩ ∧
    outer.occupied.step (.deallocate inner.base inner.layout.size inner.layout.align) =
      ⟨after, outer.occupied.live.erase block⟩ ∧
    outer.occupied.arena.freeBytes = .ok free ∧
    after.freeBytes = .ok (free + outer.config.blockSize * 2 ^ block.order)

namespace Storey

/-- A storey whose arena was set up and used. -/
def Reached (storey : Storey) : Prop :=
  ∃ (σ : Type) (provider : Provider σ) (before after : σ) (start : Arena storey.config)
    (uses : List Use), (Arena.build storey.config provider).run before = .ok (.ok start) after ∧
      storey.occupied = Occupied.run start uses

variable {inner outer storey : Storey}

/-- A storey keeps a ledger, and its region is the one of its configuration. -/
theorem Reached.exists_keeps (h : storey.Reached) :
    ∃ start region, storey.occupied.arena.Keeps start storey.occupied.ledger ∧
      storey.config.region? = some region ∧ storey.layout = region.full := by
  obtain ⟨σ, provider, before, after, start, uses, hbuild, hrun⟩ := h
  have hkeeps := keeps_run hbuild uses
  rw [← hrun] at hkeeps
  obtain ⟨-, region, hregion, span, hextent, hfresh⟩ := build_eq_ok hbuild
  refine ⟨start, region, hkeeps, hregion, ?_⟩
  rw [layout, hkeeps.shows_ledger.region, (fresh_keeps hextent hfresh).2]

/-- A storey stays one that is reached when it is used. -/
theorem Reached.step (h : storey.Reached) (use : Use) : (storey.step use).Reached := by
  obtain ⟨σ, provider, before, after, start, uses, hbuild, hrun⟩ := h
  refine ⟨σ, provider, before, after, start, uses ++ [use], hbuild, ?_⟩
  show storey.occupied.step use = (uses ++ [use]).foldl Occupied.step ⟨start, ∅⟩
  rw [List.foldl_concat, hrun]
  rfl

/-- A use does not move the region. -/
theorem Reached.unmoved (h : storey.Reached) (use : Use) :
    (storey.step use).base = storey.base ∧ (storey.step use).layout = storey.layout := by
  obtain ⟨start, -, hkeeps, -⟩ := h.exists_keeps
  have hafter := (hkeeps.step use).shows_ledger
  constructor
  · show (storey.occupied.step use).arena.span.addr = storey.occupied.arena.span.addr
    rw [hafter.span, hkeeps.shows_ledger.span]
  · show (storey.occupied.step use).arena.region = storey.occupied.arena.region
    rw [hafter.region, hkeeps.shows_ledger.region]

theorem Reached.addrOf_step (h : storey.Reached) (use : Use) (node : Node) :
    (storey.step use).occupied.addrOf node = storey.occupied.addrOf node :=
  congrArg (· + node.leaf * storey.config.blockSize) (h.unmoved use).1

/-! ## Where things are in a region -/

theorem Reached.memory_subset (h : storey.Reached) :
    storey.occupied.memory ⊆ storey.territory := by
  obtain ⟨start, region, -, hregion, hlayout⟩ := h.exists_keeps
  have hlt := (Config.valid_of_region? hregion).capacity_lt
  rw [← hlayout] at hlt
  exact Set.Ico_subset_Ico_right (Nat.add_le_add_left (Nat.le_of_lt hlt) _)

/-- A live block of a storey is a part of its memory. -/
theorem Reached.addresses_subset (h : storey.Reached) {own : Node}
    (hmem : own ∈ storey.occupied.live) :
    storey.occupied.addresses own ⊆ storey.occupied.memory := by
  obtain ⟨start, -, hkeeps, -⟩ := h.exists_keeps
  exact storey.config.addresses_subset (hkeeps.placed.inTree own hmem)

/-- What a storey hands out is a part of its memory. -/
theorem Reached.extent_subset (h : storey.Reached) {size align : Nat} {slice : Slice}
    {after : Arena storey.config}
    (hrun : (allocate size align).run storey.occupied.arena = .ok (.ok slice) after) :
    storey.occupied.extent size align slice ⊆ storey.occupied.memory := by
  obtain ⟨start, -, hkeeps, -⟩ := h.exists_keeps
  obtain ⟨node, hnode, -, -, -, hextent, -⟩ := Occupied.exists_served hkeeps hrun
  rw [hextent]
  exact storey.config.addresses_subset hnode

theorem Reached.stop_lt (h : storey.Reached) :
    storey.base + storey.config.capacity < Word.bound := by
  obtain ⟨start, -, hkeeps, -⟩ := h.exists_keeps
  rw [base, hkeeps.shows_ledger.span, ← hkeeps.shows_ledger.extent]
  exact start.span.stop_lt

/-- A storey keeps its bookkeeping outside of its memory. -/
theorem Reached.disjoint_bookkeeping (h : storey.Reached) :
    Disjoint storey.occupied.memory storey.bookkeeping := by
  rw [Set.disjoint_left]
  intro addr hmemory hbookkeeping
  obtain ⟨region, hregion, haddr⟩ := hbookkeeping
  exact Set.disjoint_left.1 (storey.config.disjoint_bookkeeping hregion h.stop_lt) hmemory haddr

/-- The bookkeeping is in the region, unless the region wraps around. -/
theorem Reached.bookkeeping_subset (h : storey.Reached)
    (hstop : storey.base + storey.layout.size ≤ Word.bound) :
    storey.bookkeeping ⊆ storey.territory := by
  obtain ⟨start, region, -, hregion, hlayout⟩ := h.exists_keeps
  intro addr hbookkeeping
  obtain ⟨other, hother, offset, -, hlt, rfl⟩ := hbookkeeping
  cases hregion.symm.trans hother
  rw [← hlayout] at hlt
  rw [Nat.mod_eq_of_lt (by omega)]
  exact ⟨Nat.le_add_right _ _, Nat.add_lt_add_left hlt _⟩

end Storey

variable {inner outer middle : Storey} {block : Node}

/-- What lies in the memory of a storey whose region lies in a live block is safe there. -/
theorem enclosed_of_subset (hinner : inner.Reached) (houter : outer.Reached)
    (hlive : block ∈ outer.occupied.live)
    (hterritory : inner.territory ⊆ outer.occupied.addresses block) {range : Set Nat}
    (hrange : range ⊆ inner.occupied.memory) : Enclosed inner outer block range := by
  obtain ⟨start, -, hkeeps, -⟩ := houter.exists_keeps
  have hwithin := (hrange.trans hinner.memory_subset).trans hterritory
  refine ⟨hwithin, fun other hother hne => ?_, hinner.disjoint_bookkeeping.mono_left hrange⟩
  refine Disjoint.mono_left hwithin ?_
  rw [Occupied.addresses, Occupied.addresses, Config.disjoint_addresses]
  exact fun hover => hne (hkeeps.placed.apart block hlive other hother hover).symm

/-- A region that lies in a live block of another storey does not wrap around. -/
theorem stop_le_of_subset (hinner : inner.Reached) (houter : outer.Reached)
    (hlive : block ∈ outer.occupied.live)
    (hterritory : inner.territory ⊆ outer.occupied.addresses block) :
    inner.base + inner.layout.size ≤ Word.bound := by
  obtain ⟨start, region, -, hregion, hlayout⟩ := hinner.exists_keeps
  have hpos := (Config.valid_of_region? hregion).capacity_lt
  rw [← hlayout] at hpos
  -- The last address of the region is one of the outer arena.
  have hlast : inner.base + (inner.layout.size - 1) ∈ inner.territory :=
    ⟨Nat.le_add_right _ _, by omega⟩
  have hmemory := houter.addresses_subset hlive (hterritory hlast)
  have hlt := Nat.lt_trans hmemory.2 houter.stop_lt
  omega

/-- A storey whose region lies in a live block of another one lies in it with everything else. -/
theorem nested_of_subset (hinner : inner.Reached) (houter : outer.Reached)
    (hlive : block ∈ outer.occupied.live)
    (hterritory : inner.territory ⊆ outer.occupied.addresses block) :
    Nested inner outer block where
  live := hlive
  region := by
    obtain ⟨-, region, -, hregion⟩ := hinner.exists_keeps
    exact ⟨region, hregion⟩
  territory := hterritory
  bookkeeping := (hinner.bookkeeping_subset
    (stop_le_of_subset hinner houter hlive hterritory)).trans hterritory
  held _ hown := enclosed_of_subset hinner houter hlive hterritory (hinner.addresses_subset hown)
  served _ _ _ _ hrun :=
    enclosed_of_subset hinner houter hlive hterritory (hinner.extent_subset hrun)

/-- A storey in a storey in a third one is in the third one. -/
theorem Nested.trans {own : Node} (h : Nested inner middle own)
    (hmiddle : Nested middle outer block) (hinner : inner.Reached) (hreached : middle.Reached)
    (houter : outer.Reached) : Nested inner outer block := by
  refine nested_of_subset hinner houter hmiddle.live ?_
  calc inner.territory ⊆ middle.occupied.addresses own := h.territory
    _ ⊆ middle.occupied.memory := hreached.addresses_subset h.live
    _ ⊆ middle.territory := hreached.memory_subset
    _ ⊆ outer.occupied.addresses block := hmiddle.territory

/-! ## One storey in the next -/

namespace LodgedAt

/-- The region is a part of the block that serves it. -/
theorem territory_subset (h : LodgedAt inner outer block) :
    inner.territory ⊆ outer.occupied.addresses block := by
  rw [Occupied.addresses, Config.addresses_eq, Storey.territory, ← h.base]
  exact Set.Ico_subset_Ico_right
    (Nat.add_le_add_left (outer.config.size_le_of_order? h.order) _)

/-- A use of the inner storey leaves its region where it is. -/
theorem step_inner (h : LodgedAt inner outer block) (hinner : inner.Reached) (use : Use) :
    LodgedAt (inner.step use) outer block := by
  obtain ⟨hbase, hlayout⟩ := hinner.unmoved use
  exact ⟨h.live, h.base.trans hbase.symm, hlayout ▸ h.order⟩

/-- Only the use that takes the block back ends that it is live. -/
theorem step_outer (h : LodgedAt inner outer block) (houter : outer.Reached) {use : Use}
    (hkept : ¬outer.Evicts inner use) : LodgedAt inner (outer.step use) block := by
  obtain ⟨start, -, hkeeps, -⟩ := houter.exists_keeps
  refine ⟨?_, (houter.addrOf_step use block).trans h.base, h.order⟩
  cases use with
  | allocate size align =>
      show block ∈ (outer.occupied.step (.allocate size align)).live
      rcases hkeeps.allocate_cases size align with
        ⟨refusal, hrun, -⟩ | ⟨target, leaf, rest, after, horder, -, hrun, -⟩
      · rw [Occupied.step_refused hrun]
        exact h.live
      · rw [Occupied.step_served hrun, hkeeps.served_eq horder]
        exact Finset.mem_insert_of_mem h.live
  | deallocate addr size align =>
      show block ∈ (outer.occupied.step (.deallocate addr size align)).live
      rcases hkeeps.deallocate_cases addr size align with
        ⟨reason, -, hrun⟩ | ⟨freed, after, -, hrun, -⟩
      · rw [Occupied.step_rejected hrun]
        exact h.live
      · rw [Occupied.step_released hrun]
        refine Finset.mem_filter.2 ⟨h.live, fun haddr => hkept ?_⟩
        rw [h.base] at haddr
        subst haddr
        exact ⟨size, align, after, rfl, hrun⟩

/-- Giving the inner storey up takes back its block. -/
theorem dropped (h : LodgedAt inner outer block) (hinner : inner.Reached) (houter : outer.Reached)
    (log : List Event) :
    ∃ events after free,
      inner.occupied.arena.releaseEvents = .ok events ∧
      (inner.occupied.arena.release general.toProvider).run ⟨outer.occupied.arena, log⟩ =
        .ok () ⟨after, log⟩ ∧
      outer.occupied.step (.deallocate inner.base inner.layout.size inner.layout.align) =
        ⟨after, outer.occupied.live.erase block⟩ ∧
      outer.occupied.arena.freeBytes = .ok free ∧
      after.freeBytes = .ok (free + outer.config.blockSize * 2 ^ block.order) := by
  obtain ⟨origin, -, hkeepsInner, -⟩ := hinner.exists_keeps
  obtain ⟨start, -, hkeeps, -⟩ := houter.exists_keeps
  obtain ⟨after, hrun, hafter⟩ := hkeeps.run_deallocate_of_mem h.live h.order
  have haddr : start.span.addr + block.leaf * outer.config.blockSize = inner.base := by
    rw [← h.base, Occupied.addrOf, hkeeps.shows_ledger.span]
  have hreleased := hkeeps.released_eq h.live
  rw [haddr] at hrun hreleased
  have hrelease := run_provider_deallocate ⟨outer.occupied.arena, log⟩ inner.base
    inner.layout.size inner.layout.align .contract
  rw [hrun] at hrelease
  refine ⟨_, after, _, hkeepsInner.releaseEvents_eq, hrelease, ?_, hkeeps.freeBytes_eq,
    hkeeps.freeBytes_deallocate h.live hafter⟩
  rw [Occupied.step_released hrun, hreleased]

end LodgedAt

namespace Storey

/-- Setting an arena up over a storey is a use of the storey, and the arena lies in the block that
it makes live. -/
theorem Reached.lodge {outer : Storey} (h : outer.Reached) {config : Config} {arena : Arena config}
    {log : List Event} {after : Logged (Arena outer.config)}
    (hbuild : (Arena.build config general.toProvider).run ⟨outer.occupied.arena, log⟩ =
      .ok (.ok arena) after) :
    (⟨outer.config, after.state, outer.occupied.served arena.region.size arena.region.align
        ⟨arena.span.addr, arena.region.size⟩⟩ : Storey) =
      outer.step (.allocate arena.region.size arena.region.align) ∧
    ∃ block, LodgedAt ⟨config, arena, ∅⟩
      (outer.step (.allocate arena.region.size arena.region.align)) block := by
  obtain ⟨start, -, hkeeps, -⟩ := h.exists_keeps
  obtain ⟨-, region, granted, span, -, hgranted, hspan, hfresh⟩ := granted_of_build hbuild
  obtain ⟨haddr, hextent⟩ := of?_eq_some hspan
  rw [← (fresh_keeps hextent hfresh).2] at hgranted
  have hrun := run_allocate_of_provider hgranted
  obtain ⟨node, -, -, horder, hslice, -, hserved⟩ := Occupied.exists_served hkeeps hrun
  have hplace : arena.span.addr = outer.occupied.addrOf node := by
    rw [span_of_fresh hfresh, haddr, hslice]
  have hstep := Occupied.step_served hrun
  rw [hslice, ← hplace] at hstep hserved
  refine ⟨congrArg (Storey.mk outer.config) hstep.symm, node, ?_, ?_, horder⟩
  · show node ∈ (outer.occupied.step _).live
    rw [hstep, hserved]
    exact Finset.mem_insert_self _ _
  · exact (h.addrOf_step _ node).trans hplace.symm

/-- A storey with nothing live serves every request that it has blocks for. -/
theorem Reached.exists_served {storey : Storey} (h : storey.Reached)
    (hidle : storey.occupied.live = ∅) {size align order : Nat}
    (horder : storey.config.order? size align = some order) :
    ∃ slice after, (allocate size align).run storey.occupied.arena = .ok (.ok slice) after := by
  obtain ⟨start, -, hkeeps, -⟩ := h.exists_keeps
  have hle := storey.config.le_maxOrder_of_order? horder
  have hfirst : (Node.mk 0 order).InTree storey.config.maxOrder := by
    refine ⟨hle, Nat.zero_mod _, ?_⟩
    rw [Node.stop, Nat.zero_add]
    exact Nat.pow_le_pow_right Nat.two_pos hle
  have huntouched : ¬Touched storey.occupied.live ⟨0, order⟩ := by
    rw [hidle]
    exact not_touched_empty
  obtain ⟨leaf, rest, after, -, hrun⟩ :=
    hkeeps.run_allocate_of_not_touched hfirst huntouched horder
  exact ⟨_, after, hrun⟩

/-- Over a storey with nothing live that suits its capacity, every arena can be set up for whose
region the storey has blocks, and then it suits its own capacity. -/
theorem Reached.exists_build {outer : Storey} (h : outer.Reached)
    (hidle : outer.occupied.live = ∅) (hbase : outer.config.capacity ∣ outer.base)
    {config : Config} {region : Config.Region} {order : Nat}
    (hleaves : config.blockCount < LinkWord.maxLeaves) (hregion : config.region? = some region)
    (horder : outer.config.order? region.full.size region.full.align = some order)
    (log : List Event) :
    ∃ (arena : Arena config) (after : Logged (Arena outer.config)),
      (Arena.build config general.toProvider).run ⟨outer.occupied.arena, log⟩ =
        .ok (.ok arena) after ∧ config.capacity ∣ arena.span.addr := by
  obtain ⟨start, -, hkeeps, -⟩ := h.exists_keeps
  obtain ⟨slice, next, hrun⟩ := h.exists_served hidle horder
  have hgranted := run_provider_allocate ⟨outer.occupied.arena, log⟩ region.full.size
    region.full.align .contract
  rw [hrun] at hgranted
  have hsafe := Occupied.safe_of_keeps hkeeps (hkeeps.shows_ledger.span ▸ hbase) hrun
  -- The region ends in the outer arena, so it does not wrap around.
  have hvalid := Config.valid_of_region? hregion
  have hlast : slice.addr + (region.full.size - 1) ∈ outer.occupied.memory := by
    refine hsafe.within ⟨Nat.le_add_right _ _, Nat.add_lt_add_left ?_ _⟩
    have hroom : region.full.size ≤ outer.config.servingLen region.full.size region.full.align :=
      (outer.config.order?_eq_some_iff.1 horder).2 ▸ outer.config.size_le_of_order? horder
    have hlinks := hvalid.links_lt
    omega
  have hstop : slice.addr + region.full.size < Word.bound := by
    have hlt := Nat.lt_of_le_of_lt hlast.2 h.stop_lt
    omega
  obtain ⟨arena, hbuild, haddr⟩ : ∃ arena : Arena config,
      (Arena.build config general.toProvider).run ⟨outer.occupied.arena, log⟩ =
        .ok (.ok arena) ⟨next, log⟩ ∧ arena.span.addr = slice.addr :=
    Arena.exists_build hleaves hregion hgranted (Nat.le_of_lt hstop) hsafe.align_dvd
  refine ⟨arena, ⟨next, log⟩, hbuild, ?_⟩
  rw [haddr]
  exact Nat.dvd_trans (Config.capacity_dvd_align hregion) hsafe.align_dvd

/-- Giving a storey up is a use of the storey below it. -/
theorem step_of_release {inner outer : Storey} {log : List Event}
    {after : Logged (Arena outer.config)}
    (hrelease : (inner.occupied.arena.release general.toProvider).run ⟨outer.occupied.arena, log⟩ =
      .ok () after) :
    (⟨outer.config, after.state, outer.occupied.released inner.base⟩ : Storey) =
      outer.step (.deallocate inner.base inner.layout.size inner.layout.align) :=
  congrArg (Storey.mk outer.config)
    (Occupied.step_released (run_deallocate_of_provider hrelease)).symm

end Storey

/-! ## Towers -/

/-- Every storey of a tower lies in a live block of the next one. -/
structure Firm (tower : List Storey) : Prop where
  reached : ∀ storey ∈ tower, storey.Reached
  lodged : tower.IsChain fun inner outer => ∃ block, LodgedAt inner outer block

/-- A use of one storey leaves all of them lodged, unless it takes back the region above it. -/
theorem Firm.step {above below : List Storey} {storey : Storey}
    (h : Firm (above ++ storey :: below)) (use : Use)
    (habove : ∀ inner, above.getLast? = some inner → ¬storey.Evicts inner use) :
    Firm (above ++ storey.step use :: below) := by
  have hstorey := h.reached storey (by simp)
  obtain ⟨hupper, hlower, hbetween⟩ := List.isChain_append.1 h.lodged
  constructor
  · intro other hother
    rcases List.mem_append.1 hother with hmem | hmem
    · exact h.reached other (List.mem_append_left _ hmem)
    · rcases List.mem_cons.1 hmem with rfl | hmem
      · exact hstorey.step use
      · exact h.reached other (List.mem_append_right _ (List.mem_cons_of_mem _ hmem))
  · refine List.isChain_append.2 ⟨hupper, hlower.imp_head ?_, ?_⟩
    · intro outer hlodged
      obtain ⟨block, hblock⟩ := hlodged
      exact ⟨block, hblock.step_inner hstorey use⟩
    · intro inner hinner outer houter
      obtain rfl : storey.step use = outer := Option.some.inj houter
      obtain ⟨block, hblock⟩ := hbetween inner hinner storey rfl
      exact ⟨block, hblock.step_outer hstorey (habove inner hinner)⟩

/-- Setting up and giving up a storey are uses of the one below it, and leave the others alone. -/
theorem firm_of_stands {tower : List Storey} (h : Stands tower) : Firm tower := by
  induction h with
  | @ground config σ provider before after arena hbuild =>
      refine ⟨fun storey hmem => ?_, List.isChain_singleton _⟩
      obtain rfl := List.mem_singleton.1 hmem
      exact ⟨σ, provider, before, after, arena, [], hbuild, rfl⟩
  | use use _ hkept ih => exact ih.step use hkept
  | @build outer below config arena log after _ hbuild ih =>
      have houter := ih.reached outer List.mem_cons_self
      obtain ⟨hstep, hlodged⟩ := houter.lodge hbuild
      have hnext : Firm (outer.step _ :: below) :=
        @Firm.step [] below outer ih (.allocate arena.region.size arena.region.align) nofun
      rw [hstep]
      refine ⟨fun storey hmem => ?_, List.isChain_cons_cons.2 ⟨hlodged, hnext.lodged⟩⟩
      rcases List.mem_cons.1 hmem with rfl | hmem
      · exact ⟨_, general.toProvider, _, after, arena, [], hbuild, rfl⟩
      · exact hnext.reached storey hmem
  | @drop inner outer below log after _ hrelease ih =>
      have hrest : Firm (outer :: below) :=
        ⟨fun storey hmem => ih.reached storey (List.mem_cons_of_mem _ hmem), ih.lodged.tail⟩
      rw [Storey.step_of_release hrelease]
      exact @Firm.step [] below outer hrest _ nofun

/-- A storey whose region is a live block of another one lies there until it is given up. -/
theorem lodges_of_lodgedAt (h : LodgedAt inner outer block) (hinner : inner.Reached)
    (houter : outer.Reached) : Lodges inner outer block where
  lodged := h
  nested := nested_of_subset hinner houter h.live h.territory_subset
  unreached source log deed := Tenancy.source_act ⟨source, ⟨inner.occupied.arena, log⟩⟩ deed
  keptByInner use := h.step_inner hinner use
  keptByOuter _ hkept := h.step_outer houter hkept
  dropped log := h.dropped hinner houter log

/-- Whether two storeys are reached and the first one lies in a block of the second one. -/
def Within (inner outer : Storey) : Prop :=
  inner.Reached ∧ outer.Reached ∧ ∃ block, Nested inner outer block

instance : IsTrans Storey Within where
  trans _ _ _ hinner houter := by
    obtain ⟨hreached, hmiddle, own, hown⟩ := hinner
    obtain ⟨-, hbelow, block, hblock⟩ := houter
    exact ⟨hreached, hbelow, block, hown.trans hblock hreached hmiddle hbelow⟩

/-- What is true of the storeys of a tower. -/
structure Composed (tower : List Storey) : Prop where
  /-- Each storey is in a state that its arena reaches by being used. -/
  reached : ∀ storey ∈ tower, storey.Reached
  /-- Each storey lies in a block of the one below it. -/
  lodged : tower.IsChain fun inner outer => ∃ block, Lodges inner outer block
  /-- So it does in a block of every storey further below. -/
  nested : tower.Pairwise fun inner outer => ∃ block, Nested inner outer block

/-- In every tower, each arena lies in one live block of the arena below it until it is given up,
and in one of every arena further below it, whatever is done with the arenas of the tower. -/
theorem composed_of_stands {tower : List Storey} (h : Stands tower) : Composed tower := by
  have hfirm := firm_of_stands h
  have hlodges : tower.IsChain fun inner outer => ∃ block, Lodges inner outer block := by
    refine hfirm.lodged.imp_of_mem_imp fun inner outer hinner houter hlodged => ?_
    obtain ⟨block, hblock⟩ := hlodged
    exact ⟨block, lodges_of_lodgedAt hblock (hfirm.reached inner hinner)
      (hfirm.reached outer houter)⟩
  refine ⟨hfirm.reached, hlodges, ?_⟩
  -- A storey lies in one further below because it lies in all those in between.
  have hchain : tower.IsChain Within := by
    refine hlodges.imp_of_mem_imp fun inner outer hinner houter hlodged => ?_
    obtain ⟨block, hblock⟩ := hlodged
    exact ⟨hfirm.reached inner hinner, hfirm.reached outer houter, block, hblock.nested⟩
  exact hchain.pairwise.imp fun hwithin => hwithin.2.2

/-- Three arenas lie in one another, and the innermost one was used. -/
theorem composed_of_stands_three :
    ∃ inner middle outer : Storey, Stands [inner.step (.allocate 1 1), middle, outer] ∧
      Composed [inner.step (.allocate 1 1), middle, outer] := by
  -- Four leaves of 16 bytes lie in a leaf of 128 bytes, and two leaves of a byte in two of these.
  have hpair : Config.region? ⟨7, 1, by decide, by decide⟩ = some ⟨⟨280, 256⟩, 256, 264⟩ := by
    decide
  have hsmall : Config.small.region? = some ⟨⟨104, 64⟩, 64, 72⟩ := by decide
  have htiny : Config.region? ⟨0, 1, by decide, by decide⟩ = some ⟨⟨32, 8⟩, 8, 16⟩ := by decide
  obtain ⟨outer, houter, haddr⟩ := exists_build (by decide) hpair
    (rfl : (Host.sparse.allocate 280 256).run Host.fresh = _) (by decide) (by decide)
  have hbase : 2 ^ (7 + 1) ∣ outer.span.addr := by
    rw [haddr]
    decide
  have hground : (Storey.mk _ ⟨outer, ∅⟩).Reached := ⟨_, _, _, _, outer, [], houter, rfl⟩
  obtain ⟨middle, lender, hmiddle, hdvd⟩ : ∃ (middle : Arena Config.small)
      (lender : Logged (Arena _)), (build Config.small general.toProvider).run ⟨outer, []⟩ =
        .ok (.ok middle) lender ∧ Config.small.capacity ∣ middle.span.addr :=
    hground.exists_build rfl hbase (by decide) hsmall
      (show Config.order? ⟨7, 1, by decide, by decide⟩ 104 64 = some 0 by decide) []
  have hlodged : (Storey.mk _ ⟨middle, ∅⟩).Reached := ⟨_, _, _, _, middle, [], hmiddle, rfl⟩
  obtain ⟨inner, after, hinner, -⟩ : ∃ (inner : Arena ⟨0, 1, by decide, by decide⟩)
      (after : Logged (Arena Config.small)),
      (build ⟨0, 1, by decide, by decide⟩ general.toProvider).run ⟨middle, []⟩ =
        .ok (.ok inner) after ∧ 2 ^ (0 + 1) ∣ inner.span.addr :=
    hlodged.exists_build rfl hdvd (by decide) htiny
      (show Config.small.order? 32 8 = some 1 by decide) []
  have hstands := Stands.build (.build (.ground houter) hmiddle) hinner
  have hused := @Stands.use [] _ _ (.allocate 1 1) hstands nofun
  exact ⟨_, _, _, hused, composed_of_stands hused⟩

end BuddySystem
