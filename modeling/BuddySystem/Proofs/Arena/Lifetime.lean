import BuddySystem.Proofs.Arena.Access
import BuddySystem.Proofs.Arena.Conservation
import BuddySystem.Proofs.Arena.Faultless
import BuddySystem.Proofs.Provider

/-!
# The life of an arena

An arena is set up, things are done with it, and it is given up. `orderly_life` says which calls the
provider of its region sees over this life, whatever the provider answers: the region is asked for
at most once, it is given back exactly if it was granted, and then as it was granted, and nothing is
asked in between.

An arena is used without its source, so no deed reaches it (`Tenancy.source_act`). That the region
goes back as it was granted comes from the invariant of the arena, which keeps the place and the
layout of its region along every deed (`Tenancy.keeps_act`), also along one that is broken off.
-/

namespace BuddySystem

open Arena

/-! ## Deeds -/

/-- Something that is done with an arena while it is there. -/
inductive Deed where
  /-- The arena is asked. It tells what it refuses and what it rejects. -/
  | ask (access : Access)
  /-- The arena is used behind the general allocator interface, where a rejected pointer breaks the
  use off. -/
  | general (use : Use)
  /-- Breaks off unless nothing is allocated. -/
  | requireIdle

variable {config : Config} {σ : Type}

/-- Does it. What is answered is left out. -/
def Deed.perform : Deed → Call (Logged (Arena config)) Unit
  | .ask (.allocate size align) => do
      let _ ← Call.ofStep (allocateLogged size align)
      return ()
  | .ask (.deallocate addr size align) => do
      let _ ← Call.ofStep (deallocateLogged addr size align)
      return ()
  | .ask access => do
      let _ ← Logged.inside.run (plain.perform access)
      return ()
  | .general (.allocate size align) => do
      let _ ← Arena.general.allocate size align
      return ()
  | .general (.deallocate addr size align) => Arena.general.deallocate addr size align
  | .requireIdle => do
      match (← get).state.requireIdle with
      | .ok () => return ()
      | .error abort => throw abort

/-- An arena with its events, and the source of its region with the calls that it has seen. -/
structure Tenancy (config : Config) (σ : Type) where
  source : Recorded σ
  arena : Logged (Arena config)

namespace Tenancy

/-- The source of the region. -/
def atSource : Focus (Tenancy config σ) (Recorded σ) :=
  ⟨Tenancy.source, fun source tenancy => { tenancy with source }⟩

/-- The arena with its events. -/
def atArena : Focus (Tenancy config σ) (Logged (Arena config)) :=
  ⟨Tenancy.arena, fun arena tenancy => { tenancy with arena }⟩

/-- Does something with the arena. If that is broken off, it goes on with the state that is left. -/
def act (tenancy : Tenancy config σ) (deed : Deed) : Tenancy config σ :=
  stateOf ((atArena.run deed.perform).run tenancy)

/-- Does one thing after the other. -/
def actAll (tenancy : Tenancy config σ) (deeds : List Deed) : Tenancy config σ :=
  deeds.foldl act tenancy

/-- Gives the arena up, whether or not blocks of it are still allocated. -/
def giveUp (provider : Provider σ) : Call (Tenancy config σ) Unit := do
  let arena := (← get).arena.state
  atArena.run (Logged.note (← Call.ofChecked arena.releaseEvents))
  atSource.run (arena.release provider.recorded)

end Tenancy

/-! ## What deeds leave alone -/

namespace Arena

variable {start arena : Arena config} {ledger : Ledger} {logged : Logged (Arena config)}

/-- An allocation leaves an arena that keeps a ledger. -/
theorem Keeps.stateOf_allocate (h : arena.Keeps start ledger) (size align : Nat) :
    ∃ rest, (stateOf ((allocate size align).run arena)).Keeps start rest := by
  rcases h.allocate_cases size align with ⟨refusal, hrun, -⟩ | ⟨_, _, rest, _, -, -, hrun, hafter⟩
  · rw [hrun]
    exact ⟨ledger, h⟩
  · rw [hrun]
    exact ⟨rest, hafter⟩

/-- A deallocation does, too. -/
theorem Keeps.stateOf_deallocate (h : arena.Keeps start ledger) (addr size align : Nat) :
    ∃ rest, (stateOf ((deallocate addr size align).run arena)).Keeps start rest := by
  rcases h.deallocate_cases addr size align with ⟨reason, -, hrun⟩ | ⟨block, _, -, hrun, hafter⟩
  · rw [hrun]
    exact ⟨ledger, h⟩
  · rw [hrun]
    exact ⟨_, hafter⟩

/-- So does everything that an arena is asked, also for an order that there is not. -/
theorem Keeps.stateOf_perform (h : arena.Keeps start ledger) (access : Access) :
    ∃ rest, (stateOf ((plain.perform access).run arena)).Keeps start rest := by
  by_cases hvalid : ∀ order, access = .freeBlocks order → order ≤ config.maxOrder
  · obtain ⟨reply, after, rest, -, hrun, -, hafter⟩ := h.perform access hvalid
    rw [hrun]
    exact ⟨rest, hafter⟩
  · push Not at hvalid
    obtain ⟨order, rfl, hlt⟩ := hvalid
    have hfreeBlocks : arena.freeBlocks order = .error .orderOutOfRange :=
      if_neg (Nat.not_le_of_lt hlt)
    refine ⟨ledger, ?_⟩
    simp only [Operations.perform, EStateM.run_bind, EStateM.run_get, hfreeBlocks]
    exact h

/-- Every deed leaves an arena that keeps a ledger, whether or not it is broken off. -/
theorem Keeps.stateOf_deed (h : logged.state.Keeps start ledger) (deed : Deed) :
    ∃ rest, (stateOf (deed.perform.run logged)).state.Keeps start rest := by
  -- What is asked for without telling is seen through the focus on the arena.
  have hinside : ∀ access, ∃ rest, (stateOf ((do
      let _ ← Logged.inside.run (plain.perform access)
      return () : Call (Logged (Arena config)) Unit).run logged)).state.Keeps start rest := by
    intro access
    rw [stateOf_discard, stateOf_focus]
    exact h.stateOf_perform access
  cases deed with
  | ask access =>
      cases access with
      | allocate size align =>
          rw [Deed.perform, stateOf_discard, stateOf_ofStep, stateOf_allocateLogged]
          exact h.stateOf_allocate size align
      | deallocate addr size align =>
          rw [Deed.perform, stateOf_discard, stateOf_ofStep, stateOf_deallocateLogged]
          exact h.stateOf_deallocate addr size align
      | owns addr => exact hinside (.owns addr)
      | freeBytes => exact hinside .freeBytes
      | isIdle => exact hinside .isIdle
      | freeBlocks order => exact hinside (.freeBlocks order)
  | general use =>
      cases use with
      | allocate size align =>
          rw [Deed.perform, stateOf_discard, Arena.general, stateOf_provider_allocate]
          exact h.stateOf_allocate size align
      | deallocate addr size align =>
          rw [Deed.perform, Arena.general, stateOf_provider_deallocate]
          exact h.stateOf_deallocate addr size align
  | requireIdle =>
      refine ⟨ledger, ?_⟩
      rw [Deed.perform, EStateM.run_bind, EStateM.run_get]
      dsimp only
      cases logged.state.requireIdle <;> exact h

end Arena

namespace Tenancy

variable {start : Arena config} {tenancy : Tenancy config σ} {provider : Provider σ}

/-- A deed does not reach the source of the region. -/
theorem source_act (tenancy : Tenancy config σ) (deed : Deed) :
    (tenancy.act deed).source = tenancy.source := by
  rw [act, stateOf_focus]
  rfl

theorem keeps_act (h : ∃ ledger, tenancy.arena.state.Keeps start ledger) (deed : Deed) :
    ∃ ledger, (tenancy.act deed).arena.state.Keeps start ledger := by
  obtain ⟨ledger, hkeeps⟩ := h
  rw [act, stateOf_focus]
  exact hkeeps.stateOf_deed deed

theorem source_actAll (tenancy : Tenancy config σ) (deeds : List Deed) :
    (tenancy.actAll deeds).source = tenancy.source := by
  induction deeds generalizing tenancy with
  | nil => rfl
  | cons deed deeds ih => exact (ih (tenancy.act deed)).trans (tenancy.source_act deed)

/-- No deeds end that the arena keeps a ledger. -/
theorem keeps_actAll (h : ∃ ledger, tenancy.arena.state.Keeps start ledger) (deeds : List Deed) :
    ∃ ledger, (tenancy.actAll deeds).arena.state.Keeps start ledger := by
  induction deeds generalizing tenancy with
  | nil => exact h
  | cons deed deeds ih => exact ih (keeps_act h deed)

/-- Giving an arena up comes to giving its region back, whatever is still allocated. -/
theorem run_giveUp (h : ∃ ledger, tenancy.arena.state.Keeps start ledger) :
    ∃ log, (giveUp provider).run tenancy =
      (atSource.run (provider.recorded.deallocate start.span.addr start.region.size
        start.region.align)).run ⟨tenancy.source, ⟨tenancy.arena.state, log⟩⟩ := by
  obtain ⟨ledger, hkeeps⟩ := h
  obtain ⟨events, hevents⟩ : ∃ events, tenancy.arena.state.releaseEvents = .ok events :=
    ⟨_, hkeeps.releaseEvents_eq⟩
  refine ⟨tenancy.arena.log ++ events, ?_⟩
  rw [← hkeeps.shows_ledger.span, ← hkeeps.shows_ledger.region]
  simp only [giveUp, EStateM.run_bind, EStateM.run_get, hevents, Call.run_ofChecked_ok]
  rfl

end Tenancy

/-! ## Whole lives -/

/-- What becomes of a region that was granted for an arena, when its source was left in the state
`source`: deeds do not reach the source, and then the region is given back as it was granted, with
the answer and in the state that this has for the provider. -/
structure Lent (provider : Provider σ) (granted : Slice) (layout : Layout) (source : Recorded σ)
    (arena : Arena config) : Prop where
  untouched : ∀ (log : List Event) (deeds : List Deed),
    (Tenancy.actAll ⟨source, ⟨arena, log⟩⟩ deeds).source = source
  outcome : ∀ (log : List Event) (deeds : List Deed),
    outcomeOf ((Tenancy.giveUp provider).run (Tenancy.actAll ⟨source, ⟨arena, log⟩⟩ deeds)) =
      outcomeOf ((provider.deallocate granted.addr layout.size layout.align).run source.inner)
  givenBack : ∀ (log : List Event) (deeds : List Deed),
    (stateOf ((Tenancy.giveUp provider).run
      (Tenancy.actAll ⟨source, ⟨arena, log⟩⟩ deeds))).source =
        ⟨stateOf ((provider.deallocate granted.addr layout.size layout.align).run source.inner),
          source.transfers ++ [.deallocate granted.addr layout.size layout.align]⟩

/-- What becomes of asking a provider for a region of this layout. -/
structure Asked (config : Config) (layout : Layout) (provider : Provider σ) (start : σ) : Prop where
  /-- A request that is refused is the only call. -/
  refused : ∀ after, (provider.allocate layout.size layout.align).run start = .ok none after →
    (build config provider.recorded).run ⟨start, []⟩ =
      .ok (.error (.allocFailed layout)) ⟨after, [.allocate layout.size layout.align none]⟩
  /-- A request that the provider breaks off is not answered, and no other call follows it. -/
  broken : ∀ abort after,
    (provider.allocate layout.size layout.align).run start = .error abort after →
    (build config provider.recorded).run ⟨start, []⟩ = .error abort ⟨after, []⟩
  /-- An arena whose end is no address is not set up, and its region is given back at once. -/
  returned : ∀ granted after,
    (provider.allocate layout.size layout.align).run start = .ok (some granted) after →
    Word.bound ≤ granted.addr + config.capacity →
    outcomeOf ((build config provider.recorded).run ⟨start, []⟩) =
      (outcomeOf ((provider.deallocate granted.addr layout.size layout.align).run after)).map
        (fun _ => .error .invalidConfig) ∧
    stateOf ((build config provider.recorded).run ⟨start, []⟩) =
      ⟨stateOf ((provider.deallocate granted.addr layout.size layout.align).run after),
        [.allocate layout.size layout.align (some granted),
          .deallocate granted.addr layout.size layout.align]⟩
  /-- In a region that does not wrap around and suits its alignment an arena is set up. -/
  lent : ∀ granted after,
    (provider.allocate layout.size layout.align).run start = .ok (some granted) after →
    granted.addr + layout.size ≤ Word.bound → layout.align ∣ granted.addr →
    ∃ arena : Arena config, (build config provider.recorded).run ⟨start, []⟩ =
      .ok (.ok arena) ⟨after, [.allocate layout.size layout.align (some granted)]⟩ ∧
      Lent provider granted layout
        ⟨after, [.allocate layout.size layout.align (some granted)]⟩ arena

/-- The calls that the source of the region of an arena sees over the life of the arena. -/
structure Orderly (config : Config) (provider : Provider σ) (start : σ) : Prop where
  /-- A configuration with too many leaves, or whose region has no layout, asks for nothing. -/
  rejected : LinkWord.maxLeaves ≤ config.blockCount ∨ config.region? = none →
    (build config provider.recorded).run ⟨start, []⟩ = .ok (.error .invalidConfig) ⟨start, []⟩
  asked : ∀ region, config.blockCount < LinkWord.maxLeaves → config.region? = some region →
    Asked config region.full provider start

/-- An arena that was set up in a region that was granted keeps to it. -/
theorem lent_of_fresh {provider : Provider σ} {granted : Slice} {region : Config.Region}
    {span : Span} {arena : Arena config} (hspan : Span.of? granted.addr config.capacity = some span)
    (hfresh : fresh span region = .ok arena) (source : Recorded σ) :
    Lent provider granted region.full source arena := by
  obtain ⟨haddr, hextent⟩ := of?_eq_some hspan
  obtain ⟨hkeeps, hregion⟩ := fresh_keeps hextent hfresh
  have hplace : arena.span.addr = granted.addr := by rw [span_of_fresh hfresh, haddr]
  -- After any deeds, giving the arena up is giving back its region.
  have hgiveUp : ∀ (log : List Event) (deeds : List Deed), ∃ last,
      (Tenancy.giveUp provider).run (Tenancy.actAll ⟨source, ⟨arena, log⟩⟩ deeds) =
        (Tenancy.atSource.run (provider.recorded.deallocate granted.addr region.full.size
          region.full.align)).run ⟨source, last⟩ := by
    intro log deeds
    have hafter : ∃ ledger,
        (Tenancy.actAll ⟨source, ⟨arena, log⟩⟩ deeds).arena.state.Keeps arena ledger :=
      Tenancy.keeps_actAll ⟨_, hkeeps⟩ deeds
    obtain ⟨last, hrun⟩ := Tenancy.run_giveUp hafter
    rw [Tenancy.source_actAll, hplace, hregion] at hrun
    exact ⟨_, hrun⟩
  refine ⟨fun log deeds => Tenancy.source_actAll _ deeds, fun log deeds => ?_,
    fun log deeds => ?_⟩
  · obtain ⟨last, hrun⟩ := hgiveUp log deeds
    rw [hrun, outcomeOf_focus]
    exact provider.outcomeOf_deallocate_recorded _ _ _ source
  · obtain ⟨last, hrun⟩ := hgiveUp log deeds
    rw [hrun, stateOf_focus]
    exact provider.stateOf_deallocate_recorded _ _ _ source

/-- What becomes of asking for a region, from what setting up an arena comes to. -/
theorem asked_of_region {region : Config.Region} (provider : Provider σ) (start : σ)
    (hleaves : config.blockCount < LinkWord.maxLeaves) (hregion : config.region? = some region) :
    Asked config region.full provider start := by
  have hbuild := @run_build _ _ provider.recorded _ ⟨start, []⟩ hleaves hregion
  rw [Provider.run_allocate_recorded] at hbuild
  constructor
  case refused =>
    intro after hasked
    rw [hbuild, hasked]
    rfl
  case broken =>
    intro abort after hasked
    rw [hbuild, hasked]
  case returned =>
    intro granted after hasked hwrap
    have hspan : Span.of? granted.addr config.capacity = none := dif_neg (Nat.not_lt_of_le hwrap)
    have houtcome := provider.outcomeOf_deallocate_recorded granted.addr region.full.size
      region.full.align ⟨after, [.allocate region.full.size region.full.align (some granted)]⟩
    have hstate := provider.stateOf_deallocate_recorded granted.addr region.full.size
      region.full.align ⟨after, [.allocate region.full.size region.full.align (some granted)]⟩
    simp only [hbuild, hasked, hspan, List.nil_append]
    rw [← houtcome]
    refine ⟨?_, Eq.trans ?_ hstate⟩
    · cases (provider.recorded.deallocate _ _ _).run _ <;> rfl
    · cases (provider.recorded.deallocate _ _ _).run _ <;> rfl
  case lent =>
    intro granted after hasked hstop haligned
    obtain ⟨span, arena, hspan, hfresh⟩ : ∃ (span : Span) (arena : Arena config),
        Span.of? granted.addr config.capacity = some span ∧ fresh span region = .ok arena :=
      exists_fresh hleaves hregion hstop haligned
    refine ⟨arena, ?_, lent_of_fresh hspan hfresh _⟩
    simp only [hbuild, hasked, hspan, hfresh]
    rfl

/-- Over the life of an arena, the source of its region sees a request for the region, unless the
arena cannot be set up anyway, and the return of the region, if it was granted. In between it sees
nothing, whatever is done with the arena. -/
theorem orderly_life (config : Config) (provider : Provider σ) (start : σ) :
    Orderly config provider start where
  rejected h := run_build_invalid provider.recorded ⟨start, []⟩ h
  asked _ hleaves hregion := asked_of_region provider start hleaves hregion

-- A block is leaked and two deeds are broken off.
example : ∃ (arena : Arena Config.small) (source : Recorded Host),
    (build Config.small Host.heap.recorded).run ⟨Host.fresh, []⟩ = .ok (.ok arena) source ∧
    (stateOf ((Tenancy.giveUp Host.heap).run (Tenancy.actAll ⟨source, ⟨arena, []⟩⟩
      [.ask (.allocate 16 16), .general (.deallocate 3 1 1), .requireIdle]))).source.transfers =
        [.allocate 104 64 (some ⟨arena.span.addr, 104⟩), .deallocate arena.span.addr 104 64] :=
  ⟨_, _, rfl, by decide +kernel⟩

end BuddySystem
