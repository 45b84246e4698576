import BuddySystem.Arena.Build
import BuddySystem.Host
import BuddySystem.Proofs.Arena.Bookkeeping
import BuddySystem.Proofs.Step

/-!
# Setting up

What setting up an arena comes to, for every provider of its region (`run_build`). An arena that has
just been set up keeps the idle ledger (`fresh_keeps`), and its memory is the front of the region
that was granted (`granted_of_build`).
-/

namespace BuddySystem.Arena

open FreeLists Occupancy Ledger

variable {config : Config} {σ : Type}

/-- An arena with nothing allocated keeps the idle ledger. -/
theorem fresh_keeps {span : Span} {region : Config.Region} {arena : Arena config}
    (hextent : span.extent = config.capacity) (h : fresh span region = .ok arena) :
    arena.Keeps arena (Ledger.idle config.maxOrder) ∧ arena.region = region.full := by
  simp only [fresh, Checked.bind_eq_ok] at h
  obtain ⟨-, -, nodes, hclear, -, -, lists, hcreate, h⟩ := h
  obtain ⟨map, hmap, hbits⟩ := Bitmap.clear_eq_ok config.nodeCount_pos
  obtain rfl : map = nodes := Except.ok.inj (hmap.symm.trans hclear)
  obtain ⟨_, hrequire, hempty⟩ := Checked.bind_eq_ok.1 hcreate
  obtain ⟨-, hle⟩ := Checked.require_eq_ok.1 hrequire
  obtain rfl : empty config.blockCount = lists := Except.ok.inj hempty
  obtain ⟨pushed, hpush, hpushed⟩ := FreeLists.run_push (holds_empty hle) config.maxOrder_lt
    config.blockCount_pos fun _ => List.not_mem_nil
  simp only [EStateM.run] at hpush
  simp only [hpush] at h
  cases h
  refine ⟨⟨⟨rfl, rfl, hextent, fun node _ => ?_, fun index _ => hbits index, hpushed⟩,
    balanced_idle _, ⟨?_, ?_⟩⟩, rfl⟩
  · simp [hbits, Ledger.idle, Used]
  · simp [Ledger.idle]
  · simp [Ledger.idle]

/-- An arena lies where it was set up. -/
theorem span_of_fresh {span : Span} {region : Config.Region} {arena : Arena config}
    (h : fresh span region = .ok arena) : arena.span = span := by
  simp only [fresh, Checked.bind_eq_ok] at h
  obtain ⟨-, -, nodes, -, -, -, lists, -, h⟩ := h
  split at h
  · cases h
    rfl
  · cases h

/-- There is place for bookkeeping at an offset inside a region that ends inside the address space,
if both suit its alignment. -/
theorem requirePlace_eq_ok {addr offset align size : Nat} (hpos : 0 < offset)
    (hlt : offset < size) (hstop : addr + size ≤ Word.bound) (haddr : align ∣ addr)
    (hoffset : align ∣ offset) : requirePlace addr offset align = .ok () := by
  have hword : (addr + offset) % Word.bound = addr + offset := Nat.mod_eq_of_lt (by omega)
  rw [requirePlace, hword]
  exact if_pos ⟨by omega, Nat.mod_eq_zero_of_dvd (Nat.dvd_add haddr hoffset)⟩

theorem of?_eq_some {addr extent : Nat} {span : Span} (h : Span.of? addr extent = some span) :
    span.addr = addr ∧ span.extent = extent := by
  rw [Span.of?] at h
  split at h
  · cases h
    exact ⟨rfl, rfl⟩
  · cases h

/-- An arena can be set up in a region that ends inside the address space and suits its
alignment. -/
theorem exists_fresh {addr : Nat} {region : Config.Region}
    (hleaves : config.blockCount < LinkWord.maxLeaves) (hregion : config.region? = some region)
    (hstop : addr + region.full.size ≤ Word.bound) (haligned : region.full.align ∣ addr) :
    ∃ (span : Span) (arena : Arena config),
      Span.of? addr config.capacity = some span ∧ fresh span region = .ok arena := by
  have hvalid := Config.valid_of_region? hregion
  have hcapacity : 0 < config.capacity := Nat.two_pow_pos _
  have hbehind := hvalid.capacity_le
  have hnodes := hvalid.nodes_le
  have hlinks := hvalid.links_lt
  have height : 8 ∣ addr := Nat.dvd_trans (Config.eight_dvd_align hregion) haligned
  have hfour : 4 ∣ addr := Nat.dvd_trans (Nat.dvd_mul_left 4 2) height
  have hplaceNodes := requirePlace_eq_ok (by omega) (by omega) hstop height hvalid.dvd_nodes
  have hplaceLinks := requirePlace_eq_ok (by omega) hlinks hstop hfour hvalid.dvd_links
  obtain ⟨map, hmap, -⟩ : ∃ map, Bitmap.clear (Vector.replicate _ 0) = .ok map ∧ _ :=
    Bitmap.clear_eq_ok config.nodeCount_pos
  have hcreate := FreeLists.create_eq_ok ⟨config.blockCount_pos, Nat.le_of_lt hleaves⟩
  obtain ⟨pushed, hpush, -⟩ := FreeLists.run_push (holds_empty (Nat.le_of_lt hleaves))
    config.maxOrder_lt config.blockCount_pos fun _ => List.not_mem_nil
  rw [EStateM.run] at hpush
  have hend : addr + config.capacity < Word.bound := by omega
  obtain ⟨span, rfl, hspan⟩ : ∃ span : Span, span.addr = addr ∧
      Span.of? addr config.capacity = some span :=
    ⟨⟨addr, config.capacity, hend⟩, rfl, dif_pos hend⟩
  refine ⟨span, ⟨span, region.full, map, pushed⟩, hspan, ?_⟩
  simp only [fresh, hplaceNodes, hplaceLinks, hmap, hcreate, hpush, bind, Except.bind]
  rfl

/-- What setting up an arena comes to if there is a region for it: the provider is asked once, and
gets back a region that leaves the address space. -/
theorem run_build {provider : Provider σ} {region : Config.Region} (before : σ)
    (hleaves : config.blockCount < LinkWord.maxLeaves) (hregion : config.region? = some region) :
    (build config provider).run before =
      match (provider.allocate region.full.size region.full.align).run before with
      | .error abort after => .error abort after
      | .ok none after => .ok (.error (.allocFailed region.full)) after
      | .ok (some granted) after =>
          match Span.of? granted.addr config.capacity with
          | none =>
              match (provider.deallocate granted.addr region.full.size region.full.align).run
                  after with
              | .ok () last => .ok (.error .invalidConfig) last
              | .error abort last => .error abort last
          | some span =>
              match (fresh span region : Checked (Arena config)) with
              | .ok arena => .ok (.ok arena) after
              | .error fault => .error (.fault fault) after := by
  rw [build, if_neg (Nat.not_le_of_lt hleaves), hregion]
  simp only [EStateM.run_bind]
  cases (provider.allocate region.full.size region.full.align).run before with
  | error abort after => rfl
  | ok granted? after =>
      cases granted? with
      | none => rfl
      | some granted =>
          cases hspan : Span.of? granted.addr config.capacity with
          | none =>
              simp only [EStateM.run_bind, hspan]
              cases (provider.deallocate granted.addr region.full.size region.full.align).run
                after <;> rfl
          | some span =>
              simp only [EStateM.run_bind, hspan]
              cases (fresh span region : Checked (Arena config)) <;> rfl

/-- An arena is set up in every region that is granted, if it does not wrap around and suits its
alignment. -/
theorem exists_build {provider : Provider σ} {region : Config.Region} {before after : σ}
    {granted : Slice} (hleaves : config.blockCount < LinkWord.maxLeaves)
    (hregion : config.region? = some region)
    (hgranted : (provider.allocate region.full.size region.full.align).run before =
      .ok (some granted) after)
    (hstop : granted.addr + region.full.size ≤ Word.bound)
    (haligned : region.full.align ∣ granted.addr) :
    ∃ arena : Arena config, (build config provider).run before = .ok (.ok arena) after ∧
      arena.span.addr = granted.addr := by
  obtain ⟨span, arena, hspan, hfresh⟩ : ∃ (span : Span) (arena : Arena config),
      Span.of? granted.addr config.capacity = some span ∧ fresh span region = .ok arena :=
    exists_fresh hleaves hregion hstop haligned
  refine ⟨arena, ?_, ?_⟩
  · rw [run_build before hleaves hregion]
    simp only [hgranted, hspan, hfresh]
  · rw [span_of_fresh hfresh, (of?_eq_some hspan).1]

/-- Without few enough leaves or without a layout for the region, the provider is not asked. -/
theorem run_build_invalid (provider : Provider σ) (before : σ)
    (h : LinkWord.maxLeaves ≤ config.blockCount ∨ config.region? = none) :
    (build config provider).run before = .ok (.error .invalidConfig) before := by
  rw [build]
  split
  · rfl
  · next hleaves =>
      rw [h.resolve_left hleaves]
      rfl

/-- An arena that was set up lies in the region that the provider granted. -/
theorem granted_of_build {provider : Provider σ} {before after : σ} {arena : Arena config}
    (h : (build config provider).run before = .ok (.ok arena) after) :
    config.blockCount < LinkWord.maxLeaves ∧ ∃ region granted span,
      config.region? = some region ∧
      (provider.allocate region.full.size region.full.align).run before =
        .ok (some granted) after ∧
      Span.of? granted.addr config.capacity = some span ∧ fresh span region = .ok arena := by
  have hvalid : ¬(LinkWord.maxLeaves ≤ config.blockCount ∨ config.region? = none) := by
    intro hinvalid
    rw [run_build_invalid provider before hinvalid] at h
    cases h
  obtain ⟨hleaves, hregion⟩ := not_or.1 hvalid
  have hleaves := Nat.lt_of_not_le hleaves
  obtain ⟨region, hregion⟩ := Option.ne_none_iff_exists'.1 hregion
  rw [run_build before hleaves hregion] at h
  refine ⟨hleaves, region, ?_⟩
  split at h
  · cases h
  · cases h
  · next granted _ hgranted =>
      split at h
      · split at h <;> cases h
      · next span hspan =>
          split at h
          · next made hfresh =>
              cases h
              exact ⟨granted, span, hregion, hgranted, hspan, hfresh⟩
          · cases h

/-- An arena that was set up has a configuration with few enough leaves whose region has a
layout. -/
theorem build_eq_ok {provider : Provider σ} {before after : σ} {arena : Arena config}
    (h : (build config provider).run before = .ok (.ok arena) after) :
    config.blockCount < LinkWord.maxLeaves ∧ ∃ region, config.region? = some region ∧
      ∃ span : Span, span.extent = config.capacity ∧ fresh span region = .ok arena := by
  obtain ⟨hleaves, region, _, span, hregion, -, hspan, hfresh⟩ := granted_of_build h
  exact ⟨hleaves, region, hregion, span, (of?_eq_some hspan).2, hfresh⟩

/-- An arena that was set up keeps the idle ledger. -/
theorem keeps_of_build {provider : Provider σ} {before after : σ} {arena : Arena config}
    (h : (build config provider).run before = .ok (.ok arena) after) :
    arena.Keeps arena (Ledger.idle config.maxOrder) := by
  obtain ⟨-, region, -, span, hextent, hfresh⟩ := build_eq_ok h
  exact (fresh_keeps hextent hfresh).1

/-- An arena in a region that suits its alignment starts at a multiple of its capacity. -/
theorem capacity_dvd_of_build {provider : Provider σ} {before after : σ} {arena : Arena config}
    (h : (build config provider).run before = .ok (.ok arena) after)
    (haligned : arena.region.align ∣ arena.span.addr) : config.capacity ∣ arena.span.addr := by
  obtain ⟨-, region, hregion, span, hextent, hfresh⟩ := build_eq_ok h
  rw [(fresh_keeps hextent hfresh).2] at haligned
  exact Nat.dvd_trans (Config.capacity_dvd_align hregion) haligned

/-- The heap has a region for a small arena. -/
theorem exists_build_small :
    ∃ arena after, (build Config.small Host.heap).run Host.fresh = .ok (.ok arena) after :=
  ⟨_, _, rfl⟩

end BuddySystem.Arena
