import BuddySystem.Proofs.Arena.Build
import BuddySystem.Proofs.Bitmap.Writes
import BuddySystem.Proofs.Provider
import BuddySystem.Proofs.Storage
import Mathlib.GroupTheory.GroupAction.Ring
import Mathlib.Order.CompletePartialOrder
import Mathlib.Order.Interval.Set.Disjoint

/-!
# Exact regions

Which configurations are rejected, and what the region of the others is, to the byte. There is a
region exactly if the arena takes up no more than a quarter of the room that there can be
(`Config.exists_region`, `Config.region?_eq_none`), and while it is laid out no number leaves the
range of words (`Config.region?_guarded`). Its three parts have no bytes in common, and what the
bitmap and the links of the free lists touch lies in their own part (`Region.divided`,
`Region.confines`). `exactRegion_of_lt` puts this together.
-/

namespace BuddySystem

open Arena

/-! ## Layouts that are computed with words -/

theorem Word.roundUp_of_dvd {n unit : Nat} (hpos : 0 < unit) (h : unit ∣ n) :
    Word.roundUp n unit = n := by
  obtain ⟨count, rfl⟩ := h
  rw [Word.roundUp, Nat.mul_add_div hpos, Nat.div_eq_of_lt (Nat.sub_one_lt hpos.ne'), Nat.add_zero,
    Nat.mul_comm]

namespace Word.Guarded

/-- Rounds up with words. -/
def roundUp (n unit : Nat) : Checked Nat := do
  let sum ← Word.add n (← Word.sub unit 1)
  Word.mul (sum / unit) unit

theorem roundUp_le (n unit : Nat) : Word.roundUp n unit ≤ n + (unit - 1) :=
  Nat.div_mul_le_self _ _

/-- Rounding up does not fail while the greatest number that it adds up is a word. -/
theorem roundUp_eq {n unit : Nat} (hpos : 0 < unit) (h : n + (unit - 1) < Word.bound) :
    roundUp n unit = .ok (Word.roundUp n unit) := by
  have hle : (n + (unit - 1)) / unit * unit < Word.bound :=
    Nat.lt_of_le_of_lt (roundUp_le n unit) h
  simp only [roundUp, Word.sub, if_pos (Nat.succ_le_of_lt hpos), Word.add, if_pos h, Word.mul,
    if_pos hle, bind, Except.bind, Word.roundUp]

end Word.Guarded

/-- The number of words of a bitmap, counted with words. -/
def Bitmap.Guarded.wordCount (bits : Nat) : Checked Nat :=
  Word.add (bits / Word.bits) (if bits % Word.bits = 0 then 0 else 1)

/-- The number of words of a bitmap is counted without a fault if it is a word. -/
theorem Bitmap.Guarded.wordCount_eq {bits : Nat} (h : Bitmap.wordCount bits < Word.bound) :
    wordCount bits = .ok (Bitmap.wordCount bits) :=
  if_pos h

namespace Layout

/-- There is a layout if the size leaves room for its alignment. -/
theorem ofSize?_of_le {size align : Nat} (hpower : Word.isPowerOfTwo align)
    (h : size ≤ sizeLimit - align) : ofSize? size align = some ⟨size, align⟩ := by
  rw [ofSize?, hpower, decide_eq_true h]
  rfl

/-- The second layout starts at the next multiple of its alignment. -/
theorem offset_of_extend? {first second both : Layout} {offset : Nat}
    (h : first.extend? second = some (both, offset)) :
    offset = Word.roundUp first.size second.align := by
  simp only [extend?, Option.bind_eq_bind, Option.pure_def, Option.bind_eq_some_iff,
    Option.some.injEq, Prod.mk.injEq] at h
  obtain ⟨_, -, _, -, -, rfl⟩ := h
  rfl

/-- Two layouts can be put one after the other if there is room for both. -/
theorem extend?_of_le {first second : Layout}
    (hpower : Word.isPowerOfTwo (max first.align second.align))
    (h : Word.roundUp first.size second.align + second.size ≤
      sizeLimit - max first.align second.align) :
    first.extend? second =
      some (⟨Word.roundUp first.size second.align + second.size, max first.align second.align⟩,
        Word.roundUp first.size second.align) := by
  have hword : Word.roundUp first.size second.align + second.size < Word.bound := by
    have hlimit : sizeLimit < Word.bound := by decide
    omega
  simp only [extend?, Word.add?, if_pos hword, ofSize?_of_le hpower h, Option.bind_eq_bind,
    Option.bind_some, Option.pure_def]

end Layout

namespace Layout.Guarded

variable {count size align : Nat} {first second : Layout}

/-- `Layout.ofSize?` as it is computed with words. -/
def ofSize? (size align : Nat) : Checked (Option Layout) := do
  let limit ← Word.sub sizeLimit align
  return if Word.isPowerOfTwo align && size ≤ limit then some ⟨size, align⟩ else none

/-- `Layout.array?` as it is computed with words. -/
def array? (count size align : Nat) : Checked (Option Layout) := do
  ofSize? (← Word.mul count size) align

/-- `Layout.extend?` as it is computed with words. -/
def extend? (first second : Layout) : Checked (Option (Layout × Nat)) := do
  let offset ← Word.Guarded.roundUp first.size second.align
  let size ← Word.add offset second.size
  return (← ofSize? size (max first.align second.align)).map (·, offset)

/-- Whether there is a layout is decided without a fault. -/
theorem ofSize?_eq (h : align ≤ sizeLimit) :
    ofSize? size align = .ok (Layout.ofSize? size align) := by
  simp only [ofSize?, Word.sub, if_pos h, bind, Except.bind]
  rfl

/-- The layout of an array is computed without a fault if its size is a word. -/
theorem array?_eq (hword : count * size < Word.bound) (h : align ≤ sizeLimit) :
    array? count size align = .ok (Layout.array? count size align) := by
  simp only [array?, Word.mul, if_pos hword, bind, Except.bind]
  exact ofSize?_eq h

/-- Two layouts are put one after the other without a fault if their sizes and the gap add up to a
word. -/
theorem extend?_eq (hpos : 0 < second.align)
    (hword : first.size + (second.align - 1) + second.size < Word.bound)
    (hfirst : first.align ≤ sizeLimit) (hsecond : second.align ≤ sizeLimit) :
    extend? first second = .ok (first.extend? second) := by
  have hround := Word.Guarded.roundUp_le first.size second.align
  have hoffset : Word.Guarded.roundUp first.size second.align = .ok _ :=
    Word.Guarded.roundUp_eq hpos (by omega)
  have hsum : Word.roundUp first.size second.align + second.size < Word.bound := by omega
  have hsize : ofSize? (Word.roundUp first.size second.align + second.size)
      (max first.align second.align) = .ok _ := ofSize?_eq (Nat.max_le.2 ⟨hfirst, hsecond⟩)
  simp only [extend?, hoffset, Word.add, if_pos hsum, hsize, Layout.extend?, Word.add?, bind,
    Except.bind, pure, Except.pure, Option.bind_some]
  cases Layout.ofSize? (Word.roundUp first.size second.align + second.size)
      (max first.align second.align) <;> rfl

end Layout.Guarded

namespace Config

/-- The number of nodes, counted with words. -/
def Guarded.nodeCount (config : Config) : Checked Nat := do
  Word.sub (← Word.mul 2 config.blockCount) 1

/-- The nodes are counted without a fault if twice the number of leaves is a word. -/
theorem Guarded.nodeCount_eq {config : Config} (h : 2 * config.blockCount < Word.bound) :
    Guarded.nodeCount config = .ok config.nodeCount := by
  have hpos := config.blockCount_pos
  rw [Guarded.nodeCount, Word.mul, if_pos h]
  exact if_pos (by omega)

/-- The region of an arena with its bookkeeping, where all numbers on the way are words. -/
def Guarded.region? (config : Config) : Checked (Option Region) := do
  let some arena ← Layout.Guarded.ofSize? config.capacity config.maxAlign
    | return none
  let nodeCount ← Guarded.nodeCount config
  let some nodes ← Layout.Guarded.array? (← Bitmap.Guarded.wordCount nodeCount) 8 8
    | return none
  let some (withNodes, nodesOffset) ← Layout.Guarded.extend? arena nodes
    | return none
  let some links ← Layout.Guarded.array? config.blockCount 8 4
    | return none
  let some (full, linksOffset) ← Layout.Guarded.extend? withNodes links
    | return none
  return some ⟨full, nodesOffset, linksOffset⟩

variable (config : Config)

/-- A configuration with few enough leaves for links has at most half as many. -/
theorem blockCount_le (h : config.blockCount < LinkWord.maxLeaves) :
    config.blockCount ≤ 2 ^ 31 := by
  have hmax : LinkWord.maxLeaves < 2 ^ 32 := by decide
  have hlt := (Nat.pow_lt_pow_iff_right Nat.one_lt_two).1 (Nat.lt_trans h hmax)
  exact Nat.pow_le_pow_right Nat.two_pos (Nat.le_of_lt_succ hlt)

/-- An arena of less than `2 ^ 62` bytes has at most `2 ^ 61`, as its size is a power of two. -/
theorem capacity_le (h : config.capacity < 2 ^ 62) : config.capacity ≤ 2 ^ 61 := by
  have hlt := (Nat.pow_lt_pow_iff_right Nat.one_lt_two).1 h
  exact Nat.pow_le_pow_right Nat.two_pos (Nat.le_of_lt_succ hlt)

theorem capacity_le_sizeLimit : config.capacity ≤ Layout.sizeLimit :=
  Nat.pow_le_pow_right Nat.two_pos (Nat.le_of_lt_succ config.bits_lt)

/-- The bitmap has a word for every 64 of its bits, rounded up. -/
theorem wordCount_nodeCount :
    Bitmap.wordCount config.nodeCount = (2 * config.blockCount - 1) ⌈/⌉ 64 := by
  rw [Bitmap.wordCount_eq_ceilDiv, nodeCount]

/-- The bitmap has no more words than there are leaves. -/
theorem wordCount_le : Bitmap.wordCount config.nodeCount ≤ config.blockCount := by
  have hpos := config.blockCount_pos
  rw [Bitmap.wordCount, nodeCount, Word.bits]
  split <;> omega

/-- The region is laid out without a fault if the leaves are few enough for links. -/
theorem region?_guarded (h : config.blockCount < LinkWord.maxLeaves) :
    Guarded.region? config = .ok config.region? := by
  have hleaves := config.blockCount_le h
  have hlimit := config.capacity_le_sizeLimit
  have hwords := config.wordCount_le
  have hhalf : Layout.sizeLimit = 2 ^ 63 := rfl
  have hbound : Word.bound = 2 ^ 64 := rfl
  have hcount : Guarded.nodeCount config = .ok config.nodeCount :=
    Guarded.nodeCount_eq (by omega)
  have hwordCount : Bitmap.Guarded.wordCount config.nodeCount =
      .ok (Bitmap.wordCount config.nodeCount) := Bitmap.Guarded.wordCount_eq (by omega)
  have harena : Layout.Guarded.ofSize? config.capacity config.maxAlign =
      .ok (Layout.ofSize? config.capacity config.maxAlign) := Layout.Guarded.ofSize?_eq hlimit
  have hnodes : Layout.Guarded.array? (Bitmap.wordCount config.nodeCount) 8 8 =
      .ok (Bitmap.layout? config.nodeCount) :=
    Layout.Guarded.array?_eq (by omega) (by decide)
  have hlinks : Layout.Guarded.array? config.blockCount 8 4 =
      .ok (FreeLists.layout? config.blockCount) :=
    Layout.Guarded.array?_eq (by omega) (by decide)
  -- From here on both go through the same layouts.
  simp only [Guarded.region?, Config.region?, harena, hcount, hwordCount, hnodes, hlinks, bind,
    Except.bind, pure, Except.pure]
  rcases hsome : Layout.ofSize? config.capacity config.maxAlign with - | arena
  · rfl
  obtain ⟨rfl, -⟩ := Layout.ofSize?_eq_some hsome
  rcases hsome : Bitmap.layout? config.nodeCount with - | nodes
  · rfl
  obtain ⟨rfl, -⟩ := Layout.ofSize?_eq_some hsome
  have hextend : Layout.Guarded.extend? ⟨config.capacity, config.maxAlign⟩
      ⟨Bitmap.wordCount config.nodeCount * 8, 8⟩ = .ok _ :=
    Layout.Guarded.extend?_eq (Nat.succ_pos 7) (by dsimp only; omega) hlimit
      (show 8 ≤ Layout.sizeLimit by decide)
  simp only [hextend, Option.bind_some]
  rcases hsome : Layout.extend? ⟨config.capacity, config.maxAlign⟩
    ⟨Bitmap.wordCount config.nodeCount * 8, 8⟩ with - | ⟨withNodes, offset⟩
  · rfl
  obtain ⟨-, -, -, halign, hsize⟩ := Layout.extend?_eq_some (Nat.succ_pos 7) hsome
  rcases hsome : FreeLists.layout? config.blockCount with - | links
  · rfl
  obtain ⟨rfl, -⟩ := Layout.ofSize?_eq_some hsome
  have hextend : Layout.Guarded.extend? withNodes ⟨config.blockCount * 8, 4⟩ = .ok _ :=
    Layout.Guarded.extend?_eq (Nat.succ_pos 3) (by dsimp only; omega)
      (halign ▸ Nat.max_le.2 ⟨hlimit, show 8 ≤ Layout.sizeLimit by decide⟩)
      (show 4 ≤ Layout.sizeLimit by decide)
  simp only [hextend, Option.bind_some]
  rcases withNodes.extend? ⟨config.blockCount * 8, 4⟩ with - | both <;> rfl

/-! ## How large the region is -/

/-- The greater of two powers of two is one of them. -/
theorem isPowerOfTwo_max (j k : Nat) : Word.isPowerOfTwo (max (2 ^ j) (2 ^ k)) := by
  rcases Nat.le_total k j with hle | hle
  · rw [Nat.max_eq_left (Nat.pow_le_pow_right Nat.two_pos hle)]
    exact Word.isPowerOfTwo_iff.2 ⟨j, rfl⟩
  · rw [Nat.max_eq_right (Nat.pow_le_pow_right Nat.two_pos hle)]
    exact Word.isPowerOfTwo_iff.2 ⟨k, rfl⟩

/-- There is a region for an arena with few enough leaves that takes up no more than a quarter of
the room that there can be. -/
theorem exists_region (h : config.blockCount < LinkWord.maxLeaves)
    (hcapacity : config.capacity < 2 ^ 62) : ∃ region, config.region? = some region := by
  have hleaves := config.blockCount_le h
  have hle := config.capacity_le hcapacity
  have hwords := config.wordCount_le
  have hhalf : Layout.sizeLimit = 2 ^ 63 := rfl
  have hpower : Word.isPowerOfTwo config.capacity := Word.isPowerOfTwo_iff.2 ⟨_, rfl⟩
  have hmax : Word.isPowerOfTwo (max config.capacity 8) := isPowerOfTwo_max _ 3
  have hmax' : Word.isPowerOfTwo (max (max config.capacity 8) 4) := by
    rwa [Nat.max_eq_left (by omega)]
  have harena : Layout.ofSize? config.capacity config.maxAlign =
      some ⟨config.capacity, config.capacity⟩ :=
    Layout.ofSize?_of_le hpower (by rw [maxAlign]; omega)
  have hnodes : Bitmap.layout? config.nodeCount =
      some ⟨Bitmap.wordCount config.nodeCount * 8, 8⟩ :=
    Layout.ofSize?_of_le (by decide) (by omega)
  have hlinks : FreeLists.layout? config.blockCount = some ⟨config.blockCount * 8, 4⟩ :=
    Layout.ofSize?_of_le (by decide) (by omega)
  have hround := Word.Guarded.roundUp_le config.capacity 8
  have hwith : Layout.extend? ⟨config.capacity, config.capacity⟩
      ⟨Bitmap.wordCount config.nodeCount * 8, 8⟩ = some _ :=
    Layout.extend?_of_le hmax (by dsimp only; omega)
  have hround' := Word.Guarded.roundUp_le
    (Word.roundUp config.capacity 8 + Bitmap.wordCount config.nodeCount * 8) 4
  have hfull : Layout.extend? ⟨Word.roundUp config.capacity 8 +
        Bitmap.wordCount config.nodeCount * 8, max config.capacity 8⟩
      ⟨config.blockCount * 8, 4⟩ = some _ :=
    Layout.extend?_of_le hmax' (by dsimp only; omega)
  simp only [region?, harena, hnodes, hwith, hlinks, hfull, Option.bind_eq_bind, Option.bind_some]
  exact ⟨_, rfl⟩

/-- Where everything is in a region, and what room it leaves for the padding that its alignment may
need. -/
theorem region?_eq_some {region : Region} (h : config.region? = some region) :
    region.nodesOffset = Word.roundUp config.capacity 8 ∧
      region.linksOffset = region.nodesOffset + 8 * Bitmap.wordCount config.nodeCount ∧
      region.full.size = region.linksOffset + 8 * config.blockCount ∧
      region.full.size ≤ Layout.sizeLimit - region.full.align := by
  simp only [region?, Option.bind_eq_bind, Option.pure_def, Option.bind_eq_some_iff,
    Option.some.injEq] at h
  obtain ⟨arena, harena, nodes, hnodes, ⟨withNodes, nodesOffset⟩, hwith, links, hlinks,
    ⟨full, linksOffset⟩, hfull, rfl⟩ := h
  obtain ⟨rfl, -⟩ := Layout.ofSize?_eq_some harena
  obtain ⟨rfl, -⟩ := Layout.ofSize?_eq_some hnodes
  obtain ⟨rfl, -⟩ := Layout.ofSize?_eq_some hlinks
  obtain ⟨-, -, hsize, -, -⟩ := Layout.extend?_eq_some (Nat.succ_pos 7) hwith
  obtain ⟨-, -, hsize', -, hlimit⟩ := Layout.extend?_eq_some (Nat.succ_pos 3) hfull
  have hnodes := Layout.offset_of_extend? hwith
  have hlinks := Layout.offset_of_extend? hfull
  dsimp only at *
  -- The words of the bitmap end at a multiple of eight, so the links need no padding.
  have hdvd := Word.dvd_roundUp config.capacity 8
  rw [Word.roundUp_of_dvd (by decide : 0 < 4) (by omega)] at hlinks
  exact ⟨hnodes, by omega, by omega, hlimit⟩

/-- There is no region for an arena that takes up more than a quarter of what there can be. -/
theorem region?_eq_none (h : 2 ^ 62 ≤ config.capacity) : config.region? = none := by
  by_contra hsome
  obtain ⟨region, hregion⟩ := Option.ne_none_iff_exists'.1 hsome
  have hvalid := valid_of_region? hregion
  have hlt := hvalid.capacity_lt
  have hle := (config.region?_eq_some hregion).2.2.2
  have halign := hvalid.align_eq
  have hlimit : Layout.sizeLimit = 2 ^ 63 := rfl
  omega

namespace Region

variable {config} {region : Region}

/-! ## The parts of the region -/

/-- The bytes of the bitmap, by their offsets. -/
def bitmap (config : Config) (region : Region) : Set Nat :=
  Set.Ico region.nodesOffset (region.nodesOffset + 8 * Bitmap.wordCount config.nodeCount)

/-- The bytes of the links, by their offsets. -/
def links (config : Config) (region : Region) : Set Nat :=
  Set.Ico region.linksOffset (region.linksOffset + 8 * config.blockCount)

/-- The bytes of a word behind the pointer to the bitmap. -/
def wordBytes (region : Region) (index : Nat) : Set Nat :=
  Set.Ico (region.nodesOffset + 8 * index) (region.nodesOffset + 8 * (index + 1))

/-- The bytes of a link behind the pointer to the links. -/
def linkBytes (region : Region) (leaf : Nat) : Set Nat :=
  Set.Ico (region.linksOffset + 8 * leaf) (region.linksOffset + 8 * (leaf + 1))

/-- The arena, the bitmap and the links lie in the region and have no bytes in common, and at every
address that suits the region all three suit their alignment. -/
structure Divided (config : Config) (region : Region) : Prop where
  arena_subset : Set.Ico 0 config.capacity ⊆ Set.Ico 0 region.full.size
  bitmap_subset : region.bitmap config ⊆ Set.Ico 0 region.full.size
  links_subset : region.links config ⊆ Set.Ico 0 region.full.size
  arena_bitmap : Disjoint (Set.Ico 0 config.capacity) (region.bitmap config)
  arena_links : Disjoint (Set.Ico 0 config.capacity) (region.links config)
  bitmap_links : Disjoint (region.bitmap config) (region.links config)
  suits : ∀ base, region.full.align ∣ base →
    config.capacity ∣ base ∧ 8 ∣ base + region.nodesOffset ∧ 4 ∣ base + region.linksOffset

/-- Every region that is laid out is divided into its three parts. -/
theorem divided (h : config.region? = some region) : region.Divided config := by
  have hvalid := valid_of_region? h
  obtain ⟨-, hlinks, hsize, -⟩ := config.region?_eq_some h
  have hbehind := hvalid.capacity_le
  constructor
  case suits =>
    intro base hbase
    have height := Nat.dvd_trans (eight_dvd_align h) hbase
    exact ⟨Nat.dvd_trans (capacity_dvd_align h) hbase, Nat.dvd_add height hvalid.dvd_nodes,
      Nat.dvd_add (Nat.dvd_trans (by decide) height) hvalid.dvd_links⟩
  case arena_subset => exact Set.Ico_subset_Ico (Nat.le_refl 0) (by omega)
  case bitmap_subset => exact Set.Ico_subset_Ico (Nat.zero_le _) (by omega)
  case links_subset => exact Set.Ico_subset_Ico (Nat.zero_le _) (by omega)
  case arena_bitmap => exact Set.Ico_disjoint_Ico.2 (by omega)
  case arena_links => exact Set.Ico_disjoint_Ico.2 (by omega)
  case bitmap_links => exact Set.Ico_disjoint_Ico.2 (by omega)

/-- Calls on the bitmap and on the free lists of an arena, of which only pointers into the region
are known, touch their own parts of the region only, whatever their arguments are. They do what they
do on a bitmap and on free lists. -/
structure Confines (config : Config) (region : Region) : Prop where
  word_touched : ∀ (calls : List BitmapCall) (storage : Storage UInt64), storage.touched = [] →
    ∀ index ∈ (afterCalls (BitmapCall.raw config.nodeCount) storage calls).touched,
      region.wordBytes index ⊆ region.bitmap config
  word_kept : ∀ (calls : List BitmapCall) (storage : Storage UInt64) (index : Nat),
    ¬region.wordBytes index ⊆ region.bitmap config →
      (afterCalls (BitmapCall.raw config.nodeCount) storage calls).cells index =
        storage.cells index
  bitmap_mirrors : ∀ call : BitmapCall,
    Mirrors (BitmapCall.shown config.nodeCount) (call.raw config.nodeCount) call.perform
  link_touched : ∀ (calls : List ListsCall) (lists : RawLists), lists.links.touched = [] →
    ∀ leaf ∈ (afterCalls (ListsCall.raw config.blockCount) lists calls).links.touched,
      region.linkBytes leaf ⊆ region.links config
  link_kept : ∀ (calls : List ListsCall) (lists : RawLists) (leaf : Nat),
    ¬region.linkBytes leaf ⊆ region.links config →
      (afterCalls (ListsCall.raw config.blockCount) lists calls).links.cells leaf =
        lists.links.cells leaf
  lists_mirror : ∀ call : ListsCall,
    Mirrors (RawLists.shown config.blockCount) (call.raw config.blockCount) call.perform

theorem wordBytes_subset {index : Nat} (h : index < Bitmap.wordCount config.nodeCount) :
    region.wordBytes index ⊆ region.bitmap config :=
  Set.Ico_subset_Ico (by omega) (by omega)

theorem linkBytes_subset {leaf : Nat} (h : leaf < config.blockCount) :
    region.linkBytes leaf ⊆ region.links config :=
  Set.Ico_subset_Ico (by omega) (by omega)

/-- What calls touch is in their own part of the region, as they touch no cell behind the last. -/
theorem confines (config : Config) (region : Region) : region.Confines config where
  word_touched calls storage hfresh index hmem :=
    wordBytes_subset ((Bitmap.confined config.nodeCount).touched_lt calls storage hfresh index hmem)
  word_kept calls storage index hout :=
    (Follows.extends_afterCalls (BitmapCall.follows config.nodeCount) storage calls).2.cells index
      (Nat.le_of_not_lt fun hlt => hout (wordBytes_subset hlt))
  bitmap_mirrors := (Bitmap.confined config.nodeCount).mirrors
  link_touched calls lists hfresh leaf hmem := by
    have hextends := (Follows.extends_afterCalls (ListsCall.follows config.blockCount)
      lists calls).2
    refine linkBytes_subset ((hextends.touched leaf hmem).resolve_left fun hbefore => ?_)
    rw [hfresh] at hbefore
    exact List.not_mem_nil hbefore
  link_kept calls lists leaf hout :=
    (Follows.extends_afterCalls (ListsCall.follows config.blockCount) lists calls).2.cells leaf
      (Nat.le_of_not_lt fun hlt => hout (linkBytes_subset hlt))
  lists_mirror call := (ListsCall.follows config.blockCount call).mirrors

end Region

end Config

/-! ## Setting up -/

section

variable {config : Config} {σ : Type} {provider : Provider σ} {region : Config.Region} {start : σ}

/-- The provider is asked for the region first, unless it breaks this off. -/
theorem transfers_build (hleaves : config.blockCount < LinkWord.maxLeaves)
    (hregion : config.region? = some region) :
    (∃ granted rest, (stateOf ((build config provider.recorded).run ⟨start, []⟩)).transfers =
      .allocate region.full.size region.full.align granted :: rest) ∨
    ∃ abort after, (build config provider.recorded).run ⟨start, []⟩ = .error abort ⟨after, []⟩ ∧
      (provider.allocate region.full.size region.full.align).run start = .error abort after := by
  have hbuild := @run_build _ _ provider.recorded _ ⟨start, []⟩ hleaves hregion
  rw [Provider.run_allocate_recorded] at hbuild
  cases hasked : (provider.allocate region.full.size region.full.align).run start with
  | error abort after =>
      rw [hasked] at hbuild
      exact .inr ⟨abort, after, hbuild, rfl⟩
  | ok granted after =>
      refine .inl ⟨granted, ?_⟩
      cases granted with
      | none =>
          rw [hbuild, hasked]
          exact ⟨[], rfl⟩
      | some granted =>
          cases hspan : Span.of? granted.addr config.capacity with
          | none =>
              have hback := congrArg Recorded.transfers (provider.stateOf_deallocate_recorded
                granted.addr region.full.size region.full.align
                ⟨after, [.allocate region.full.size region.full.align (some granted)]⟩)
              simp only [hbuild, hasked, hspan, List.nil_append]
              refine ⟨_, Eq.trans ?_ hback⟩
              cases (provider.recorded.deallocate _ _ _).run _ <;> rfl
          | some span =>
              simp only [hbuild, hasked, hspan, List.nil_append]
              refine ⟨[], ?_⟩
              cases (fresh span region : Checked (Arena config)) <;> rfl

/-- A configuration is rejected exactly if it has too many leaves or too large an arena. -/
theorem build_eq_invalid_iff (provider : Provider σ) (start : σ) :
    (build config provider.recorded).run ⟨start, []⟩ = .ok (.error .invalidConfig) ⟨start, []⟩ ↔
      2 ^ 32 - 1 ≤ config.blockCount ∨ 2 ^ 62 ≤ config.capacity := by
  constructor
  · intro h
    by_contra hvalid
    rw [not_or, Nat.not_le, Nat.not_le] at hvalid
    obtain ⟨hleaves, hcapacity⟩ := hvalid
    obtain ⟨region, hregion⟩ := config.exists_region hleaves hcapacity
    rcases @transfers_build _ _ provider _ start hleaves hregion with
      ⟨granted, rest, htransfers⟩ | ⟨abort, after, hrun, -⟩
    · rw [h] at htransfers
      cases htransfers
    · cases h.symm.trans hrun
  · intro h
    exact run_build_invalid _ _ (h.imp_right config.region?_eq_none)

end

/-- What configurations are rejected, and what the region of the others is. -/
structure ExactRegion (config : Config) : Prop where
  /-- The provider is not called for a configuration that is rejected. -/
  rejected_iff : ∀ {σ : Type} (provider : Provider σ) (start : σ),
    (build config provider.recorded).run ⟨start, []⟩ = .ok (.error .invalidConfig) ⟨start, []⟩ ↔
      2 ^ 32 - 1 ≤ config.blockCount ∨ 2 ^ 62 ≤ config.capacity
  /-- No number leaves the range of words while a region is laid out. -/
  computed : config.blockCount < 2 ^ 32 - 1 → Config.Guarded.region? config = .ok config.region?
  accepted : config.blockCount < 2 ^ 32 - 1 → config.capacity < 2 ^ 62 →
    ∃ region, config.region? = some region ∧
      region.full.align = max config.capacity 8 ∧
      region.full.size = region.linksOffset + 8 * config.blockCount ∧
      region.nodesOffset = Word.roundUp config.capacity 8 ∧
      region.linksOffset = region.nodesOffset + 8 * ((2 * config.blockCount - 1) ⌈/⌉ 64) ∧
      region.Divided config ∧ region.Confines config ∧
      ∀ {σ : Type} (provider : Provider σ) (start : σ),
        (∃ granted rest, (stateOf ((build config provider.recorded).run ⟨start, []⟩)).transfers =
          .allocate region.full.size region.full.align granted :: rest) ∨
        ∃ abort after,
          (build config provider.recorded).run ⟨start, []⟩ = .error abort ⟨after, []⟩ ∧
          (provider.allocate region.full.size region.full.align).run start = .error abort after

/-- Every configuration is rejected exactly when it should be, or laid out as it should be. -/
theorem exactRegion (config : Config) : ExactRegion config where
  rejected_iff := build_eq_invalid_iff
  computed := config.region?_guarded
  accepted hleaves hcapacity := by
    obtain ⟨region, hregion⟩ := config.exists_region hleaves hcapacity
    obtain ⟨hnodes, hlinks, hsize, -⟩ := config.region?_eq_some hregion
    rw [config.wordCount_nodeCount] at hlinks
    exact ⟨region, hregion, (Config.valid_of_region? hregion).align_eq, hsize, hnodes, hlinks,
      Config.Region.divided hregion, Config.Region.confines config region,
      fun _ _ => transfers_build hleaves hregion⟩

/-- Any two powers of two that are words are the sizes of a configuration if the first is greater
than the second. -/
theorem ofSizes?_two_pow {blockBits maxOrder : Nat} (hpos : 0 < maxOrder)
    (hbits : blockBits + maxOrder < Word.bits) :
    Config.ofSizes? (2 ^ (blockBits + maxOrder)) (2 ^ blockBits) =
      some ⟨blockBits, maxOrder, hpos, hbits⟩ := by
  simp [Config.ofSizes?, Nat.log2_two_pow, hpos, hbits]

/-- Of an arena whose size is a power of two, and greater than the size of its smallest blocks,
which is one as well, this is exactly whether it can be laid out, and how. -/
theorem exactRegion_of_lt {capacity blockSize : Nat} (hcapacity : Word.isPowerOfTwo capacity)
    (hblock : Word.isPowerOfTwo blockSize) (hlt : blockSize < capacity)
    (hword : capacity < Word.bound) :
    ∃ config, Config.ofSizes? capacity blockSize = some config ∧ config.capacity = capacity ∧
      config.blockCount = capacity / blockSize ∧ ExactRegion config := by
  obtain ⟨bits, rfl⟩ := Word.isPowerOfTwo_iff.1 hcapacity
  obtain ⟨blockBits, rfl⟩ := Word.isPowerOfTwo_iff.1 hblock
  rw [Nat.pow_lt_pow_iff_right Nat.one_lt_two] at hlt hword
  obtain ⟨maxOrder, rfl⟩ := Nat.exists_eq_add_of_lt hlt
  refine ⟨_, ofSizes?_two_pow (Nat.succ_pos maxOrder) hword, rfl, ?_, exactRegion _⟩
  have horder : blockBits + maxOrder + 1 - blockBits = maxOrder + 1 := by omega
  rw [Config.blockCount, Nat.pow_div (by omega) Nat.two_pos, horder]

/-- An arena of four leaves of one byte each has an exact region. -/
theorem exactRegion_of_lt_four :
    ∃ config, Config.ofSizes? 4 1 = some config ∧ config.capacity = 4 ∧
      config.blockCount = 4 / 1 ∧ ExactRegion config :=
  exactRegion_of_lt (by decide) (by decide) (by decide) (by decide)

-- Of the greatest arena with the most leaves that there is a region for.
example : (Config.ofSizes? (2 ^ 61) (2 ^ 30)).bind Config.region? =
    some ⟨⟨2 ^ 61 + 2 ^ 29 + 2 ^ 34, 2 ^ 61⟩, 2 ^ 61, 2 ^ 61 + 2 ^ 29⟩ := by
  decide

end BuddySystem
