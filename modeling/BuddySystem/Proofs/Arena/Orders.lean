import BuddySystem.Proofs.Arena.Runs

/-!
# Exact orders

Which order a request has, and what it means for two requests to have the same. The order is the
least one whose blocks are long enough (`Config.order?_eq_some_iff_isLeast`), so a request that asks
for less is served by blocks that are no longer (`Config.order?_mono`). It is computed with words,
and no number on the way leaves their range (`Config.order?_guarded`).

An arena takes two layouts for the same when memory is given back if they have the same order, and
only then: after one request it can tell layouts of different orders apart
(`interchangeable_iff_order?_eq`). `exactOrders` puts this together.
-/

namespace BuddySystem

open Arena Occupancy

/-! ## Powers of two that are computed with words -/

namespace Word

/-- The number of bits above the highest one that is set. -/
def leadingZeros (word : Nat) : Nat :=
  (BitVec.ofNat bits word).clz.toNat

/-- The number of bits below the lowest one that is set. -/
def trailingZeros (word : Nat) : Nat :=
  (BitVec.ofNat bits word).ctz.toNat

/-- The zeros of a word lie above its highest bit. -/
theorem leadingZeros_add_log2 {word : Nat} (hpos : 0 < word) (hword : word < bound) :
    leadingZeros word + word.log2 = 63 := by
  have hbits : bits = 64 := rfl
  have hself : (BitVec.ofNat bits word).toNat = word := Nat.mod_eq_of_lt hword
  have hne : BitVec.ofNat bits word ≠ 0 := by
    intro hzero
    rw [hzero] at hself
    exact hpos.ne hself
  have hlt : leadingZeros word < bits := BitVec.lt_def.1 (BitVec.clz_lt_iff_ne_zero.2 hne)
  have hle : 2 ^ (bits - 1 - leadingZeros word) ≤ (BitVec.ofNat bits word).toNat :=
    BitVec.two_pow_sub_clz_le_toNat_of_ne_zero (by decide) hne
  have hgt : (BitVec.ofNat bits word).toNat < 2 ^ (bits - leadingZeros word) :=
    BitVec.toNat_lt_two_pow_sub_clz
  rw [hself, ← Nat.le_log2 hpos.ne'] at hle
  rw [hself, ← Nat.log2_lt hpos.ne'] at hgt
  omega

/-- A word of ones that is as long as another word. -/
theorem shiftRight_leadingZeros {word : Nat} (hpos : 0 < word) (hword : word < bound) :
    (bound - 1) >>> leadingZeros word = 2 ^ (word.log2 + 1) - 1 := by
  have hsplit : bound = 2 ^ leadingZeros word * 2 ^ (word.log2 + 1) := by
    rw [← Nat.pow_add, ← Nat.add_assoc, leadingZeros_add_log2 hpos hword]
  have hzeros := Nat.two_pow_pos (leadingZeros word)
  rw [Nat.shiftRight_eq_div_pow, hsplit,
    Nat.mul_sub_div 0 _ _ (Nat.mul_pos hzeros (Nat.two_pow_pos _)), Nat.zero_div, Nat.zero_add]

theorem trailingZeros_two_pow {k : Nat} (h : k < bits) : trailingZeros (2 ^ k) = k := by
  have hself : BitVec.ofNat bits (2 ^ k) = BitVec.twoPow bits k := by
    apply BitVec.eq_of_toNat_eq
    rw [BitVec.toNat_ofNat, BitVec.toNat_twoPow]
  have hne : BitVec.twoPow bits k ≠ 0 := by
    intro hzero
    have hbit := congrArg (BitVec.getLsbD · k) hzero
    simp [h] at hbit
  have hbit := BitVec.getLsbD_true_ctz_of_ne_zero hne
  rw [BitVec.getLsbD_twoPow, Bool.and_eq_true, decide_eq_true_iff, decide_eq_true_iff] at hbit
  rw [trailingZeros, hself, ← hbit.2]

namespace Guarded

/-- The quotient of two words. -/
def div (left right : Nat) : Checked Nat :=
  if right = 0 then .error .overflow else .ok (left / right)

/-- The least power of two that is no less than `n`, if it is a word. It is one more than the word
that has every bit from the highest one of `n - 1` downwards. -/
def powerOfTwoFrom? (n : Nat) : Checked (Option Nat) := do
  if n ≤ 1 then
    return some 1
  let zeros := leadingZeros (← Word.sub n 1)
  Checked.require (zeros < bits) .overflow
  return Word.add? ((bound - 1) >>> zeros) 1

/-- The next power of two is found with words, for every word. -/
theorem powerOfTwoFrom?_eq {n : Nat} (h : n < bound) :
    powerOfTwoFrom? n = .ok (Word.powerOfTwoFrom? n) := by
  rw [powerOfTwoFrom?, Word.powerOfTwoFrom?, powerOfTwoFrom]
  split
  · rfl
  · next hn =>
      have hbits : bits = 64 := rfl
      have hpos : 0 < n - 1 := by omega
      have hword : n - 1 < bound := by omega
      have hzeros := leadingZeros_add_log2 hpos hword
      have hlt : leadingZeros (n - 1) < bits := by omega
      have hones := shiftRight_leadingZeros hpos hword
      have hsucc : 2 ^ ((n - 1).log2 + 1) - 1 + 1 = 2 ^ ((n - 1).log2 + 1) :=
        Nat.sub_add_cancel (Nat.two_pow_pos _)
      simp only [Word.sub, if_pos (show 1 ≤ n by omega), Checked.require, if_pos hlt, hones,
        Word.add?, hsucc, bind, Except.bind]
      rfl

end Guarded

end Word

/-! ## Orders -/

namespace Config

/-- The order of the block that serves a request, where all numbers on the way are words. -/
def Guarded.order? (config : Config) (size align : Nat) : Checked (Option Nat) := do
  if size = 0 ∨ ¬Word.isPowerOfTwo align ∨ align > config.maxAlign then
    return none
  let some len ← Word.Guarded.powerOfTwoFrom? (max (max size align) config.blockSize)
    | return none
  if len > config.capacity then
    return none
  return some (Word.trailingZeros (← Word.Guarded.div len config.blockSize))

/-- The orders whose blocks are long enough for a request and its alignment. -/
def roomyOrders (config : Config) (size align : Nat) : Set Nat :=
  { order | order ≤ config.maxOrder ∧ max size align ≤ config.blockSize * 2 ^ order }

variable (config : Config) {size align order : Nat}

/-- The length that is rounded up to is the one of the blocks that serve the request. -/
theorem powerOfTwoFrom?_servingLen (hsize : size < Word.bound) (halign : align < Word.bound) :
    Word.Guarded.powerOfTwoFrom? (max (max size align) config.blockSize) =
      .ok (if config.servingLen size align < Word.bound then
        some (config.servingLen size align) else none) := by
  have hblock : config.blockSize < Word.bound :=
    Nat.pow_lt_pow_right Nat.one_lt_two (Nat.lt_of_le_of_lt (Nat.le_add_right _ _) config.bits_lt)
  exact Word.Guarded.powerOfTwoFrom?_eq (Nat.max_lt.2 ⟨Nat.max_lt.2 ⟨hsize, halign⟩, hblock⟩)

/-- The quotient that the order is read off is a power of two. -/
theorem order?_eq_trailingZeros (h : config.Supported size align) :
    config.order? size align =
      some (Word.trailingZeros (config.servingLen size align / config.blockSize)) := by
  have horder := config.order?_of_supported h
  obtain ⟨order, heq⟩ := config.exists_servingLen_eq size align
  rw [heq, Nat.mul_div_cancel_left _ config.blockSize_pos] at horder ⊢
  rw [Nat.log2_two_pow] at horder
  have hbits : order < Word.bits :=
    Nat.lt_of_le_of_lt (config.le_maxOrder_of_order? horder) config.maxOrder_lt
  rw [horder, Word.trailingZeros_two_pow hbits]

/-- The order of a request is computed without a fault, for all words. -/
theorem order?_guarded (hsize : size < Word.bound) (halign : align < Word.bound) :
    Guarded.order? config size align = .ok (config.order? size align) := by
  rw [Guarded.order?]
  split
  · next hbad =>
      have hunsupported : ¬config.Supported size align := by
        rintro ⟨hne, hpower, hmax⟩
        rcases hbad with hzero | hnot | hlarge
        · exact hne hzero
        · exact hnot hpower
        · exact absurd (Nat.le_trans (Nat.le_max_right _ _) hmax) (Nat.not_le_of_lt hlarge)
      rw [config.order?_of_not_supported hunsupported]
      rfl
  · next hform =>
      simp only [not_or, not_not] at hform
      obtain ⟨hne, hpower, -⟩ := hform
      rw [config.powerOfTwoFrom?_servingLen hsize halign]
      by_cases hlen : config.servingLen size align ≤ config.capacity
      · have hsupported : config.Supported size align :=
          ⟨hne, hpower, config.servingLen_le_capacity.1 hlen⟩
        rw [config.order?_eq_trailingZeros hsupported,
          if_pos (Nat.lt_of_le_of_lt hlen config.capacity_lt)]
        simp only [bind, Except.bind, if_neg (Nat.not_lt.2 hlen), gt_iff_lt, Word.Guarded.div,
          if_neg config.blockSize_pos.ne']
        rfl
      · have hunsupported : ¬config.Supported size align := fun hsupported =>
          hlen (config.servingLen_le_capacity.2 hsupported.2.2)
        rw [config.order?_of_not_supported hunsupported]
        by_cases hword : config.servingLen size align < Word.bound
        · rw [if_pos hword]
          exact if_pos (Nat.lt_of_not_le hlen)
        · rw [if_neg hword]
          rfl

/-- An order has blocks that are long enough for a request exactly if they are as long as those that
serve it. -/
theorem servingLen_le_iff :
    config.servingLen size align ≤ config.blockSize * 2 ^ order ↔
      max size align ≤ config.blockSize * 2 ^ order := by
  have hblock : config.blockSize ≤ config.blockSize * 2 ^ order :=
    Nat.le_mul_of_pos_right _ (Nat.two_pow_pos _)
  rw [servingLen, config.len_eq, Word.powerOfTwoFrom_le_two_pow, ← config.len_eq]
  omega

/-- A request that is supported has the least order with blocks that are long enough. -/
theorem order?_eq_some_iff_isLeast :
    config.order? size align = some order ↔
      config.Supported size align ∧ IsLeast (config.roomyOrders size align) order := by
  have hleast : ∀ serving, config.order? size align = some serving →
      IsLeast (config.roomyOrders size align) serving := by
    intro serving hserving
    have hlen := (config.order?_eq_some_iff.1 hserving).2
    refine ⟨⟨config.le_maxOrder_of_order? hserving, ?_⟩, ?_⟩
    · exact config.servingLen_le_iff.1 hlen.le
    · intro other hother
      have hle := config.servingLen_le_iff.2 hother.2
      rw [hlen] at hle
      exact (Nat.pow_le_pow_iff_right Nat.one_lt_two).1
        (Nat.le_of_mul_le_mul_left hle config.blockSize_pos)
  constructor
  · intro horder
    exact ⟨(config.order?_eq_some_iff.1 horder).1, hleast order horder⟩
  · rintro ⟨hsupported, hroomy⟩
    have horder := config.order?_of_supported hsupported
    rw [horder, (hleast _ horder).unique hroomy]

/-- The length of the block for a request is a multiple of the alignment. -/
theorem align_dvd_of_order? (h : config.order? size align = some order) :
    align ∣ config.blockSize * 2 ^ order := by
  obtain ⟨⟨-, hpower, -⟩, hlen⟩ := config.order?_eq_some_iff.1 h
  rw [← hlen]
  exact config.align_dvd_servingLen hpower

/-- A request for no more than another one has an order that is no greater. -/
theorem order?_mono {less lower : Nat} (h : config.order? size align = some order)
    (hsize : less ≤ size) (hne : less ≠ 0) (halign : lower ≤ align)
    (hpower : Word.isPowerOfTwo lower) :
    ∃ least, config.order? less lower = some least ∧ least ≤ order := by
  obtain ⟨⟨-, -, hmax⟩, ⟨hle, hroomy⟩, -⟩ := config.order?_eq_some_iff_isLeast.1 h
  have hsupported : config.Supported less lower := ⟨hne, hpower, by omega⟩
  obtain ⟨least, hleast⟩ : ∃ least, config.order? less lower = some least :=
    ⟨_, config.order?_of_supported hsupported⟩
  refine ⟨least, hleast, (config.order?_eq_some_iff_isLeast.1 hleast).2.2 ⟨hle, ?_⟩⟩
  omega

/-- Supported requests have the same order if they are served by blocks of the same length. -/
theorem order?_eq_iff {other lower : Nat} (h : config.Supported size align)
    (hother : config.Supported other lower) :
    config.order? size align = config.order? other lower ↔
      config.servingLen size align = config.servingLen other lower := by
  obtain ⟨order, horder⟩ : ∃ order, config.order? other lower = some order :=
    ⟨_, config.order?_of_supported hother⟩
  rw [horder, config.order?_eq_some_iff, and_iff_right h, (config.order?_eq_some_iff.1 horder).2]

end Config

/-! ## Layouts that are the same to an arena -/

section

variable {config : Config} {start : Arena config} {first second : Layout}

/-- Whether it makes no difference which of two layouts is named when memory is given back,
whatever was done with the arena before. -/
def Arena.Interchangeable (start : Arena config) (first second : Layout) : Prop :=
  ∀ (uses : List Use) (addr : Nat),
    (deallocate addr first.size first.align).run (Occupied.run start uses).arena =
      (deallocate addr second.size second.align).run (Occupied.run start uses).arena

/-- Only the order of a layout matters when memory is given back. -/
theorem Arena.deallocate_congr {size align other lower : Nat}
    (h : config.order? size align = config.order? other lower) (addr : Nat) :
    (deallocate addr size align : Step (Arena config) _) = deallocate addr other lower := by
  simp only [deallocate, locate, h]

theorem Arena.Interchangeable.symm (h : start.Interchangeable first second) :
    start.Interchangeable second first :=
  fun uses addr => (h uses addr).symm

/-- A block that was handed out is taken back with a layout only if this has the order of the
block. -/
theorem Arena.Interchangeable.order?_eq_some {σ : Type} {provider : Provider σ} {before after : σ}
    (hbuild : (build config provider).run before = .ok (.ok start) after)
    (h : start.Interchangeable first second) {order : Nat}
    (horder : config.order? first.size first.align = some order) :
    config.order? second.size second.align = some order := by
  have hfresh := keeps_of_build hbuild
  have hplace : (Node.ofIndex 0 order).InTree config.maxOrder :=
    Node.ofIndex_inTree.2 ⟨config.le_maxOrder_of_order? horder, Nat.two_pow_pos _⟩
  obtain ⟨leaf, rest, after, -, hserved⟩ :=
    hfresh.run_allocate_of_not_touched hplace not_touched_empty horder
  -- The only live block is the one that was handed out.
  let occupied := Occupied.run start [.allocate first.size first.align]
  have hkeeps : occupied.arena.Keeps start occupied.ledger := keeps_run hbuild _
  have hlive : occupied.ledger.live = {⟨leaf, order⟩} := by
    have hstart := keeps_run hbuild []
    exact (congrArg Occupied.live (Occupied.step_served hserved)).trans (hstart.served_eq horder)
  have hmem : ⟨leaf, order⟩ ∈ occupied.ledger.live := by
    rw [hlive]
    exact Finset.mem_singleton_self _
  obtain ⟨freed, hfreed, -⟩ := hkeeps.run_deallocate_of_mem hmem horder
  rw [h [.allocate first.size first.align]] at hfreed
  rcases hkeeps.deallocate_cases (start.span.addr + leaf * config.blockSize) second.size
    second.align with ⟨reason, -, hrun⟩ | ⟨block, _, hjudge, -⟩
  · cases hrun.symm.trans hfreed
  · obtain ⟨hblock, hsecond, -⟩ := judge_eq_ok hjudge
    rw [hlive, Finset.mem_singleton] at hblock
    rw [hsecond, hblock]

/-- An arena takes two layouts for the same exactly if they have the same order, or both none. -/
theorem interchangeable_iff_order?_eq {σ : Type} {provider : Provider σ} {before after : σ}
    (hbuild : (build config provider).run before = .ok (.ok start) after) :
    start.Interchangeable first second ↔
      config.order? first.size first.align = config.order? second.size second.align := by
  constructor
  · intro h
    refine Option.ext fun order => ⟨fun horder => ?_, fun horder => ?_⟩
    · exact h.order?_eq_some hbuild horder
    · exact h.symm.order?_eq_some hbuild horder
  · intro horder uses addr
    rw [deallocate_congr horder]

end

/-- What the order of a request is, for every request, and when two layouts are the same to an
arena. -/
structure ExactOrders (config : Config) : Prop where
  /-- No number leaves the range of words, whatever is asked for. -/
  computed : ∀ size align, size < Word.bound → align < Word.bound →
    Config.Guarded.order? config size align = .ok (config.order? size align)
  none_iff : ∀ size align, config.order? size align = none ↔
    size = 0 ∨ (¬∃ k, align = 2 ^ k) ∨ config.capacity < size ∨ config.capacity < align
  /-- Every other request has the least order with blocks that are long enough. -/
  some_iff : ∀ size align order, config.order? size align = some order ↔
    config.order? size align ≠ none ∧ IsLeast (config.roomyOrders size align) order
  /-- The length of these blocks does not overflow, and suits the alignment. -/
  suits : ∀ size align order, config.order? size align = some order →
    config.blockLen order = .ok (config.blockSize * 2 ^ order) ∧
      align ∣ config.blockSize * 2 ^ order
  mono : ∀ size align order, config.order? size align = some order →
    ∀ less lower, less ≤ size → less ≠ 0 → lower ≤ align → Word.isPowerOfTwo lower →
      ∃ least, config.order? less lower = some least ∧ least ≤ order
  /-- Two layouts are the same to an arena that was set up if they have the same order, or none. -/
  interchangeable_iff : ∀ {σ : Type} {provider : Provider σ} {before after : σ}
    {start : Arena config}, (build config provider).run before = .ok (.ok start) after →
    ∀ first second : Layout, start.Interchangeable first second ↔
      config.order? first.size first.align = config.order? second.size second.align
  /-- Those with an order are if they are served by blocks of the same length. -/
  interchangeable_iff_servingLen : ∀ {σ : Type} {provider : Provider σ} {before after : σ}
    {start : Arena config}, (build config provider).run before = .ok (.ok start) after →
    ∀ first second : Layout, config.order? first.size first.align ≠ none →
      config.order? second.size second.align ≠ none →
      (start.Interchangeable first second ↔
        config.servingLen first.size first.align = config.servingLen second.size second.align)

/-- Of every configuration these are exactly the orders of its requests. -/
theorem exactOrders (config : Config) : ExactOrders config where
  computed _ _ := config.order?_guarded
  none_iff size align := by
    rw [config.order?_eq_none_iff, config.not_supported_iff, lt_max_iff]
  some_iff size align order := by
    rw [config.order?_eq_some_iff_isLeast, Ne, config.order?_eq_none_iff, not_not]
  suits _ _ _ horder :=
    ⟨config.blockLen_eq (config.le_maxOrder_of_order? horder), config.align_dvd_of_order? horder⟩
  mono _ _ _ horder _ _ := config.order?_mono horder
  interchangeable_iff hbuild _ _ := interchangeable_iff_order?_eq hbuild
  interchangeable_iff_servingLen hbuild first second hfirst hsecond := by
    rw [Ne, config.order?_eq_none_iff, not_not] at hfirst hsecond
    rw [interchangeable_iff_order?_eq hbuild, config.order?_eq_iff hfirst hsecond]

-- At the upper end of the words: half of all addresses, and one byte more.
example :
    Config.order? ⟨0, 63, by decide, by decide⟩ (2 ^ 63) 1 = some 63 ∧
      Config.order? ⟨0, 63, by decide, by decide⟩ (2 ^ 63 + 1) 1 = none := by
  decide

end BuddySystem
