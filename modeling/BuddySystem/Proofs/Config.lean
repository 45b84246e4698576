import BuddySystem.Config
import BuddySystem.Proofs.Layout

/-!
# Requests, their blocks, and the region

`Config.servingLen` is the length in bytes of the block that serves a request. A request has an
order exactly if it is well formed and asks for no more than the arena has (`order?_eq_none_iff`),
and then this is the order of the blocks of that length (`order?_eq_some_iff`). The region of an
arena holds the bookkeeping behind the arena (`Region.Valid`).
-/

namespace BuddySystem.Config

/-- The least power of two that is no less than the size, the alignment and the size of the
smallest blocks. -/
def servingLen (config : Config) (size align : Nat) : Nat :=
  Word.powerOfTwoFrom (max (max size align) config.blockSize)

variable (config : Config) {size align order : Nat}

/-! ## Lengths of blocks -/

theorem blockSize_pos : 0 < config.blockSize :=
  Nat.two_pow_pos _

theorem capacity_eq : config.capacity = config.blockCount * config.blockSize := by
  rw [capacity, blockCount, blockSize, Nat.mul_comm, Nat.pow_add]

theorem capacity_lt : config.capacity < Word.bound :=
  Nat.pow_lt_pow_right Nat.one_lt_two config.bits_lt

/-- There is a free list for every order of a block. -/
theorem maxOrder_lt : config.maxOrder < FreeLists.numOrders := by
  have hbits := config.bits_lt
  rw [FreeLists.numOrders]
  omega

/-- A number of leaves that the tree has is a word. -/
theorem leaf_lt_bound {leaf : Nat} (h : leaf ≤ config.blockCount) : leaf < Word.bound := by
  have hpow : config.blockCount < Word.bound :=
    Nat.pow_lt_pow_right Nat.one_lt_two config.maxOrder_lt
  exact Nat.lt_of_le_of_lt h hpow

theorem blockCount_pos : 0 < config.blockCount :=
  Nat.two_pow_pos _

theorem nodeCount_pos : 0 < config.nodeCount := by
  have hpos := config.blockCount_pos
  rw [nodeCount]
  omega

/-- The length of a block in bytes. -/
theorem len_eq (order : Nat) : config.blockSize * 2 ^ order = 2 ^ (config.blockBits + order) := by
  rw [blockSize, Nat.pow_add]

/-- No block is longer than the arena. -/
theorem len_le_capacity (h : order ≤ config.maxOrder) :
    config.blockSize * 2 ^ order ≤ config.capacity := by
  rw [len_eq, capacity]
  exact Nat.pow_le_pow_right Nat.two_pos (by omega)

/-- The length of a block does not overflow. -/
theorem blockLen_eq (h : order ≤ config.maxOrder) :
    config.blockLen order = .ok (config.blockSize * 2 ^ order) := by
  have hword := Nat.lt_of_le_of_lt (config.len_le_capacity h) config.capacity_lt
  have hlt : order < Word.bits := Nat.lt_of_le_of_lt h config.maxOrder_lt
  rw [blockLen, Word.shiftLeft, if_pos hlt, Nat.shiftLeft_eq, Nat.mod_eq_of_lt hword]

/-! ## Orders of requests -/

/-- The block for a request fits into the arena exactly if its size and its alignment do. -/
theorem servingLen_le_capacity :
    config.servingLen size align ≤ config.capacity ↔ max size align ≤ config.capacity := by
  have hblock : config.blockSize ≤ config.capacity :=
    Nat.pow_le_pow_right Nat.two_pos (Nat.le_add_right _ _)
  rw [servingLen, capacity, Word.powerOfTwoFrom_le_two_pow, ← capacity]
  omega

/-- The length of the block that serves a request is that of the blocks of an order. -/
theorem exists_servingLen_eq (size align : Nat) :
    ∃ order, config.servingLen size align = config.blockSize * 2 ^ order := by
  have hle : config.blockSize ≤ config.servingLen size align :=
    Nat.le_trans (Nat.le_max_right _ _) (Word.le_powerOfTwoFrom _)
  rw [servingLen, Word.powerOfTwoFrom_eq] at hle ⊢
  obtain ⟨order, horder⟩ := Nat.exists_eq_add_of_le
    ((Nat.pow_le_pow_iff_right Nat.one_lt_two).1 hle)
  exact ⟨order, by rw [len_eq, horder]⟩

/-- The block that serves a request is long enough for its alignment. -/
theorem align_dvd_servingLen (h : Word.isPowerOfTwo align) :
    align ∣ config.servingLen size align := by
  obtain ⟨k, rfl⟩ := Word.isPowerOfTwo_iff.1 h
  have hle : 2 ^ k ≤ config.servingLen size (2 ^ k) := by
    refine Nat.le_trans ?_ (Word.le_powerOfTwoFrom _)
    exact Nat.le_trans (Nat.le_max_right _ _) (Nat.le_max_left _ _)
  rw [servingLen, Word.powerOfTwoFrom_eq] at hle ⊢
  exact Nat.pow_dvd_pow 2 ((Nat.pow_le_pow_iff_right Nat.one_lt_two).1 hle)

/-- Whether a request is well formed and asks for no more than the arena has. -/
def Supported (size align : Nat) : Prop :=
  size ≠ 0 ∧ Word.isPowerOfTwo align ∧ max size align ≤ config.capacity

instance : Decidable (config.Supported size align) :=
  inferInstanceAs (Decidable (_ ∧ _))

/-- A request is not supported for one of three reasons. -/
theorem not_supported_iff :
    ¬config.Supported size align ↔
      size = 0 ∨ (¬∃ k, align = 2 ^ k) ∨ config.capacity < max size align := by
  rw [Supported, Word.isPowerOfTwo_iff, not_and_or, not_and_or, not_not, Nat.not_le]

/-- A supported request has the order of the blocks that can serve it. -/
theorem order?_of_supported (h : config.Supported size align) :
    config.order? size align = some (config.servingLen size align / config.blockSize).log2 := by
  obtain ⟨hsize, hpower, hmax⟩ := h
  -- The power of two is at most the capacity, so it is a word.
  have hlen := config.servingLen_le_capacity.2 hmax
  have hword : config.servingLen size align < Word.bound :=
    Nat.lt_of_le_of_lt hlen config.capacity_lt
  have halign : align ≤ config.capacity := Nat.le_trans (Nat.le_max_right _ _) hmax
  have hfrom : Word.powerOfTwoFrom? (max (max size align) config.blockSize) =
      some (config.servingLen size align) :=
    if_pos hword
  rw [order?, guard, if_pos ⟨hsize, hpower, halign⟩, hfrom]
  simp only [guard, if_pos hlen, Option.bind_eq_bind, Option.pure_def, Option.bind_some]

/-- A request that is not supported has no order. -/
theorem order?_of_not_supported (h : ¬config.Supported size align) :
    config.order? size align = none := by
  rw [order?, guard]
  split
  · next hform =>
      obtain ⟨hsize, hpower, -⟩ := hform
      have hlen : ¬config.servingLen size align ≤ config.capacity := fun hle =>
        h ⟨hsize, hpower, config.servingLen_le_capacity.1 hle⟩
      rw [Word.powerOfTwoFrom?]
      split
      · exact congrArg (Option.bind · _) (if_neg hlen)
      · rfl
  · rfl

/-- A request that has an order is served by the blocks of this order. -/
theorem order?_eq_some_iff :
    config.order? size align = some order ↔
      config.Supported size align ∧
        config.servingLen size align = config.blockSize * 2 ^ order := by
  obtain ⟨serving, hserving⟩ := config.exists_servingLen_eq size align
  have hlog : (config.servingLen size align / config.blockSize).log2 = serving := by
    rw [hserving, Nat.mul_div_cancel_left _ config.blockSize_pos, Nat.log2_two_pow]
  by_cases h : config.Supported size align
  · rw [config.order?_of_supported h, hlog, Option.some.injEq, hserving,
      Nat.mul_right_inj config.blockSize_pos.ne', Nat.pow_right_inj Nat.one_lt_two]
    exact (and_iff_right h).symm
  · simp [config.order?_of_not_supported h, h]

/-- A request has no order exactly if it is malformed or too large. -/
theorem order?_eq_none_iff :
    config.order? size align = none ↔ ¬config.Supported size align := by
  constructor
  · intro hnone h
    rw [config.order?_of_supported h] at hnone
    exact Option.some_ne_none _ hnone
  · exact config.order?_of_not_supported

/-- No request has an order greater than that of the root. -/
theorem le_maxOrder_of_order? (h : config.order? size align = some order) :
    order ≤ config.maxOrder := by
  obtain ⟨⟨-, -, hmax⟩, hlen⟩ := config.order?_eq_some_iff.1 h
  have hle := config.servingLen_le_capacity.2 hmax
  rw [hlen, len_eq, capacity, Nat.pow_le_pow_iff_right Nat.one_lt_two] at hle
  omega

/-- The block that serves a request has room for it. -/
theorem size_le_of_order? (h : config.order? size align = some order) :
    size ≤ config.blockSize * 2 ^ order := by
  rw [← (config.order?_eq_some_iff.1 h).2]
  have hle : max (max size align) config.blockSize ≤ config.servingLen size align :=
    Word.le_powerOfTwoFrom _
  omega

/-- A request for the whole arena is served by the root. -/
theorem order?_capacity (hpower : Word.isPowerOfTwo align) (hle : align ≤ config.capacity) :
    config.order? config.capacity align = some config.maxOrder := by
  have hsupported : config.Supported config.capacity align :=
    ⟨(Nat.two_pow_pos _).ne', hpower, Nat.max_le.2 ⟨Nat.le_refl _, hle⟩⟩
  have horder := config.order?_of_supported hsupported
  have hmax := config.le_maxOrder_of_order? horder
  have hroom := config.size_le_of_order? horder
  rw [len_eq, capacity, Nat.pow_le_pow_iff_right Nat.one_lt_two, Nat.add_le_add_iff_left] at hroom
  rw [horder, Nat.le_antisymm hmax hroom]

/-! ## The region -/

variable {config} {region : Region}

/-- The bitmap lies behind the arena, the links behind the bitmap, and the region ends with them. In
a region that suits its alignment, both suit theirs. -/
structure Region.Valid (config : Config) (region : Region) : Prop where
  capacity_le : config.capacity ≤ region.nodesOffset
  nodes_le : region.nodesOffset ≤ region.linksOffset
  links_lt : region.linksOffset < region.full.size
  size_le : region.full.size ≤ Layout.sizeLimit
  align_eq : region.full.align = max config.capacity 8
  dvd_nodes : 8 ∣ region.nodesOffset
  dvd_links : 4 ∣ region.linksOffset

/-- The region of every configuration that has one is valid. -/
theorem valid_of_region? (h : config.region? = some region) : region.Valid config := by
  have hleaves := config.blockCount_pos
  simp only [region?, Option.bind_eq_bind, Option.pure_def, Option.bind_eq_some_iff,
    Option.some.injEq] at h
  obtain ⟨arena, harena, nodes, hnodes, ⟨withNodes, nodesOffset⟩, hwith, links, hlinks,
    ⟨full, linksOffset⟩, hfull, rfl⟩ := h
  obtain ⟨rfl, -⟩ := Layout.ofSize?_eq_some harena
  obtain ⟨rfl, -⟩ := Layout.ofSize?_eq_some hnodes
  obtain ⟨rfl, -⟩ := Layout.ofSize?_eq_some hlinks
  obtain ⟨hbehind, hdvd, hsize, halign, -⟩ := Layout.extend?_eq_some (Nat.succ_pos 7) hwith
  obtain ⟨hbehind', hdvd', hsize', halign', hlimit⟩ := Layout.extend?_eq_some (Nat.succ_pos 3) hfull
  simp only [maxAlign] at *
  refine ⟨hbehind, ?_, ?_, ?_, ?_, hdvd, hdvd'⟩ <;> dsimp only <;> omega

/-- The region is longer than the arena. -/
theorem Region.Valid.capacity_lt (h : region.Valid config) :
    config.capacity < region.full.size := by
  have hcapacity := h.capacity_le
  have hnodes := h.nodes_le
  have hlinks := h.links_lt
  omega

/-- An address that suits the alignment of the region is a multiple of the capacity. -/
theorem capacity_dvd_align (h : config.region? = some region) :
    config.capacity ∣ region.full.align := by
  rw [(valid_of_region? h).align_eq]
  exact Word.two_pow_dvd_max _ 3

/-- It suits the words of the bitmap as well. -/
theorem eight_dvd_align (h : config.region? = some region) : 8 ∣ region.full.align := by
  rw [(valid_of_region? h).align_eq, Nat.max_comm]
  exact Word.two_pow_dvd_max 3 _

/-- Four leaves of 16 bytes. -/
def small : Config :=
  ⟨4, 2, by decide, by decide⟩

end BuddySystem.Config
