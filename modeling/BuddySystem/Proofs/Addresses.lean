import BuddySystem.Proofs.Config
import BuddySystem.Proofs.Occupancy
import Mathlib.Order.CompletePartialOrder
import Mathlib.Order.Interval.Set.Disjoint

/-!
# Addresses of blocks

The addresses that the blocks of an arena have when it lies at `base`. Two blocks share an address
exactly if they share a leaf, and they lie inside one another as their runs of leaves do. The
bookkeeping has other addresses than the arena.
-/

namespace BuddySystem

/-- The addresses of a block of an arena at `base`. -/
def Config.addresses (config : Config) (base : Nat) (block : Node) : Set Nat :=
  Set.Ico (base + block.leaf * config.blockSize) (base + block.stop * config.blockSize)

/-- The addresses of the bookkeeping in a region at `base`. They are counted modulo the number of
addresses. -/
def Config.Region.bookkeeping (region : Config.Region) (base : Nat) : Set Nat :=
  { addr | ∃ offset, region.nodesOffset ≤ offset ∧ offset < region.full.size ∧
    addr = (base + offset) % Word.bound }

namespace Config

variable (config : Config) {base : Nat} {a b : Node}

/-- Two blocks have no address in common exactly if they share no leaf. -/
theorem disjoint_addresses :
    Disjoint (config.addresses base a) (config.addresses base b) ↔ ¬a.Overlaps b := by
  have hscale : ∀ m n, m * config.blockSize < n * config.blockSize ↔ m < n := fun m n =>
    Nat.mul_lt_mul_right config.blockSize_pos
  rw [addresses, addresses, Set.Ico_disjoint_Ico, Node.Overlaps, ← hscale a.leaf, ← hscale b.leaf]
  have ha := (hscale a.leaf a.stop).2 a.leaf_lt_stop
  have hb := (hscale b.leaf b.stop).2 b.leaf_lt_stop
  omega

/-- The addresses of a block of the tree are addresses of the arena. -/
theorem addresses_subset (ha : a.InTree config.maxOrder) :
    config.addresses base a ⊆ Set.Ico base (base + config.capacity) := by
  have hstop : a.stop * config.blockSize ≤ config.capacity := by
    rw [config.capacity_eq]
    exact Nat.mul_le_mul_right _ ha.2.2
  exact Set.Ico_subset_Ico (Nat.le_add_right _ _) (by omega)

theorem addresses_eq (order leaf : Nat) :
    config.addresses base ⟨leaf, order⟩ =
      Set.Ico (base + leaf * config.blockSize)
        (base + leaf * config.blockSize + config.blockSize * 2 ^ order) := by
  rw [addresses, Node.stop, Nat.add_mul, Nat.mul_comm (2 ^ order), Nat.add_assoc]

/-- No live block but one starts at the address at which it starts. -/
theorem filter_start_ne {live : Finset Node} (hlive : Occupancy.Placed config.maxOrder live)
    (hb : b ∈ live) (base : Nat) :
    (live.filter fun block =>
      base + block.leaf * config.blockSize ≠ base + b.leaf * config.blockSize) = live.erase b := by
  ext block
  rw [Finset.mem_filter, Finset.mem_erase, and_comm, Ne, Ne, Nat.add_right_inj,
    Nat.mul_left_inj config.blockSize_pos.ne']
  exact and_congr_left fun hblock =>
    not_congr ⟨hlive.eq_of_leaf_eq hblock hb, congrArg Node.leaf⟩

/-- An arena does not reach into its bookkeeping. -/
theorem disjoint_bookkeeping {region : Region} (h : config.region? = some region)
    (hbase : base + config.capacity < Word.bound) :
    Disjoint (Set.Ico base (base + config.capacity)) (region.bookkeeping base) := by
  have hbehind := (valid_of_region? h).capacity_le
  have hlimit := (valid_of_region? h).size_le
  rw [Set.disjoint_left]
  intro addr hmemory hbookkeeping
  obtain ⟨hle, hlt⟩ := hmemory
  obtain ⟨offset, hoffset, hsize, rfl⟩ := hbookkeeping
  have hword : Layout.sizeLimit < Word.bound := by decide
  rcases Nat.lt_or_ge (base + offset) Word.bound with hsum | hsum
  · rw [Nat.mod_eq_of_lt hsum] at hlt
    omega
  · -- The address wraps around, and comes out below the arena.
    rw [Nat.mod_eq_sub_mod hsum, Nat.mod_eq_of_lt (by omega)] at hle
    omega

/-- A block is a proper part of another one as a run of leaves and as a set of addresses. -/
theorem addresses_ssubset :
    config.addresses base a ⊂ config.addresses base b ↔ a.StrictlyInside b := by
  have hsubset : ∀ c d : Node,
      config.addresses base c ⊆ config.addresses base d ↔ c.Inside d := by
    intro c d
    have hle : ∀ m n, m * config.blockSize ≤ n * config.blockSize ↔ m ≤ n := fun m n =>
      Nat.mul_le_mul_right_iff config.blockSize_pos
    have hc := Nat.mul_lt_mul_of_pos_right c.leaf_lt_stop config.blockSize_pos
    rw [addresses, addresses, Set.Ico_subset_Ico_iff (by omega), Nat.add_le_add_iff_left,
      Nat.add_le_add_iff_left, hle, hle, Node.Inside]
  rw [ssubset_iff_subset_not_subset, hsubset, hsubset, Node.StrictlyInside]
  refine and_congr_right fun hin => not_congr ⟨fun hback => hin.antisymm hback, ?_⟩
  intro heq
  subst heq
  exact hin

end Config

end BuddySystem
