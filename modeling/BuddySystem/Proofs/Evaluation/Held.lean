import BuddySystem.Evaluation
import Mathlib.Data.Int.ConditionallyCompleteOrder
import Mathlib.Data.List.Perm.Basic
import Mathlib.Order.CompletePartialOrder
import Mathlib.Order.ConditionallyCompleteLattice.Basic

/-!
# Blocks that are held

What an evaluation knows of the blocks that it holds: each of them has the bytes that it was painted
with last, and no two of them share an address (`Intact`). Another block is painted, or one of them
is given back, without harm to the rest. A subject that changes no byte of a block that is held
(`Spares`) does no harm either.
-/

namespace BuddySystem

/-- The addresses of a slice. -/
def Slice.addresses (slice : Slice) : Set Nat :=
  Set.Ico slice.addr (slice.addr + slice.len)

/-! ## Painting -/

/-- The bytes of a slice that was painted are those of the number. -/
theorem Memory.read_paint_of_mem (memory : Memory) {slice : Slice} {addr : Nat}
    (h : addr ∈ slice.addresses) (id : UInt64) :
    (memory.paint slice id).read addr = paintByte id (addr - slice.addr) := by
  rw [paint, read_fill]
  exact if_pos h

/-- Painting a slice changes no byte outside of it. -/
theorem Memory.eqOn_paint (memory : Memory) {slice : Slice} {addrs : Set Nat}
    (h : Disjoint addrs slice.addresses) (id : UInt64) :
    Set.EqOn (memory.paint slice id).read memory.read addrs := by
  intro addr hmem
  rw [paint, read_fill]
  exact if_neg (Set.disjoint_left.1 h hmem)

/-- A block has the bytes that it was painted with if the memory at its addresses does. -/
theorem Block.verify_iff {block : Block} {memory : Memory} :
    block.verify memory ↔ Set.EqOn memory.read
      (fun addr => paintByte block.id (addr - block.slice.addr)) block.slice.addresses := by
  rw [verify, Memory.holds_iff]
  constructor
  · intro h addr hmem
    obtain ⟨hle, hlt⟩ := hmem
    have hbyte := h (addr - block.slice.addr) (by omega)
    rwa [Nat.add_sub_cancel' hle] at hbyte
  · intro h i hi
    have hbyte := h ⟨Nat.le_add_right _ i, Nat.add_lt_add_left hi _⟩
    dsimp only at hbyte
    rwa [Nat.add_sub_cancel_left] at hbyte

/-- A block whose bytes are unchanged is still verified. -/
theorem Block.verify_of_eqOn {block : Block} {before after : Memory} (h : block.verify before)
    (heq : Set.EqOn after.read before.read block.slice.addresses) : block.verify after :=
  verify_iff.2 (heq.trans (verify_iff.1 h))

/-- A block is verified right after it was painted. -/
theorem Block.verify_paint (memory : Memory) (slice : Slice) (request : Request) (id : UInt64) :
    Block.verify ⟨slice, request, id⟩ (memory.paint slice id) :=
  verify_iff.2 fun _ hmem => memory.read_paint_of_mem hmem id

namespace Evaluation

/-! ## Taking a block out of a list -/

section

variable {α : Type} {items rest : List α} {index : Nat} {item : α}

/-- The item that is taken and the rest are the items, though in another order. -/
theorem takeModulo_perm (h : takeModulo items index = some (item, rest)) :
    items.Perm (item :: rest) := by
  simp only [takeModulo, Option.bind_eq_bind, Option.bind_eq_some_iff, Option.pure_def,
    Option.some.injEq, Prod.mk.injEq] at h
  generalize index % items.length = place at h
  obtain ⟨last, hlast, item, hitem, rfl, rfl⟩ := h
  obtain ⟨hlt, rfl⟩ := List.getElem?_eq_some_iff.1 hitem
  -- The last item is still the last one when it has taken the place of another.
  have hset : (items.set place last).getLast? = some last := by
    rw [List.getLast?_eq_getElem?] at hlast ⊢
    rw [List.length_set, List.getElem?_set]
    grind
  have hrest : (items.set place last).dropLast.Perm (items.eraseIdx place) := by
    rw [← List.perm_cons last]
    calc
      List.Perm (last :: (items.set place last).dropLast)
          ((items.set place last).dropLast ++ [last]) := (List.perm_append_singleton _ _).symm
      _ = items.set place last := List.dropLast_append_getLast? _ hset
      List.Perm _ (last :: items.eraseIdx place) := List.set_perm_cons_eraseIdx hlt last
  exact (List.getElem_cons_eraseIdx_perm hlt).symm.trans (hrest.symm.cons _)

/-- An item can be taken unless there is none. -/
theorem takeModulo_eq_none_iff : takeModulo items index = none ↔ items = [] := by
  constructor
  · intro h
    by_contra hne
    have hlt := Nat.mod_lt index (List.length_pos_iff.2 hne)
    simp [takeModulo, List.getLast?_eq_some_getLast hne, hlt] at h
  · rintro rfl
    rfl

end

/-! ## Intact blocks -/

/-- Whether two memories have the same bytes in all blocks that are held. -/
def Spares (held : List Block) (before after : Memory) : Prop :=
  ∀ block ∈ held, Set.EqOn after.read before.read block.slice.addresses

theorem Spares.refl (held : List Block) (memory : Memory) : Spares held memory memory :=
  fun _ _ => Set.eqOn_refl _ _

/-- The blocks that are held have not been overwritten, and no two of them share an address. -/
structure Intact (held : List Block) (memory : Memory) : Prop where
  painted : ∀ block ∈ held, block.verify memory
  apart : held.Pairwise fun block other => Disjoint block.slice.addresses other.slice.addresses

namespace Intact

variable {held rest : List Block} {block : Block} {memory after : Memory}

theorem nil (memory : Memory) : Intact [] memory where
  painted := by simp
  apart := .nil

theorem spared (h : Intact held memory) (hspares : Spares held memory after) :
    Intact held after where
  painted block hmem := Block.verify_of_eqOn (h.painted block hmem) (hspares block hmem)
  apart := h.apart

theorem perm (h : Intact held memory) (hperm : held.Perm rest) : Intact rest memory where
  painted block hmem := h.painted block (hperm.mem_iff.2 hmem)
  apart := (hperm.pairwise_iff fun hdisjoint => hdisjoint.symm).1 h.apart

theorem tail (h : Intact (block :: rest) memory) : Intact rest memory where
  painted other hmem := h.painted other (List.mem_cons_of_mem _ hmem)
  apart := h.apart.of_cons

/-- Painting a slice does no harm to blocks that share no address with it. -/
theorem paint (h : Intact held memory) {slice : Slice}
    (hapart : ∀ block ∈ held, Disjoint block.slice.addresses slice.addresses) (id : UInt64) :
    Intact held (memory.paint slice id) :=
  h.spared fun block hmem => memory.eqOn_paint (hapart block hmem) id

/-- A block that shares no address with the others is held as soon as it is painted. -/
theorem init (h : Intact held memory) {slice : Slice}
    (hapart : ∀ block ∈ held, Disjoint block.slice.addresses slice.addresses) (request : Request)
    (id : UInt64) : Intact (held ++ [⟨slice, request, id⟩]) (memory.paint slice id) where
  painted block hmem := by
    rcases List.mem_append.1 hmem with hmem | hmem
    · exact (h.paint hapart id).painted block hmem
    · obtain rfl := List.mem_singleton.1 hmem
      exact Block.verify_paint memory slice request id
  apart := by
    rw [List.pairwise_append]
    exact ⟨h.apart, List.pairwise_singleton _ _, by simpa using hapart⟩

/-- A block can be painted anew before it is given back. -/
theorem repaint (h : Intact (block :: rest) memory) (id : UInt64) :
    Intact rest (memory.paint block.slice id) :=
  h.tail.paint (fun _ hmem => (List.rel_of_pairwise_cons h.apart hmem).symm) id

end Intact

end Evaluation

end BuddySystem
