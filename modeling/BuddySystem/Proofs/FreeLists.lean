import BuddySystem.FreeLists
import BuddySystem.Proofs.FreeLists.Neighbours
import Mathlib.Data.Finset.Card
import Mathlib.Data.Finset.Range
import Mathlib.Logic.Function.Basic

/-!
# What free lists hold

`FreeLists.Holds` relates free lists to one plain list of leaves per order: the head of each list,
its length and the links of its leaves are those of the plain list, no leaf is in two lists, and
the link of a leaf that is in none is not used. The lists are then a function of their contents.

Every operation is one on the contents, and succeeds: `run_push` puts a leaf in front,
`run_remove` erases one, and `run_pop` takes the first one off.
-/

namespace BuddySystem

open Neighbours

/-- The word that stands for a leaf or for its absence. -/
def LinkWord.ofLeaf? : Option Nat → LinkWord
  | some leaf => leaf.toUInt32
  | none => LinkWord.nil

namespace FreeLists

variable {leaves : Nat}

/-- A plain list of leaves for every order. -/
abbrev Contents := Nat → List Nat

/-- The contents with a leaf put in front of the list for an order. -/
def Contents.add (contents : Contents) (order leaf : Nat) : Contents :=
  Function.update contents order (leaf :: contents order)

/-- The contents with a leaf taken out of the list for an order. -/
def Contents.remove (contents : Contents) (order leaf : Nat) : Contents :=
  Function.update contents order ((contents order).erase leaf)

namespace Contents

variable {contents : Contents} {order leaf other x : Nat}

@[simp] theorem add_self : contents.add order leaf order = leaf :: contents order :=
  Function.update_self ..

theorem add_of_ne (h : other ≠ order) : contents.add order leaf other = contents other :=
  Function.update_of_ne h ..

@[simp] theorem remove_self : contents.remove order leaf order = (contents order).erase leaf :=
  Function.update_self ..

theorem remove_of_ne (h : other ≠ order) : contents.remove order leaf other = contents other :=
  Function.update_of_ne h ..

theorem mem_add :
    x ∈ contents.add order leaf other ↔ x = leaf ∧ other = order ∨ x ∈ contents other := by
  by_cases h : other = order
  · simp [h]
  · simp [h, add_of_ne]

theorem mem_remove (hnodup : (contents order).Nodup) :
    x ∈ contents.remove order leaf other ↔ x ∈ contents other ∧ ¬(x = leaf ∧ other = order) := by
  by_cases h : other = order
  · subst h
    simp [hnodup.mem_erase_iff, and_comm]
  · simp [h, remove_of_ne]

/-- A leaf that was not in its list is in it once when it is added. -/
theorem nodup_add (h : ∀ other, (contents other).Nodup) (hfresh : leaf ∉ contents order)
    (other : Nat) : (contents.add order leaf other).Nodup := by
  by_cases heq : other = order
  · subst heq
    rw [add_self]
    exact List.nodup_cons.2 ⟨hfresh, h other⟩
  · rw [add_of_ne heq]
    exact h other

theorem nodup_remove (h : ∀ other, (contents other).Nodup) (other : Nat) :
    (contents.remove order leaf other).Nodup := by
  by_cases heq : other = order
  · subst heq
    rw [remove_self]
    exact (h other).erase leaf
  · rw [remove_of_ne heq]
    exact h other

/-- Taking out the leaf that was put in front undoes this. -/
@[simp] theorem remove_add : (contents.add order leaf).remove order leaf = contents := by
  rw [remove, add_self, List.erase_cons_head, add, Function.update_idem, Function.update_eq_self]

/-- Putting the first leaf back in front undoes taking it out. -/
theorem add_remove_of_cons {rest : List Nat} (h : contents order = leaf :: rest) :
    (contents.remove order leaf).add order leaf = contents := by
  rw [add, remove_self, h, List.erase_cons_head, ← h, remove, Function.update_idem,
    Function.update_eq_self]

end Contents

/-- For every order, the lists hold the leaves of a plain list, in its order. -/
structure Holds (lists : FreeLists leaves) (contents : Contents) : Prop where
  /-- Every leaf has a word of its own. -/
  leaves_le : leaves ≤ LinkWord.maxLeaves
  /-- There are lists for some orders only. -/
  beyond : ∀ order, numOrders ≤ order → contents order = []
  lt : ∀ order, ∀ leaf ∈ contents order, leaf < leaves
  nodup : ∀ order, (contents order).Nodup
  apart : ∀ order other leaf, leaf ∈ contents order → leaf ∈ contents other → order = other
  head : ∀ order (h : order < numOrders),
    lists.heads[order] = LinkWord.ofLeaf? (contents order).head?
  len : ∀ order (h : order < numOrders), lists.lens[order] = (contents order).length
  link : ∀ order leaf (h : leaf < leaves), leaf ∈ contents order →
    lists.links[leaf] =
      ⟨.ofLeaf? (before (contents order) leaf), .ofLeaf? (after (contents order) leaf)⟩
  unlinked : ∀ leaf (h : leaf < leaves), (∀ order, leaf ∉ contents order) →
    lists.links[leaf] = Link.unlinked

/-! ## Stored leaves -/

theorem toNat_toUInt32 {leaf : Nat} (hle : leaves ≤ LinkWord.maxLeaves) (h : leaf < leaves) :
    leaf.toUInt32.toNat = leaf := by
  have hmax : LinkWord.maxLeaves = 2 ^ 32 - 1 := rfl
  rw [Nat.toUInt32_eq, UInt32.toNat_ofNat', Nat.mod_eq_of_lt (by omega)]

/-- The word of a leaf is not the one that stands for "no block". -/
theorem toUInt32_ne_nil {leaf : Nat} (hle : leaves ≤ LinkWord.maxLeaves) (h : leaf < leaves) :
    leaf.toUInt32 ≠ LinkWord.nil := by
  intro hnil
  have hnat := toNat_toUInt32 hle h
  rw [hnil] at hnat
  have hmax : LinkWord.maxLeaves = LinkWord.nil.toNat := rfl
  omega

@[simp] theorem ofLeaf?_none : LinkWord.ofLeaf? none = LinkWord.nil := rfl

@[simp] theorem ofLeaf?_some (leaf : Nat) : LinkWord.ofLeaf? (some leaf) = leaf.toUInt32 := rfl

/-- Only the absence of a leaf is stored as "no block". -/
theorem ofLeaf?_eq_nil (hle : leaves ≤ LinkWord.maxLeaves) {leaf? : Option Nat}
    (h : ∀ leaf, leaf? = some leaf → leaf < leaves) :
    LinkWord.ofLeaf? leaf? = LinkWord.nil ↔ leaf? = none := by
  cases leaf? with
  | none => simp [LinkWord.ofLeaf?]
  | some leaf => simpa [LinkWord.ofLeaf?] using toUInt32_ne_nil hle (h leaf rfl)

/-! ## Changing links -/

/-- The links after the link of an optional leaf has been changed. -/
def relink (links : Vector Link leaves) (leaf? : Option Nat) (change : Link → Link) :
    Vector Link leaves :=
  Vector.ofFn fun i => if leaf? = some i.val then change links[i] else links[i]

@[simp] theorem getElem_relink (links : Vector Link leaves) (leaf? : Option Nat)
    (change : Link → Link) {leaf : Nat} (h : leaf < leaves) :
    (relink links leaf? change)[leaf] =
      if leaf? = some leaf then change links[leaf] else links[leaf] := by
  simp [relink]

@[simp] theorem relink_none (links : Vector Link leaves) (change : Link → Link) :
    relink links none change = links := by
  ext i h
  all_goals simp

/-- Writing a changed link back is changing it. -/
theorem set_eq_relink (links : Vector Link leaves) {leaf : Nat} (h : leaf < leaves)
    (change : Link → Link) :
    links.set leaf (change links[leaf]) = relink links (some leaf) change := by
  apply Vector.ext
  intro i hi
  simp only [Vector.getElem_set, getElem_relink, Option.some.injEq]
  split
  · next heq => simp [heq]
  · rfl

/-- Changing the link of a leaf by its word. -/
theorem run_updateLink_leaf (hle : leaves ≤ LinkWord.maxLeaves) {leaf : Nat} (h : leaf < leaves)
    (change : Link → Link) (lists : FreeLists leaves) :
    (updateLink leaf.toUInt32 change).run lists =
      .ok () { lists with links := relink lists.links (some leaf) change } := by
  have hnat := toNat_toUInt32 hle h
  rw [run_updateLink (by rw [hnat]; exact h)]
  simp only [hnat, set_eq_relink]

/-- A link that may be missing is changed before the next step if it is there. -/
theorem run_updateLink_leaf? (hle : leaves ≤ LinkWord.maxLeaves) {leaf? : Option Nat}
    (h : ∀ leaf, leaf? = some leaf → leaf < leaves) (change : Link → Link)
    (next : Step (FreeLists leaves) Unit) (lists : FreeLists leaves) :
    (if LinkWord.ofLeaf? leaf? ≠ LinkWord.nil then do
        updateLink (LinkWord.ofLeaf? leaf?) change
        next
      else next).run lists =
      next.run { lists with links := relink lists.links leaf? change } := by
  cases leaf? with
  | none => simp [LinkWord.ofLeaf?]
  | some leaf =>
      rw [if_pos (by rw [ne_eq, ofLeaf?_eq_nil hle h]; simp), EStateM.run_bind]
      simp only [LinkWord.ofLeaf?, run_updateLink_leaf hle (h leaf rfl)]

variable {lists : FreeLists leaves} {contents : Contents}

/-! ## Reading -/

/-- No list has more leaves than there are. -/
theorem Holds.length_le (h : lists.Holds contents) (order : Nat) :
    (contents order).length ≤ leaves := by
  have hsub : (contents order).toFinset ⊆ Finset.range leaves := by
    intro leaf hmem
    exact Finset.mem_range.2 (h.lt order leaf (List.mem_toFinset.1 hmem))
  have hcard := Finset.card_le_card hsub
  rwa [List.toFinset_card_of_nodup (h.nodup order), Finset.card_range] at hcard

theorem Holds.head_eq (h : lists.Holds contents) {order : Nat} (horder : order < numOrders) :
    lists.head order = .ok (.ofLeaf? (contents order).head?) := by
  rw [FreeLists.head, dif_pos horder, h.head order horder]

theorem Holds.len_eq (h : lists.Holds contents) {order : Nat} (horder : order < numOrders) :
    lists.len order = .ok (contents order).length := by
  rw [FreeLists.len, dif_pos horder, h.len order horder]

/-- A list is found empty exactly when it holds nothing. -/
theorem Holds.isEmpty_eq (h : lists.Holds contents) {order : Nat} (horder : order < numOrders) :
    lists.isEmpty order = .ok (contents order).isEmpty := by
  rw [isEmpty, h.head_eq horder]
  cases hcontents : contents order with
  | nil => rfl
  | cons leaf rest =>
      have hne := toUInt32_ne_nil h.leaves_le (h.lt order leaf (by simp [hcontents]))
      simp [bind, Except.bind, pure, Except.pure, hne]

/-- Following the links from a leaf shows this leaf and the ones behind it. -/
theorem Holds.follow_eq (h : lists.Holds contents) {order : Nat} (shown rest : List Nat)
    (hsplit : contents order = shown ++ rest) {fuel : Nat} (hfuel : rest.length ≤ fuel) :
    lists.follow fuel (.ofLeaf? rest.head?) = rest := by
  -- The induction is on the part of the list that is still to be shown.
  induction rest generalizing shown fuel with
  | nil => cases fuel <;> simp [follow]
  | cons leaf rest ih =>
      obtain ⟨fuel, rfl⟩ : ∃ less, fuel = less + 1 :=
        ⟨fuel - 1, by simp only [List.length_cons] at hfuel; omega⟩
      have hmem : leaf ∈ contents order := by simp [hsplit]
      have hleaf := h.lt order leaf hmem
      have hafter : after (contents order) leaf = rest.head? := by
        rw [hsplit]
        exact after_append (hsplit ▸ h.nodup order)
      rw [List.head?_cons, ofLeaf?_some, follow, if_neg (toUInt32_ne_nil h.leaves_le hleaf)]
      simp only [FreeLists.link, toNat_toUInt32 h.leaves_le hleaf, dif_pos hleaf,
        h.link order leaf hleaf hmem, hafter]
      rw [ih (shown ++ [leaf]) (by simp [hsplit]) (by simpa using hfuel)]

/-- The contents are what following the links shows. -/
theorem Holds.toList_eq (h : lists.Holds contents) : lists.toList = contents := by
  funext order
  by_cases horder : order < numOrders
  · rw [toList, h.head_eq horder]
    exact h.follow_eq [] (contents order) rfl (h.length_le order)
  · rw [toList, FreeLists.head, dif_neg horder, h.beyond order (Nat.le_of_not_lt horder)]

/-- Lists with the same contents are the same, down to the links that are not used. -/
theorem Holds.unique {other : FreeLists leaves} (h : lists.Holds contents)
    (hother : other.Holds contents) : lists = other := by
  have hheads : lists.heads = other.heads := Vector.ext fun order horder => by
    rw [h.head order horder, hother.head order horder]
  have hlens : lists.lens = other.lens := Vector.ext fun order horder => by
    rw [h.len order horder, hother.len order horder]
  have hlinks : lists.links = other.links := Vector.ext fun leaf hleaf => by
    by_cases hmem : ∃ order, leaf ∈ contents order
    · obtain ⟨order, hmem⟩ := hmem
      rw [h.link order leaf hleaf hmem, hother.link order leaf hleaf hmem]
    · rw [h.unlinked leaf hleaf (not_exists.1 hmem), hother.unlinked leaf hleaf (not_exists.1 hmem)]
  cases lists
  cases other
  rw [FreeLists.mk.injEq]
  exact ⟨hheads, hlens, hlinks⟩

/-- Lists that were just created hold nothing. -/
theorem holds_empty (hle : leaves ≤ LinkWord.maxLeaves) :
    (empty leaves).Holds fun _ => [] where
  leaves_le := hle
  beyond _ _ := rfl
  lt _ _ hmem := absurd hmem List.not_mem_nil
  nodup _ := List.nodup_nil
  apart _ _ _ hmem := absurd hmem List.not_mem_nil
  head _ _ := by simp [empty]
  len _ _ := by simp [empty]
  link _ _ _ hmem := absurd hmem List.not_mem_nil
  unlinked _ _ _ := by simp [empty]

/-! ## Adding a block -/

/-- The lists after `leaf` was put in front of the list for `order`. -/
def pushed (lists : FreeLists leaves) (contents : Contents) (order leaf : Nat)
    (horder : order < numOrders) : FreeLists leaves where
  heads := lists.heads.set order leaf.toUInt32
  lens := lists.lens.set order ((contents order).length + 1)
  links := relink (relink lists.links (contents order).head? fun link =>
    { link with prev := leaf.toUInt32 }) (some leaf)
    fun _ => ⟨LinkWord.nil, .ofLeaf? (contents order).head?⟩

/-- Adding a leaf writes the head, the length and the links of the leaf and of the old head. -/
theorem run_push_eq (h : lists.Holds contents) {order leaf : Nat} (horder : order < numOrders)
    (hleaf : leaf < leaves) :
    (push order leaf).run lists = .ok () (pushed lists contents order leaf horder) := by
  have hhead : ∀ first, (contents order).head? = some first → first < leaves :=
    fun first hfirst => h.lt order first (List.mem_of_head? hfirst)
  have hlen : Word.add (contents order).length 1 = .ok ((contents order).length + 1) := by
    have hle := h.length_le order
    have hmax := h.leaves_le
    have hbound : LinkWord.maxLeaves + 1 < Word.bound := by decide
    rw [Word.add, if_pos (by omega)]
  simp only [push, EStateM.run_bind, EStateM.run_get, word, if_pos hleaf, run_liftM_ok,
    FreeLists.head, dif_pos horder, h.head order horder]
  rw [run_updateLink_leaf? h.leaves_le hhead]
  simp only [EStateM.run_bind, run_updateLink_leaf h.leaves_le hleaf, run_setHead horder]
  rw [run_updateLen horder (by simpa only [h.len order horder] using hlen)]
  rfl

/-- The lists to which a leaf was added hold it in front. -/
theorem Holds.pushed (h : lists.Holds contents) {order leaf : Nat} (horder : order < numOrders)
    (hleaf : leaf < leaves) (hfresh : ∀ other, leaf ∉ contents other) :
    (pushed lists contents order leaf horder).Holds (contents.add order leaf) where
  leaves_le := h.leaves_le
  beyond other hother := by
    rw [Contents.add_of_ne (by omega), h.beyond other hother]
  lt other x hx := by
    rcases Contents.mem_add.1 hx with ⟨rfl, -⟩ | hx
    · exact hleaf
    · exact h.lt other x hx
  nodup := Contents.nodup_add h.nodup (hfresh order)
  apart j k x hj hk := by
    rcases Contents.mem_add.1 hj with ⟨rfl, rfl⟩ | hj <;>
      rcases Contents.mem_add.1 hk with ⟨hx, hk⟩ | hk
    · exact hk.symm
    · exact absurd hk (hfresh k)
    · exact absurd (hx ▸ hj) (hfresh j)
    · exact h.apart j k x hj hk
  head other hother := by
    simp only [FreeLists.pushed, Vector.getElem_set]
    split
    · next heq => rw [← heq, Contents.add_self, List.head?_cons, ofLeaf?_some]
    · next hne => rw [Contents.add_of_ne (Ne.symm hne), h.head other hother]
  len other hother := by
    simp only [FreeLists.pushed, Vector.getElem_set]
    split
    · next heq => rw [← heq, Contents.add_self, List.length_cons]
    · next hne => rw [Contents.add_of_ne (Ne.symm hne), h.len other hother]
  link other x hx hmem := by
    simp only [FreeLists.pushed, getElem_relink, Option.some.injEq]
    rcases Contents.mem_add.1 hmem with ⟨rfl, rfl⟩ | hold
    · have hnodup := List.nodup_cons.2 ⟨hfresh other, h.nodup other⟩
      rw [if_pos rfl, Contents.add_self, before_head hnodup rfl, after, if_pos rfl, ofLeaf?_none]
    · have hne : x ≠ leaf := fun heq => hfresh other (heq ▸ hold)
      rw [if_neg hne.symm, h.link other x hx hold]
      by_cases hother : other = order
      · -- Only the link of the old head changes: the new block is in front of it.
        subst hother
        rw [Contents.add_self, before, after, if_neg hne]
        split <;> rfl
      · have hhead : (contents order).head? ≠ some x := fun hhead =>
          hother (h.apart other order x hold (List.mem_of_head? hhead))
        rw [if_neg hhead, Contents.add_of_ne hother]
  unlinked x hx hout := by
    have hne : leaf ≠ x := fun heq => hout order (Contents.mem_add.2 (.inl ⟨heq.symm, rfl⟩))
    have hold : ∀ other, x ∉ contents other := fun other hmem =>
      hout other (Contents.mem_add.2 (.inr hmem))
    have hhead : (contents order).head? ≠ some x := fun hhead =>
      hold order (List.mem_of_head? hhead)
    simp only [FreeLists.pushed, getElem_relink, Option.some.injEq]
    rw [if_neg hne, if_neg hhead, h.unlinked x hx hold]

/-- A leaf that is in no list is put in front of one. -/
theorem run_push (h : lists.Holds contents) {order leaf : Nat} (horder : order < numOrders)
    (hleaf : leaf < leaves) (hfresh : ∀ other, leaf ∉ contents other) :
    ∃ after, (push order leaf).run lists = .ok () after ∧
      after.Holds (contents.add order leaf) :=
  ⟨_, run_push_eq h horder hleaf, h.pushed horder hleaf hfresh⟩

/-! ## Taking a block out -/

/-- The lists after `leaf` was taken out of the list for `order`. -/
def removed (lists : FreeLists leaves) (contents : Contents) (order leaf : Nat)
    (horder : order < numOrders) : FreeLists leaves where
  heads :=
    if before (contents order) leaf = none then
      lists.heads.set order (.ofLeaf? (after (contents order) leaf))
    else lists.heads
  lens := lists.lens.set order ((contents order).length - 1)
  links := relink (relink (relink lists.links (before (contents order) leaf)
    fun link => { link with next := .ofLeaf? (after (contents order) leaf) })
    (after (contents order) leaf)
    fun link => { link with prev := .ofLeaf? (before (contents order) leaf) })
    (some leaf) fun _ => Link.unlinked

/-- Removing a leaf writes the length, its link, and what led to it from either side. -/
theorem run_remove_eq (h : lists.Holds contents) {order leaf : Nat} (horder : order < numOrders)
    (hmem : leaf ∈ contents order) :
    (remove order leaf).run lists = .ok () (removed lists contents order leaf horder) := by
  have hleaf := h.lt order leaf hmem
  have hnat := toNat_toUInt32 h.leaves_le hleaf
  have hbefore : ∀ x, before (contents order) leaf = some x → x < leaves :=
    fun x hx => h.lt order x (mem_of_before hx).2
  have hafter : ∀ x, after (contents order) leaf = some x → x < leaves :=
    fun x hx => h.lt order x (mem_of_after hx).2
  have hlen : Word.sub (contents order).length 1 = .ok ((contents order).length - 1) := by
    have hpos := List.length_pos_of_mem hmem
    rw [Word.sub, if_pos (by omega)]
  simp only [remove, EStateM.run_bind, EStateM.run_get, word, if_pos hleaf, run_liftM_ok,
    FreeLists.link, hnat, dif_pos hleaf, h.link order leaf hleaf hmem]
  cases hfront : before (contents order) leaf with
  | none =>
      -- The block is the head of its list, so the head moves on.
      have hhead := (before_eq_none_iff (h.nodup order) hmem).1 hfront
      rw [if_pos (by rfl)]
      simp only [EStateM.run_bind, EStateM.run_get, FreeLists.head, dif_pos horder, run_liftM_ok,
        h.head order horder, hhead, ofLeaf?_some, Checked.require, if_true, run_setHead horder]
      rw [run_updateLink_leaf? h.leaves_le hafter]
      simp only [EStateM.run_bind, run_updateLink_leaf h.leaves_le hleaf]
      rw [run_updateLen horder (by simpa only [h.len order horder] using hlen)]
      simp [removed, hfront]
  | some front =>
      -- The head stays, and the link of the block in front is changed instead.
      have hlt := hbefore front hfront
      rw [if_neg (by rw [ofLeaf?_eq_nil h.leaves_le (by simpa using hlt)]; simp)]
      simp only [EStateM.run_bind, ofLeaf?_some, run_updateLink_leaf h.leaves_le hlt]
      rw [run_updateLink_leaf? h.leaves_le hafter]
      simp only [EStateM.run_bind, run_updateLink_leaf h.leaves_le hleaf]
      rw [run_updateLen horder (by simpa only [h.len order horder] using hlen)]
      simp [removed, hfront]

/-- The lists from which a leaf was removed hold the others, in the same order. -/
theorem Holds.removed (h : lists.Holds contents) {order leaf : Nat} (horder : order < numOrders)
    (hmem : leaf ∈ contents order) :
    (removed lists contents order leaf horder).Holds (contents.remove order leaf) where
  leaves_le := h.leaves_le
  beyond other hother := by
    rw [Contents.remove_of_ne (by omega), h.beyond other hother]
  lt other x hx := h.lt other x ((Contents.mem_remove (h.nodup order)).1 hx).1
  nodup := Contents.nodup_remove h.nodup
  apart j k x hj hk :=
    h.apart j k x ((Contents.mem_remove (h.nodup order)).1 hj).1
      ((Contents.mem_remove (h.nodup order)).1 hk).1
  head other hother := by
    simp only [FreeLists.removed]
    by_cases heq : other = order
    · subst heq
      have hfront := before_eq_none_iff (h.nodup other) hmem
      rw [Contents.remove_self, head?_erase]
      by_cases hhead : (contents other).head? = some leaf
      · simp only [hfront.2 hhead, hhead, if_true, Vector.getElem_set_self]
      · simp only [hfront, hhead, if_false, h.head other hother]
    · rw [Contents.remove_of_ne heq, ← h.head other hother]
      split
      · rw [Vector.getElem_set_ne _ _ (Ne.symm heq)]
      · rfl
  len other hother := by
    simp only [FreeLists.removed, Vector.getElem_set]
    split
    · next heq => rw [← heq, Contents.remove_self, List.length_erase_of_mem hmem]
    · next hne => rw [Contents.remove_of_ne (Ne.symm hne), h.len other hother]
  link other x hx hstill := by
    obtain ⟨hold, hne⟩ := (Contents.mem_remove (h.nodup order)).1 hstill
    simp only [FreeLists.removed, getElem_relink, Option.some.injEq]
    by_cases hother : other = order
    · -- The neighbours of the block are linked with one another.
      subst hother
      have hne : x ≠ leaf := fun heq => hne ⟨heq, rfl⟩
      have hfront := after_eq_some_iff (h.nodup other) (x := leaf) (y := x)
      have hback := after_eq_some_iff (h.nodup other) (x := x) (y := leaf)
      rw [if_neg hne.symm, h.link other x hx hold, Contents.remove_self,
        before_erase (h.nodup other) hne, after_erase (h.nodup other) hne]
      simp only [hback, ← hfront]
      split <;> split <;> rfl
    · have hleaf : leaf ≠ x := fun heq => hother (h.apart other order x hold (heq ▸ hmem))
      have hbefore : before (contents order) leaf ≠ some x := fun heq =>
        hother (h.apart other order x hold (mem_of_before heq).2)
      have hafter : after (contents order) leaf ≠ some x := fun heq =>
        hother (h.apart other order x hold (mem_of_after heq).2)
      rw [if_neg hleaf, if_neg hbefore, if_neg hafter, Contents.remove_of_ne hother,
        h.link other x hx hold]
  unlinked x hx hout := by
    simp only [FreeLists.removed, getElem_relink, Option.some.injEq]
    split
    · rfl
    · next hne =>
        have hold : ∀ other, x ∉ contents other := fun other hmem =>
          hout other ((Contents.mem_remove (h.nodup order)).2
            ⟨hmem, fun heq => hne heq.1.symm⟩)
        have hbefore : before (contents order) leaf ≠ some x := fun heq =>
          hold order (mem_of_before heq).2
        have hafter : after (contents order) leaf ≠ some x := fun heq =>
          hold order (mem_of_after heq).2
        rw [if_neg hafter, if_neg hbefore, h.unlinked x hx hold]

/-- A leaf is taken out of the list that it is in, wherever it is. -/
theorem run_remove (h : lists.Holds contents) {order leaf : Nat} (horder : order < numOrders)
    (hmem : leaf ∈ contents order) :
    ∃ after, (remove order leaf).run lists = .ok () after ∧
      after.Holds (contents.remove order leaf) :=
  ⟨_, run_remove_eq h horder hmem, h.removed horder hmem⟩

/-- Taking the first block off a list that is not empty. -/
theorem run_pop (h : lists.Holds contents) {order leaf : Nat} {rest : List Nat}
    (horder : order < numOrders) (hcons : contents order = leaf :: rest) :
    ∃ after, (pop order).run lists = .ok (some leaf) after ∧
      after.Holds (contents.remove order leaf) := by
  have hmem : leaf ∈ contents order := by simp [hcons]
  have hleaf := h.lt order leaf hmem
  obtain ⟨after, hrun, hafter⟩ := run_remove h horder hmem
  refine ⟨after, ?_, hafter⟩
  simp only [pop, EStateM.run_bind, EStateM.run_get, h.head_eq horder, hcons, List.head?_cons,
    ofLeaf?_some, run_liftM_ok, if_neg (toUInt32_ne_nil h.leaves_le hleaf),
    toNat_toUInt32 h.leaves_le hleaf, hrun, EStateM.run_pure]

end FreeLists

end BuddySystem
