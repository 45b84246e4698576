import BuddySystem.Proofs.FreeLists
import BuddySystem.Proofs.Storage

/-!
# Lists threaded through links

All lists share the links of the leaves. `FreeLists.Threads` says what is seen of them without
knowing how they came about: the links lead from the head of each list through its leaves to the
end, `prev` undoes `next`, and a leaf that is in no list has no neighbours.

`threads_run` says that the links thread plain lists whatever is added and taken out, as long as a
leaf is added only while it is in no list, and taken out of the list that it is in. The invariant is
`FreeLists.Holds`: a single call preserves it (`Holds.perform`), and it shows all of this
(`Holds.threads`).
-/

namespace BuddySystem

open FreeLists Neighbours

namespace ListsCall

/-- Whether a call may be made while the lists hold these contents. -/
def Allowed (leaves : Nat) (contents : Contents) : ListsCall → Prop
  | .create => 0 < leaves ∧ leaves ≤ LinkWord.maxLeaves
  | .push order leaf => order < numOrders ∧ leaf < leaves ∧ ∀ other, leaf ∉ contents other
  | .remove order leaf => order < numOrders ∧ leaf ∈ contents order
  | .pop order => order < numOrders

/-- What a call makes of plain lists, and its answer. -/
def apply (contents : Contents) : ListsCall → Option Nat × Contents
  | .create => (none, fun _ => [])
  | .push order leaf => (none, contents.add order leaf)
  | .remove order leaf => (none, contents.remove order leaf)
  | .pop order =>
      ((contents order).head?, Function.update contents order (contents order).tail)

/-- Whether calls may be made one after the other. -/
def AllAllowed (leaves : Nat) : Contents → List ListsCall → Prop
  | _, [] => True
  | contents, call :: calls =>
      call.Allowed leaves contents ∧ AllAllowed leaves (call.apply contents).2 calls

/-- What calls make of plain lists, one after the other, and their answers. -/
def applyAll : Contents → List ListsCall → List (Option Nat) × Contents
  | contents, [] => ([], contents)
  | contents, call :: calls =>
      let (answer, between) := call.apply contents
      let (answers, after) := applyAll between calls
      (answer :: answers, after)

end ListsCall

namespace FreeLists

variable {leaves : Nat}

/-- Following the links from a word visits these leaves, and no block comes after them. -/
inductive Leads (lists : FreeLists leaves) : LinkWord → List Nat → Prop
  | nil : Leads lists LinkWord.nil []
  | cons {word : LinkWord} {link : Link} {rest : List Nat} (hword : word ≠ LinkWord.nil)
      (hlink : lists.link word = .ok link) (hrest : Leads lists link.next rest) :
      Leads lists word (word.toNat :: rest)

/-- Taking a leaf out fails when it turns out that it is not the head of the list, and by then
nothing has changed. -/
def FailsAtHead (lists : FreeLists leaves) (order leaf : Nat) : Prop :=
  ∃ word next first, lists.word leaf = .ok word ∧ lists.link word = .ok ⟨LinkWord.nil, next⟩ ∧
    lists.head order = .ok first ∧ first ≠ word ∧
    (remove order leaf).run lists = .error .violated lists

/-- The links thread a plain list of leaves for every order. -/
structure Threads (lists : FreeLists leaves) (contents : Contents) : Prop where
  leads : ∀ order < numOrders, ∃ first,
    lists.head order = .ok first ∧ lists.Leads first (contents order)
  /-- No leaf is visited twice, in one list or in two. -/
  nodup : ∀ order, (contents order).Nodup
  apart : ∀ order other leaf, leaf ∈ contents order → leaf ∈ contents other → order = other
  /-- Of any two leaves, the first leads on to the second if and only if that leads back to it. -/
  next_iff_prev : ∀ leaf other (hleaf : leaf < leaves) (hother : other < leaves),
    lists.links[leaf].next = other.toUInt32 ↔ lists.links[other].prev = leaf.toUInt32
  /-- Only the head of a list has nothing before it. -/
  prev_eq_nil_iff : ∀ order leaf (horder : order < numOrders) (hleaf : leaf < leaves),
    leaf ∈ contents order →
      (lists.links[leaf].prev = LinkWord.nil ↔ lists.heads[order] = leaf.toUInt32)
  len_eq : ∀ order < numOrders, lists.len order = .ok (contents order).length
  isEmpty_eq : ∀ order < numOrders,
    lists.isEmpty order = .ok (decide ((contents order).length = 0))
  unlinked : ∀ leaf (hleaf : leaf < leaves), (∀ order, leaf ∉ contents order) →
    lists.links[leaf] = ⟨LinkWord.nil, LinkWord.nil⟩
  /-- A leaf that is in no list cannot be taken out of any. -/
  remove_absent : ∀ order leaf, order < numOrders → leaf < leaves →
    (∀ other, leaf ∉ contents other) → lists.FailsAtHead order leaf

variable {lists : FreeLists leaves} {contents : Contents} {order leaf other : Nat}

/-! ## What links show -/

/-- Only the word of a leaf stands for it. -/
theorem ofLeaf?_eq_toUInt32 (hle : leaves ≤ LinkWord.maxLeaves) (hleaf : leaf < leaves)
    {leaf? : Option Nat} (h : ∀ found, leaf? = some found → found < leaves) :
    LinkWord.ofLeaf? leaf? = leaf.toUInt32 ↔ leaf? = some leaf := by
  constructor
  · intro hword
    cases leaf? with
    | none => exact absurd hword.symm (toUInt32_ne_nil hle hleaf)
    | some found =>
        have hnat := congrArg UInt32.toNat hword
        rw [ofLeaf?_some, toNat_toUInt32 hle (h found rfl), toNat_toUInt32 hle hleaf] at hnat
        rw [hnat]
  · rintro rfl
    rfl

namespace Holds

/-- Following the links from a part of a list that goes on to its end visits this part. -/
theorem leads (h : lists.Holds contents) (shown rest : List Nat)
    (hsplit : contents order = shown ++ rest) :
    lists.Leads (.ofLeaf? rest.head?) rest := by
  induction rest generalizing shown with
  | nil => exact .nil
  | cons leaf rest ih =>
      have hmem : leaf ∈ contents order := by simp [hsplit]
      have hleaf := h.lt order leaf hmem
      have hnat := toNat_toUInt32 h.leaves_le hleaf
      have hafter : after (contents order) leaf = rest.head? := by
        rw [hsplit]
        exact after_append (hsplit ▸ h.nodup order)
      have hlink : lists.link leaf.toUInt32 =
          .ok ⟨.ofLeaf? (before (contents order) leaf), .ofLeaf? rest.head?⟩ := by
        simp only [FreeLists.link, hnat, dif_pos hleaf, h.link order leaf hleaf hmem, hafter]
      have hcons := Leads.cons (toUInt32_ne_nil h.leaves_le hleaf) hlink
        (ih (shown ++ [leaf]) (by simp [hsplit]))
      rwa [hnat] at hcons

/-- The link of a leaf leads to the leaf behind it in its list. -/
theorem next_eq_iff (h : lists.Holds contents) (hleaf : leaf < leaves) (hother : other < leaves) :
    lists.links[leaf].next = other.toUInt32 ↔
      ∃ order, after (contents order) leaf = some other := by
  by_cases hmem : ∃ order, leaf ∈ contents order
  · obtain ⟨order, hmem⟩ := hmem
    have hlt : ∀ found, after (contents order) leaf = some found → found < leaves :=
      fun found hfound => h.lt order found (mem_of_after hfound).2
    rw [h.link order leaf hleaf hmem, ofLeaf?_eq_toUInt32 h.leaves_le hother hlt]
    constructor
    · exact fun hafter => ⟨order, hafter⟩
    · intro hfound
      obtain ⟨found, hafter⟩ := hfound
      rwa [h.apart order found leaf hmem (mem_of_after hafter).1]
  · rw [h.unlinked leaf hleaf (not_exists.1 hmem)]
    refine iff_of_false (Ne.symm (toUInt32_ne_nil h.leaves_le hother)) ?_
    exact fun hfound => hmem (hfound.imp fun order hafter => (mem_of_after hafter).1)

/-- The link of a leaf leads back to the leaf in front of it in its list. -/
theorem prev_eq_iff (h : lists.Holds contents) (hleaf : leaf < leaves) (hother : other < leaves) :
    lists.links[other].prev = leaf.toUInt32 ↔
      ∃ order, before (contents order) other = some leaf := by
  by_cases hmem : ∃ order, other ∈ contents order
  · obtain ⟨order, hmem⟩ := hmem
    have hlt : ∀ found, before (contents order) other = some found → found < leaves :=
      fun found hfound => h.lt order found (mem_of_before hfound).2
    rw [h.link order other hother hmem, ofLeaf?_eq_toUInt32 h.leaves_le hleaf hlt]
    constructor
    · exact fun hbefore => ⟨order, hbefore⟩
    · intro hfound
      obtain ⟨found, hbefore⟩ := hfound
      rwa [h.apart order found other hmem (mem_of_before hbefore).1]
  · rw [h.unlinked other hother (not_exists.1 hmem)]
    refine iff_of_false (Ne.symm (toUInt32_ne_nil h.leaves_le hleaf)) ?_
    exact fun hfound => hmem (hfound.imp fun order hbefore => (mem_of_before hbefore).1)

/-- A list starts with the leaf that has nothing before it. -/
theorem prev_eq_nil_iff (h : lists.Holds contents) (horder : order < numOrders)
    (hleaf : leaf < leaves) (hmem : leaf ∈ contents order) :
    lists.links[leaf].prev = LinkWord.nil ↔ lists.heads[order] = leaf.toUInt32 := by
  rw [h.link order leaf hleaf hmem, h.head order horder,
    ofLeaf?_eq_nil h.leaves_le fun found hfound => h.lt order found (mem_of_before hfound).2,
    ofLeaf?_eq_toUInt32 h.leaves_le hleaf fun found hfound =>
      h.lt order found (List.mem_of_head? hfound)]
  exact before_eq_none_iff (h.nodup order) hmem

/-- A leaf that is in no list seems to be the head of one, and is found not to be. -/
theorem failsAtHead (h : lists.Holds contents) (horder : order < numOrders)
    (hleaf : leaf < leaves) (hout : ∀ other, leaf ∉ contents other) :
    lists.FailsAtHead order leaf := by
  have hword : lists.word leaf = .ok leaf.toUInt32 := if_pos hleaf
  have hlink : lists.link leaf.toUInt32 = .ok ⟨LinkWord.nil, LinkWord.nil⟩ := by
    simp only [FreeLists.link, toNat_toUInt32 h.leaves_le hleaf, dif_pos hleaf,
      h.unlinked leaf hleaf hout]
    rfl
  have hhead : LinkWord.ofLeaf? (contents order).head? ≠ leaf.toUInt32 := by
    intro heq
    rw [ofLeaf?_eq_toUInt32 h.leaves_le hleaf fun found hfound =>
      h.lt order found (List.mem_of_head? hfound)] at heq
    exact hout order (List.mem_of_head? heq)
  refine ⟨_, _, _, hword, hlink, h.head_eq horder, hhead, ?_⟩
  simp only [remove, EStateM.run_bind, EStateM.run_get, hword, hlink, h.head_eq horder,
    run_liftM_ok, if_true, Checked.require, if_neg hhead, run_liftM_error]

/-- Lists that hold their contents are threaded through them in both directions. -/
theorem threads (h : lists.Holds contents) : lists.Threads contents where
  leads order horder := ⟨_, h.head_eq horder, h.leads [] (contents order) rfl⟩
  nodup := h.nodup
  apart := h.apart
  next_iff_prev leaf other hleaf hother := by
    rw [h.next_eq_iff hleaf hother, h.prev_eq_iff hleaf hother]
    exact exists_congr fun order => after_eq_some_iff (h.nodup order)
  prev_eq_nil_iff _ _ horder hleaf hmem := h.prev_eq_nil_iff horder hleaf hmem
  len_eq _ horder := h.len_eq horder
  isEmpty_eq order horder := by
    rw [h.isEmpty_eq horder]
    cases contents order <;> rfl
  unlinked := h.unlinked
  remove_absent _ _ horder hleaf hout := h.failsAtHead horder hleaf hout

/-! ## Calls -/

/-- Taking the head off any list, also an empty one. -/
theorem perform_pop (h : lists.Holds contents) (horder : order < numOrders) :
    ∃ after, (pop order).run lists = .ok (contents order).head? after ∧
      after.Holds (Function.update contents order (contents order).tail) := by
  cases hcontents : contents order with
  | nil =>
      refine ⟨lists, ?_, ?_⟩
      · simp only [pop, EStateM.run_bind, EStateM.run_get, h.head_eq horder, hcontents,
          List.head?_nil, ofLeaf?_none, run_liftM_ok, if_true, EStateM.run_pure]
      · rw [List.tail_nil, ← hcontents, Function.update_eq_self]
        exact h
  | cons leaf rest =>
      obtain ⟨after, hrun, hafter⟩ := run_pop h horder hcontents
      rw [Contents.remove, hcontents, List.erase_cons_head] at hafter
      exact ⟨after, hrun, hafter⟩

/-- A call that may be made gives the answer of plain lists and leaves lists that hold theirs. -/
theorem perform (h : lists.Holds contents) {call : ListsCall}
    (hallowed : call.Allowed leaves contents) :
    ∃ after, call.perform.run lists = .ok (call.apply contents).1 after ∧
      after.Holds (call.apply contents).2 := by
  cases call with
  | create =>
      have hcreate := create_eq_ok hallowed
      refine ⟨empty leaves, ?_, holds_empty hallowed.2⟩
      simp only [ListsCall.perform, EStateM.run_bind, hcreate, run_liftM_ok, EStateM.run_set,
        EStateM.run_pure, ListsCall.apply]
  | push order leaf =>
      obtain ⟨horder, hleaf, hfresh⟩ := hallowed
      obtain ⟨after, hrun, hafter⟩ := run_push h horder hleaf hfresh
      refine ⟨after, ?_, hafter⟩
      simp only [ListsCall.perform, EStateM.run_bind, hrun, EStateM.run_pure, ListsCall.apply]
  | remove order leaf =>
      obtain ⟨horder, hmem⟩ := hallowed
      obtain ⟨after, hrun, hafter⟩ := run_remove h horder hmem
      refine ⟨after, ?_, hafter⟩
      simp only [ListsCall.perform, EStateM.run_bind, hrun, EStateM.run_pure, ListsCall.apply]
  | pop order => exact h.perform_pop hallowed

/-- Calls that may be made one after the other are answered as by plain lists. -/
theorem performAll (h : lists.Holds contents) {calls : List ListsCall}
    (hallowed : ListsCall.AllAllowed leaves contents calls) :
    ∃ after, (calls.mapM ListsCall.perform).run lists =
        .ok (ListsCall.applyAll contents calls).1 after ∧
      after.Holds (ListsCall.applyAll contents calls).2 := by
  induction calls generalizing lists contents with
  | nil => exact ⟨lists, rfl, h⟩
  | cons call calls ih =>
      obtain ⟨hfirst, hrest⟩ := hallowed
      obtain ⟨between, hrun, hbetween⟩ := h.perform hfirst
      obtain ⟨after, hruns, hafter⟩ := ih hbetween hrest
      refine ⟨after, ?_, hafter⟩
      simp only [List.mapM_cons, EStateM.run_bind, hrun, hruns, EStateM.run_pure,
        ListsCall.applyAll]

end Holds

/-- From new lists on, no call that may be made fails. The answers are those of plain lists, and the
links thread the plain lists in the end. -/
theorem threads_run {leaves : Nat} (hleaves : 0 < leaves ∧ leaves ≤ LinkWord.maxLeaves)
    {calls : List ListsCall} (hallowed : ListsCall.AllAllowed leaves (fun _ => []) calls) :
    ∃ start after, create leaves = .ok start ∧
      (calls.mapM ListsCall.perform).run start =
        .ok (ListsCall.applyAll (fun _ => []) calls).1 after ∧
      after.Threads (ListsCall.applyAll (fun _ => []) calls).2 := by
  obtain ⟨after, hrun, hafter⟩ := (holds_empty hleaves.2).performAll hallowed
  exact ⟨empty leaves, after, create_eq_ok hleaves, hrun, hafter.threads⟩

/-- Blocks in two lists among the most leaves that links can tell apart, the last leaf of all being
one of them. -/
theorem threads_run_most :
    let calls : List ListsCall :=
      [.push 1 0, .push 0 (2 ^ (32 : Nat) - 2), .push 1 4, .push 1 2, .remove 1 4, .pop 0, .pop 0]
    ListsCall.AllAllowed (2 ^ (32 : Nat) - 1) (fun _ => []) calls ∧
      ∃ start after, create (2 ^ (32 : Nat) - 1) = .ok start ∧
        (calls.mapM ListsCall.perform).run start =
          .ok [none, none, none, none, none, some (2 ^ (32 : Nat) - 2), none] after ∧
        after.Threads (ListsCall.applyAll (fun _ => []) calls).2 := by
  intro calls
  have hallowed : ListsCall.AllAllowed (2 ^ (32 : Nat) - 1) (fun _ => []) calls := by
    simp [calls, ListsCall.AllAllowed, ListsCall.Allowed, ListsCall.apply, Contents.mem_add,
      numOrders, Word.bits]
  exact ⟨hallowed, threads_run (by decide) hallowed⟩

end FreeLists

end BuddySystem
