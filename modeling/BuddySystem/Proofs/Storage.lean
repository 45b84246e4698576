import BuddySystem.Bitmap
import BuddySystem.FreeLists
import BuddySystem.Proofs.Step
import Mathlib.Logic.Function.Basic

/-!
# Bookkeeping behind a pointer

A bitmap and the links of free lists are kept in memory that only a pointer is known of. Nothing
tells where this memory ends, but the checks of the operations. Here are the operations on such
memory (`Storage`), which also keeps a record of the cells that are touched. They do what the
operations on bitmaps and free lists do, and touch no cell behind the ones that these have
(`BitmapCall.follows`, `ListsCall.follows`). So whatever is called, and with whatever arguments, no
other cell is ever touched (`Follows.extends_afterCalls`).
-/

namespace BuddySystem

/-- Cells of memory from a pointer on, with the numbers of those that were touched so far. -/
structure Storage (α : Type) where
  cells : Nat → α
  touched : List Nat

namespace Storage

variable {α : Type} {count : Nat}

/-- Reads a cell. -/
def load (index : Nat) : Step (Storage α) α := do
  modify fun storage => { storage with touched := storage.touched ++ [index] }
  return (← get).cells index

/-- Writes a cell. -/
def store (index : Nat) (cell : α) : Step (Storage α) Unit :=
  modify fun storage =>
    ⟨Function.update storage.cells index cell, storage.touched ++ [index]⟩

/-- Writes a number of cells, the first ones first. -/
def fill (cell : α) : Nat → Step (Storage α) Unit
  | 0 => return ()
  | count + 1 => do
      fill cell count
      store count cell

/-- The first cells. -/
def front (count : Nat) (storage : Storage α) : Vector α count :=
  Vector.ofFn fun i => storage.cells i

/-- Whether storage goes on from other storage with only its first cells touched. -/
structure Extends (count : Nat) (before after : Storage α) : Prop where
  touched : ∀ i ∈ after.touched, i ∈ before.touched ∨ i < count
  cells : ∀ i, count ≤ i → after.cells i = before.cells i

theorem Extends.refl (count : Nat) (storage : Storage α) : Extends count storage storage :=
  ⟨fun _ => .inl, fun _ _ => rfl⟩

theorem Extends.trans {before between after : Storage α} (h : Extends count before between)
    (hafter : Extends count between after) : Extends count before after where
  touched i hmem := (hafter.touched i hmem).elim (h.touched i) .inr
  cells i hle := (hafter.cells i hle).trans (h.cells i hle)

/-! ## Single cells -/

theorem run_load (index : Nat) (storage : Storage α) :
    (load index).run storage =
      .ok (storage.cells index) ⟨storage.cells, storage.touched ++ [index]⟩ := rfl

theorem run_store (index : Nat) (cell : α) (storage : Storage α) :
    (store index cell).run storage =
      .ok () ⟨Function.update storage.cells index cell, storage.touched ++ [index]⟩ := rfl

/-- Reading touches none but the first cells. -/
theorem extends_load {index : Nat} (h : index < count) (storage : Storage α) :
    Extends count storage ⟨storage.cells, storage.touched ++ [index]⟩ where
  touched i hmem := by
    rcases List.mem_append.1 hmem with hmem | hmem
    · exact .inl hmem
    · obtain rfl := List.mem_singleton.1 hmem
      exact .inr h
  cells _ _ := rfl

/-- Writing touches and changes none but the first cells. -/
theorem extends_store {index : Nat} (h : index < count) (cell : α) (storage : Storage α) :
    Extends count storage
      ⟨Function.update storage.cells index cell, storage.touched ++ [index]⟩ where
  touched := (extends_load h storage).touched
  cells _ hle := Function.update_of_ne (Nat.ne_of_gt (Nat.lt_of_lt_of_le h hle)) ..

/-- Filling writes its cells and no others. -/
theorem run_fill {filled : Nat} (h : filled ≤ count) (cell : α) (storage : Storage α) :
    ∃ after, (fill cell filled).run storage = .ok () after ∧ Extends count storage after ∧
      ∀ i < filled, after.cells i = cell := by
  induction filled with
  | zero => exact ⟨storage, rfl, .refl _ _, fun i hi => absurd hi (Nat.not_lt_zero i)⟩
  | succ filled ih =>
      obtain ⟨between, hrun, hextends, hcells⟩ := ih (Nat.le_of_succ_le h)
      refine ⟨_, by rw [fill, EStateM.run_bind, hrun]; exact run_store filled cell between,
        hextends.trans (extends_store h cell between), fun i hi => ?_⟩
      by_cases hlast : i = filled
      · subst hlast
        exact Function.update_self ..
      · exact (Function.update_of_ne hlast ..).trans (hcells i (by omega))

theorem getElem_front {i : Nat} (storage : Storage α) (h : i < count) :
    (storage.front count)[i] = storage.cells i := by
  rw [front, Vector.getElem_ofFn]

/-- Writing a cell is writing an entry. -/
theorem front_update {i : Nat} (storage : Storage α) (h : i < count) (cell : α)
    (touched : List Nat) :
    front count ⟨Function.update storage.cells i cell, touched⟩ =
      (storage.front count).set i cell := by
  refine Vector.ext fun j hj => ?_
  rw [getElem_front, Vector.getElem_set, getElem_front]
  by_cases hsame : i = j
  · subst hsame
    rw [if_pos rfl]
    exact Function.update_self ..
  · rw [if_neg hsame]
    exact Function.update_of_ne (Ne.symm hsame) ..

end Storage

open Storage

/-! ## Steps on storage -/

section

variable {α β γ σ τ : Type}

/-- A step does what another step does, as a view of the states shows it, and touches only the first
cells of a storage that the states hold. -/
structure Follows (view : τ → σ) (storageOf : τ → Storage γ) (count : Nat) (step : Step τ α)
    (followed : Step σ α) : Prop where
  mirrors : Mirrors view step followed
  contained : ∀ before,
    Extends count (storageOf before) (storageOf (stateOf (step.run before)))

namespace Follows

variable {view : τ → σ} {storageOf : τ → Storage γ} {count : Nat}

/-- A step follows another one if both agree at every state. -/
theorem of_forall {step : Step τ α} {followed : Step σ α}
    (h : ∀ before, viewed view (step.run before) = followed.run (view before) ∧
      Extends count (storageOf before) (storageOf (stateOf (step.run before)))) :
    Follows view storageOf count step followed :=
  ⟨fun before => (h before).1, fun before => (h before).2⟩

theorem pure (value : α) :
    Follows view storageOf count (Pure.pure value : Step τ α) (Pure.pure value) :=
  ⟨.pure view value, fun _ => .refl _ _⟩

theorem bind {step : Step τ α} {followed : Step σ α} {next : α → Step τ β}
    {following : α → Step σ β} (h : Follows view storageOf count step followed)
    (hnext : ∀ value, Follows view storageOf count (next value) (following value)) :
    Follows view storageOf count (step >>= next) (followed >>= following) where
  mirrors := h.mirrors.bind fun value => (hnext value).mirrors
  contained before := by
    have hstep := h.contained before
    rw [EStateM.run_bind]
    cases hrun : step.run before with
    | error fault after =>
        rw [hrun] at hstep
        exact hstep
    | ok value after =>
        rw [hrun] at hstep
        exact hstep.trans ((hnext value).contained after)

/-- A value that is checked, and does not depend on the state. -/
theorem lift (value : Checked α) :
    Follows view storageOf count (liftM value : Step τ α) (liftM value) := by
  cases value with
  | error fault => exact ⟨fun _ => rfl, fun _ => .refl _ _⟩
  | ok value => exact .pure value

/-- Looking at what the view shows. -/
theorem look {step : Step τ α} (other : σ → Checked α)
    (h : Follows view storageOf count step (do let value ← other (← get); return value))
    {next : α → Step τ β} {following : α → Step σ β}
    (hnext : ∀ value, Follows view storageOf count (next value) (following value)) :
    Follows view storageOf count (step >>= next)
      (do let value ← other (← get); following value) where
  mirrors := (h.bind hnext).mirrors
  contained := (h.bind hnext).contained

/-- Looking at a part of the state that is not in the storage. -/
theorem read (own : τ → Checked α) (other : σ → Checked α)
    (h : ∀ state, own state = other (view state)) {next : α → Step τ β}
    {following : α → Step σ β}
    (hnext : ∀ value, Follows view storageOf count (next value) (following value)) :
    Follows view storageOf count (do let value ← own (← get); next value)
      (do let value ← other (← get); following value) := by
  have hown : Follows view storageOf count (do let value ← own (← get); return value)
      (do let value ← other (← get); return value) := by
    refine .of_forall fun before => ?_
    simp only [EStateM.run_bind, EStateM.run_get, ← h]
    cases own before <;> exact ⟨rfl, .refl _ _⟩
  exact ⟨(look other hown hnext).mirrors, (look other hown hnext).contained⟩

/-- A step that checks first what the other step fails without. -/
theorem require {condition : Prop} [Decidable condition] {next : Step τ α} {followed : Step σ α}
    (hfails : ¬condition → ∀ state, followed.run state = .error .violated state)
    (h : condition → Follows view storageOf count next followed) :
    Follows view storageOf count (do Checked.require condition .violated; next) followed := by
  by_cases hcondition : condition
  · rw [Checked.require, if_pos hcondition]
    exact ⟨(h hcondition).mirrors, (h hcondition).contained⟩
  · rw [Checked.require, if_neg hcondition]
    exact ⟨fun before => (hfails hcondition (view before)).symm, fun _ => .refl _ _⟩

theorem ite (condition : Prop) [Decidable condition] {step next : Step τ α}
    {followed following : Step σ α} (h : Follows view storageOf count step followed)
    (hnext : Follows view storageOf count next following) :
    Follows view storageOf count (if condition then step else next)
      (if condition then followed else following) := by
  split
  · exact h
  · exact hnext

end Follows

/-- The state after a number of calls, whether or not they succeed. -/
def afterCalls {κ : Type} (step : κ → Step σ α) (before : σ) (calls : List κ) : σ :=
  calls.foldl (fun state call => stateOf ((step call).run state)) before

/-- What holds of single calls holds of any number of them. -/
theorem Follows.extends_afterCalls {κ : Type} {view : τ → σ} {storageOf : τ → Storage γ}
    {count : Nat} {step : κ → Step τ α} {followed : κ → Step σ α}
    (h : ∀ call, Follows view storageOf count (step call) (followed call)) (before : τ)
    (calls : List κ) :
    view (afterCalls step before calls) = afterCalls followed (view before) calls ∧
      Extends count (storageOf before) (storageOf (afterCalls step before calls)) := by
  induction calls generalizing before with
  | nil => exact ⟨rfl, .refl _ _⟩
  | cons call calls ih =>
      obtain ⟨hview, hextends⟩ := ih (stateOf ((step call).run before))
      have hstate : view (stateOf ((step call).run before)) =
          stateOf ((followed call).run (view before)) := by
        rw [← (h call).mirrors before]
        cases (step call).run before <;> rfl
      rw [hstate] at hview
      exact ⟨hview, ((h call).contained before).trans hextends⟩

end

/-! ## Bitmaps -/

/-- A call on a bitmap. -/
inductive BitmapCall where
  /-- Sets the bitmap up. -/
  | clear
  | read (index : Nat)
  | write (index : Nat) (value : Bool)
  | any

namespace BitmapCall

variable {bits : Nat}

/-- The call on a bitmap. -/
def perform : BitmapCall → Step (Bitmap bits) Bool
  | .clear => do
      set (← Bitmap.clear (← get).words)
      return false
  | .read index => do
      let value ← (← get).get index
      return value
  | .write index value => do
      set (← (← get).set index value)
      return false
  | .any => return (← get).any

/-- Whether any of `count` words from `first` on is not zero. Only the words up to the first such
word are read. -/
def anyFrom (first : Nat) : Nat → Step (Storage UInt64) Bool
  | 0 => return false
  | count + 1 => do
      if (← load first) != 0 then
        return true
      anyFrom (first + 1) count

/-- The call on a bitmap of which only a pointer and the number of its bits are known. -/
def raw (bits : Nat) : BitmapCall → Step (Storage UInt64) Bool
  | .clear => do
      Checked.require (0 < bits) .violated
      fill 0 (Bitmap.wordCount bits)
      return false
  | .read index => do
      Checked.require (index < bits) .violated
      return (← load (index / Word.bits)) &&& Bitmap.mask index != 0
  | .write index value => do
      Checked.require (index < bits) .violated
      let word ← load (index / Word.bits)
      store (index / Word.bits)
        (if value then word ||| Bitmap.mask index else word &&& ~~~Bitmap.mask index)
      return false
  | .any => anyFrom 0 (Bitmap.wordCount bits)

/-- The bitmap that the words show. -/
def shown (bits : Nat) (storage : Storage UInt64) : Bitmap bits :=
  ⟨storage.front _⟩

theorem getElem_shown {i : Nat} (storage : Storage UInt64) (h : i < Bitmap.wordCount bits) :
    (shown bits storage).words[i] = storage.cells i :=
  getElem_front storage h

/-- The search for a word that is not zero finds one if there is one. -/
theorem run_anyFrom {count limit : Nat} (first : Nat) (h : first + count ≤ limit)
    (storage : Storage UInt64) :
    ∃ found touched, (anyFrom first count).run storage = .ok found ⟨storage.cells, touched⟩ ∧
      Extends limit storage ⟨storage.cells, touched⟩ ∧
      (found = true ↔ ∃ i, first ≤ i ∧ i < first + count ∧ storage.cells i ≠ 0) := by
  induction count generalizing first storage with
  | zero =>
      refine ⟨false, storage.touched, rfl, .refl _ _, iff_of_false Bool.false_ne_true ?_⟩
      rintro ⟨i, hle, hlt, -⟩
      omega
  | succ count ih =>
      have hload := extends_load (show first < limit by omega) storage
      by_cases hcell : storage.cells first = 0
      · obtain ⟨found, touched, hrun, hextends, hfound⟩ := ih (first + 1) (by omega)
          ⟨storage.cells, storage.touched ++ [first]⟩
        refine ⟨found, touched, ?_, hload.trans hextends, hfound.trans ?_⟩
        · rw [anyFrom, EStateM.run_bind, run_load]
          simp only [hcell, bne_self_eq_false, Bool.false_eq_true, if_false]
          exact hrun
        · constructor
          · rintro ⟨i, hle, hlt, hne⟩
            exact ⟨i, by omega, by omega, hne⟩
          · rintro ⟨i, hle, hlt, hne⟩
            have hfirst : i ≠ first := fun heq => hne (heq ▸ hcell)
            exact ⟨i, by omega, by omega, hne⟩
      · refine ⟨true, _, ?_, hload, iff_of_true rfl ⟨first, Nat.le_refl _, by omega, hcell⟩⟩
        rw [anyFrom, EStateM.run_bind, run_load]
        simp [hcell]

/-- Clearing the bits behind a pointer clears the bitmap. -/
theorem follows_clear (bits : Nat) :
    Follows (shown bits) id (Bitmap.wordCount bits) (clear.raw bits) clear.perform := by
  refine .require (fun h state => ?_) fun h => .of_forall fun before => ?_
  · have hclear : Bitmap.clear state.words = .error .violated := by
      rw [Bitmap.clear, Checked.require, if_neg h]
      rfl
    simp only [perform, EStateM.run_bind, EStateM.run_get, hclear, run_liftM_error]
  · obtain ⟨after, hrun, hextends, hcells⟩ :=
      run_fill (Nat.le_refl (Bitmap.wordCount bits)) 0 before
    have hclear : Bitmap.clear (shown bits before).words = .ok (shown bits after) := by
      rw [Bitmap.clear, Checked.require, if_pos h]
      refine congrArg (Except.ok <| Bitmap.mk ·) (Vector.ext fun i hi => ?_)
      rw [Vector.getElem_map, getElem_front, hcells i hi]
    simp only [perform, EStateM.run_bind, EStateM.run_get, EStateM.run_set, EStateM.run_pure,
      run_liftM_ok, hrun, hclear]
    exact ⟨rfl, hextends⟩

/-- Reading a bit behind a pointer reads the bit of the bitmap. -/
theorem follows_read (bits index : Nat) :
    Follows (shown bits) id (Bitmap.wordCount bits) ((read index).raw bits)
      (read index).perform := by
  refine .require (fun h state => ?_) fun h => .of_forall fun before => ?_
  · have hget : state.get index = .error .violated := dif_neg h
    simp only [perform, EStateM.run_bind, EStateM.run_get, hget, run_liftM_error]
  · have hword := Bitmap.div_lt_wordCount h
    have hget : (shown bits before).get index =
        .ok (before.cells (index / Word.bits) &&& Bitmap.mask index != 0) := by
      rw [Bitmap.get, dif_pos h]
      dsimp only
      rw [getElem_shown before hword]
    simp only [perform, EStateM.run_bind, EStateM.run_get, EStateM.run_pure, run_liftM_ok,
      run_load, hget]
    exact ⟨rfl, extends_load hword before⟩

/-- Writing a bit behind a pointer writes the bit of the bitmap. -/
theorem follows_write (bits index : Nat) (value : Bool) :
    Follows (shown bits) id (Bitmap.wordCount bits) ((write index value).raw bits)
      (write index value).perform := by
  refine .require (fun h state => ?_) fun h => .of_forall fun before => ?_
  · have hset : state.set index value = .error .violated := dif_neg h
    simp only [perform, EStateM.run_bind, EStateM.run_get, hset, run_liftM_error]
  · have hword := Bitmap.div_lt_wordCount h
    have hset : (shown bits before).set index value = .ok (shown bits
        ⟨Function.update before.cells (index / Word.bits) (if value then
            before.cells (index / Word.bits) ||| Bitmap.mask index else
            before.cells (index / Word.bits) &&& ~~~Bitmap.mask index),
          before.touched ++ [index / Word.bits] ++ [index / Word.bits]⟩) := by
      rw [Bitmap.set, dif_pos h]
      dsimp only
      rw [getElem_shown before hword, shown, shown, front_update before hword]
    simp only [perform, EStateM.run_bind, EStateM.run_get, EStateM.run_set, EStateM.run_pure,
      run_liftM_ok, run_load, run_store, hset]
    exact ⟨rfl, (extends_load hword before).trans (extends_store hword _ _)⟩

/-- Looking for a set bit behind a pointer looks for one in the bitmap. -/
theorem follows_any (bits : Nat) :
    Follows (shown bits) id (Bitmap.wordCount bits) (any.raw bits) any.perform := by
  refine .of_forall fun before => ?_
  obtain ⟨found, touched, hrun, hextends, hfound⟩ :=
    run_anyFrom 0 (Nat.le_of_eq (Nat.zero_add (Bitmap.wordCount bits))) before
  have hany : (shown bits before).any = found := by
    rw [Bool.eq_iff_iff, hfound, Bitmap.any, Vector.any_iff_exists]
    simp only [bne_iff_ne, Nat.zero_add, Nat.zero_le, true_and]
    constructor
    · rintro ⟨i, hi, hne⟩
      exact ⟨i, hi, by rwa [getElem_shown before hi] at hne⟩
    · rintro ⟨i, hi, hne⟩
      exact ⟨i, hi, by rwa [getElem_shown before hi]⟩
  rw [raw, hrun, perform, EStateM.run_bind, EStateM.run_get]
  dsimp only
  rw [EStateM.run_pure, hany]
  exact ⟨rfl, hextends⟩

/-- A call on a bitmap behind a pointer does what it does on the bitmap, and touches none but the
words of the bitmap. -/
theorem follows (bits : Nat) (call : BitmapCall) :
    Follows (shown bits) id (Bitmap.wordCount bits) (call.raw bits) call.perform := by
  cases call with
  | clear => exact follows_clear bits
  | read index => exact follows_read bits index
  | write index value => exact follows_write bits index value
  | any => exact follows_any bits

end BitmapCall

/-! ## Free lists -/

/-- Free lists whose links are behind a pointer. -/
structure RawLists where
  heads : Vector LinkWord FreeLists.numOrders
  lens : Vector Nat FreeLists.numOrders
  links : Storage Link

namespace RawLists

variable {leaves : Nat}

/-- The memory behind the pointer. -/
def slots : Focus RawLists (Storage Link) :=
  ⟨RawLists.links, fun links lists => { lists with links }⟩

/-- The free lists that the links show. -/
def shown (leaves : Nat) (lists : RawLists) : FreeLists leaves :=
  ⟨lists.heads, lists.lens, lists.links.front leaves⟩

-- These are the operations of free lists, with the links behind the pointer.

def head (lists : RawLists) (order : Nat) : Checked LinkWord :=
  if h : order < FreeLists.numOrders then .ok lists.heads[order] else .error .outOfRange

def word (leaves : Nat) (_lists : RawLists) (leaf : Nat) : Checked LinkWord :=
  if leaf < leaves then .ok leaf.toUInt32 else .error .violated

def link (leaves : Nat) (leaf : LinkWord) : Step RawLists Link := do
  Checked.require (leaf.toNat < leaves) .violated
  slots.run (load leaf.toNat)

def setHead (order : Nat) (leaf : LinkWord) : Step RawLists Unit := fun lists =>
  if h : order < FreeLists.numOrders then
    .ok () { lists with heads := lists.heads.set order leaf }
  else
    .error .outOfRange lists

def updateLen (order : Nat) (change : Nat → Checked Nat) : Step RawLists Unit := fun lists =>
  if h : order < FreeLists.numOrders then
    match change lists.lens[order] with
    | .ok len => .ok () { lists with lens := lists.lens.set order len }
    | .error fault => .error fault lists
  else
    .error .outOfRange lists

def updateLink (leaves : Nat) (leaf : LinkWord) (change : Link → Link) : Step RawLists Unit := do
  Checked.require (leaf.toNat < leaves) .violated
  let link ← slots.run (load leaf.toNat)
  slots.run (store leaf.toNat (change link))

/-- Sets empty lists up. -/
def create (leaves : Nat) : Step RawLists Unit := do
  Checked.require (0 < leaves ∧ leaves ≤ LinkWord.maxLeaves) .violated
  slots.run (fill Link.unlinked leaves)
  modify fun lists =>
    ⟨Vector.replicate _ LinkWord.nil, Vector.replicate _ 0, lists.links⟩

def push (leaves order leaf : Nat) : Step RawLists Unit := do
  let added ← (← get).word leaves leaf
  let oldHead ← (← get).head order
  if oldHead ≠ LinkWord.nil then
    updateLink leaves oldHead fun link => { link with prev := added }
  updateLink leaves added fun _ => ⟨LinkWord.nil, oldHead⟩
  setHead order added
  updateLen order (Word.add · 1)

def remove (leaves order leaf : Nat) : Step RawLists Unit := do
  let removed ← (← get).word leaves leaf
  let ⟨prev, next⟩ ← link leaves removed
  if prev = LinkWord.nil then
    Checked.require ((← (← get).head order) = removed) .violated
    setHead order next
  else
    updateLink leaves prev fun link => { link with next }
  if next ≠ LinkWord.nil then
    updateLink leaves next fun link => { link with prev }
  updateLink leaves removed fun _ => Link.unlinked
  updateLen order (Word.sub · 1)

def pop (leaves order : Nat) : Step RawLists (Option Nat) := do
  let first ← (← get).head order
  if first = LinkWord.nil then
    return none
  remove leaves order first.toNat
  return some first.toNat

/-! ### Single links -/

/-- Reading a link behind a pointer reads the link of the lists. -/
theorem follows_link (leaf : LinkWord) :
    Follows (shown leaves) RawLists.links leaves (link leaves leaf)
      (do let link ← (← get).link leaf; return link) := by
  refine .require (fun h state => ?_) fun h => .of_forall fun before => ?_
  · have hlink : state.link leaf = .error .violated := dif_neg h
    simp only [EStateM.run_bind, EStateM.run_get, hlink, run_liftM_error]
  · have hlink : (shown leaves before).link leaf = .ok (before.links.cells leaf.toNat) := by
      rw [FreeLists.link, dif_pos h]
      exact congrArg Except.ok (getElem_front before.links h)
    simp only [EStateM.run_bind, EStateM.run_get, run_liftM_ok, Focus.run_run, run_load, slots,
      hlink]
    exact ⟨rfl, extends_load h before.links⟩

/-- Changing a link behind a pointer changes the link of the lists. -/
theorem follows_updateLink (leaf : LinkWord) (change : Link → Link) :
    Follows (shown leaves) RawLists.links leaves (updateLink leaves leaf change)
      (FreeLists.updateLink leaf change) := by
  refine .require (fun h state => dif_neg h) fun h => .of_forall fun before => ?_
  have hlinks : (before.links.front leaves).set leaf.toNat
      (change (before.links.front leaves)[leaf.toNat]) = front leaves
        ⟨Function.update before.links.cells leaf.toNat
            (change (before.links.cells leaf.toNat)),
          before.links.touched ++ [leaf.toNat] ++ [leaf.toNat]⟩ := by
    rw [front_update before.links h, getElem_front before.links h]
  rw [FreeLists.run_updateLink h]
  simp only [EStateM.run_bind, Focus.run_run, run_load, run_store, slots, viewed, shown, hlinks]
  exact ⟨trivial, (extends_load h before.links).trans (extends_store h _ _)⟩

theorem follows_setHead (order : Nat) (leaf : LinkWord) :
    Follows (shown leaves) RawLists.links leaves (setHead order leaf)
      (FreeLists.setHead order leaf) := by
  refine .of_forall fun before => ?_
  simp only [EStateM.run, setHead, FreeLists.setHead]
  split
  · exact ⟨rfl, .refl _ _⟩
  · exact ⟨rfl, .refl _ _⟩

/-- The length of a list is changed without touching a link. -/
theorem follows_updateLen (order : Nat) (change : Nat → Checked Nat) :
    Follows (shown leaves) RawLists.links leaves (updateLen order change)
      (FreeLists.updateLen order change) := by
  refine .of_forall fun before => ?_
  simp only [EStateM.run, updateLen, FreeLists.updateLen, shown]
  split
  · cases change _ <;> exact ⟨rfl, .refl _ _⟩
  · exact ⟨rfl, .refl _ _⟩

/-! ### Adding and removing blocks -/

/-- Setting up the links behind a pointer sets up empty lists. -/
theorem follows_create (leaves : Nat) :
    Follows (shown leaves) RawLists.links leaves (do create leaves; return (none : Option Nat))
      (do set (← FreeLists.create leaves); return none) := by
  refine .of_forall fun before => ?_
  by_cases h : 0 < leaves ∧ leaves ≤ LinkWord.maxLeaves
  · obtain ⟨after, hrun, hextends, hcells⟩ :=
      run_fill (Nat.le_refl leaves) Link.unlinked before.links
    have hcreate := FreeLists.create_eq_ok h
    have hlinks : after.front leaves = Vector.replicate _ Link.unlinked :=
      Vector.ext fun i hi => by rw [getElem_front, Vector.getElem_replicate, hcells i hi]
    simp only [create, EStateM.run_bind, Checked.require, if_pos h, run_liftM_ok, Focus.run_run,
      slots, hrun, EStateM.run_modify, hcreate, EStateM.run_set, EStateM.run_pure, viewed, shown,
      hlinks]
    exact ⟨rfl, hextends⟩
  · have hcreate : FreeLists.create leaves = .error .violated := by
      rw [FreeLists.create, Checked.require, if_neg h]
      rfl
    simp only [create, EStateM.run_bind, Checked.require, if_neg h, run_liftM_error, hcreate]
    exact ⟨rfl, .refl _ _⟩

/-- Adding a leaf by the links behind a pointer adds it to the lists. -/
theorem follows_push (order leaf : Nat) :
    Follows (shown leaves) RawLists.links leaves (push leaves order leaf)
      (FreeLists.push order leaf) := by
  refine .read (word leaves · leaf) (FreeLists.word · leaf) (fun _ => rfl) fun added => ?_
  refine .read (head · order) (FreeLists.head · order) (fun _ => rfl) fun oldHead => ?_
  have hrest := (@follows_updateLink leaves added fun _ => ⟨LinkWord.nil, oldHead⟩).bind
    fun _ => (follows_setHead order added).bind fun _ => follows_updateLen order (Word.add · 1)
  exact .ite _ ((follows_updateLink oldHead _).bind fun _ => hrest) hrest

/-- Removing a leaf by the links behind a pointer removes it from the lists. -/
theorem follows_remove (order leaf : Nat) :
    Follows (shown leaves) RawLists.links leaves (remove leaves order leaf)
      (FreeLists.remove order leaf) := by
  refine .read (word leaves · leaf) (FreeLists.word · leaf) (fun _ => rfl) fun removed => ?_
  refine .look (FreeLists.link · removed) (follows_link removed) fun link => ?_
  have hlast := (@follows_updateLink leaves removed fun _ => Link.unlinked).bind
    fun _ => follows_updateLen order (Word.sub · 1)
  have hrest := Follows.ite (link.next ≠ LinkWord.nil)
    ((follows_updateLink link.next fun other => { other with prev := link.prev }).bind
      fun _ => hlast) hlast
  refine .ite _ ?_ ((follows_updateLink link.prev _).bind fun _ => hrest)
  refine .read (head · order) (FreeLists.head · order) (fun _ => rfl) fun first => ?_
  exact (Follows.lift _).bind fun _ => (follows_setHead order link.next).bind fun _ => hrest

/-- Taking a leaf by the links behind a pointer takes it from the lists. -/
theorem follows_pop (order : Nat) :
    Follows (shown leaves) RawLists.links leaves (pop leaves order) (FreeLists.pop order) := by
  refine .read (head · order) (FreeLists.head · order) (fun _ => rfl) fun first => ?_
  exact .ite _ (.pure none) ((follows_remove order first.toNat).bind fun _ => .pure _)

end RawLists

/-- A call on free lists. -/
inductive ListsCall where
  /-- Sets the lists up. -/
  | create
  | push (order leaf : Nat)
  | remove (order leaf : Nat)
  | pop (order : Nat)

namespace ListsCall

variable {leaves : Nat}

/-- The call on free lists. -/
def perform : ListsCall → Step (FreeLists leaves) (Option Nat)
  | .create => do
      set (← FreeLists.create leaves)
      return none
  | .push order leaf => do
      FreeLists.push order leaf
      return none
  | .remove order leaf => do
      FreeLists.remove order leaf
      return none
  | .pop order => FreeLists.pop order

/-- The call on free lists of which only a pointer to the links and their number are known. -/
def raw (leaves : Nat) : ListsCall → Step RawLists (Option Nat)
  | .create => do
      RawLists.create leaves
      return none
  | .push order leaf => do
      RawLists.push leaves order leaf
      return none
  | .remove order leaf => do
      RawLists.remove leaves order leaf
      return none
  | .pop order => RawLists.pop leaves order

/-- A call on free lists behind a pointer does what it does on the lists, and touches none but their
links. -/
theorem follows (leaves : Nat) (call : ListsCall) :
    Follows (RawLists.shown leaves) RawLists.links leaves (call.raw leaves) call.perform := by
  cases call with
  | create => exact RawLists.follows_create leaves
  | push order leaf => exact (RawLists.follows_push order leaf).bind fun _ => .pure none
  | remove order leaf => exact (RawLists.follows_remove order leaf).bind fun _ => .pure none
  | pop order => exact RawLists.follows_pop order

end ListsCall

end BuddySystem
