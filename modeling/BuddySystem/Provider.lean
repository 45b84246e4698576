import BuddySystem.Error
import BuddySystem.Focus
import BuddySystem.Span

/-!
# Providers of memory

A provider is anything that memory can be obtained from and given back to: the heap, the
operating system, or an arena. Its state may be of any type. New providers are made from old
ones: `Provider.forwarded` passes every call on, `Provider.counted` counts the calls,
`Provider.recorded` writes them down, `Provider.limited` refuses large requests, and
`Provider.within` acts on a part of a larger state.
-/

namespace BuddySystem

/-- A source of memory with a state of type `σ`. -/
structure Provider (σ : Type) where
  /-- Asks for a number of bytes with an alignment. Nothing is the answer to a request that is
  refused. -/
  allocate : Nat → Nat → Call σ (Option Slice)
  /-- Gives back the memory at a pointer that was allocated with this size and alignment. -/
  deallocate : Nat → Nat → Nat → Call σ Unit

/-- A provider that knows which pointers point into its memory. -/
structure OwningProvider (σ : Type) extends Provider σ where
  owns : σ → Nat → Bool

/-- The number of calls of each kind, as words. -/
structure Counts where
  allocs : Nat
  deallocs : Nat
  deriving DecidableEq

/-- A state together with the number of calls so far. -/
structure Counted (σ : Type) where
  inner : σ
  counts : Counts

/-- Memory obtained from a provider or given back to it. -/
inductive Transfer where
  /-- A request, and what was granted. -/
  | allocate (size align : Nat) (granted : Option Slice)
  | deallocate (addr size align : Nat)
  deriving DecidableEq

/-- A state together with the transfers so far, oldest first. -/
structure Recorded (σ : Type) where
  inner : σ
  transfers : List Transfer

/-- The state without the number of calls. -/
def Counted.inside {σ : Type} : Focus (Counted σ) σ :=
  ⟨Counted.inner, fun inner counted => { counted with inner }⟩

/-- The state without the transfers. -/
def Recorded.inside {σ : Type} : Focus (Recorded σ) σ :=
  ⟨Recorded.inner, fun inner recorded => { recorded with inner }⟩

/-- Writes a transfer down. -/
def Recorded.note {σ : Type} (transfer : Transfer) (recorded : Recorded σ) : Recorded σ :=
  { recorded with transfers := recorded.transfers ++ [transfer] }

/-- No calls. -/
def Counts.zero : Counts := ⟨0, 0⟩

namespace Provider

variable {σ τ : Type}

/-- Refuses every request. -/
def failing : Provider σ where
  allocate _ _ := return none
  deallocate _ _ _ := return ()

/-- Passes every call on, as a reference to a provider does. -/
def forwarded (provider : Provider σ) : Provider σ where
  allocate size align := provider.allocate size align
  deallocate addr size align := provider.deallocate addr size align

/-- Refuses requests for more than `most` bytes and passes every other call on. -/
def limited (most : Nat) (provider : Provider σ) : Provider σ where
  allocate size align := if size > most then return none else provider.allocate size align
  deallocate := provider.deallocate

/-- Acts on a part of a larger state. -/
def within (focus : Focus τ σ) (provider : Provider σ) : Provider τ where
  allocate size align := focus.run (provider.allocate size align)
  deallocate addr size align := focus.run (provider.deallocate addr size align)

/-- Counts every call, whatever comes of it, before it is passed on. A call whose number is not a
word is broken off. -/
def counted (provider : Provider σ) : Provider (Counted σ) where
  allocate size align := do
    let allocs ← Call.ofChecked (Word.add (← get).counts.allocs 1)
    modify fun state => { state with counts.allocs := allocs }
    Counted.inside.run (provider.allocate size align)
  deallocate addr size align := do
    let deallocs ← Call.ofChecked (Word.add (← get).counts.deallocs 1)
    modify fun state => { state with counts.deallocs := deallocs }
    Counted.inside.run (provider.deallocate addr size align)

/-- Writes every call down on a state that contains the provider's: a request when its outcome
is known, memory that is given back before it is passed on. -/
def recordedBy (focus : Focus τ σ) (note : Transfer → τ → τ) (provider : Provider σ) :
    Provider τ where
  allocate size align := do
    let granted ← focus.run (provider.allocate size align)
    modify (note (.allocate size align granted))
    return granted
  deallocate addr size align := do
    modify (note (.deallocate addr size align))
    focus.run (provider.deallocate addr size align)

/-- Writes every call down. -/
def recorded (provider : Provider σ) : Provider (Recorded σ) :=
  provider.recordedBy Recorded.inside Recorded.note

end Provider

namespace OwningProvider

variable {σ : Type}

/-- Passes every call on, as a reference to a provider does. -/
def forwarded (provider : OwningProvider σ) : OwningProvider σ where
  toProvider := provider.toProvider.forwarded
  owns state addr := provider.owns state addr

/-- Counts every call for or with memory, whatever comes of it, before it is passed on. -/
def counted (provider : OwningProvider σ) : OwningProvider (Counted σ) where
  toProvider := provider.toProvider.counted
  owns state addr := provider.owns state.inner addr

end OwningProvider

end BuddySystem
