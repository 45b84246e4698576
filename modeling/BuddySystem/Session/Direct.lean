import BuddySystem.Session
import BuddySystem.Text.Record

/-!
# A provider in use

A provider of the machine that is used directly, without an arena, and with its calls counted.
Every request takes a slot, which holds what was granted until it is given back.
-/

namespace BuddySystem.Session.Direct

/-- The providers of the machine. -/
inductive Kind where
  | heap
  | pages
  | failing
  /-- The heap, behind a reference. -/
  | referenced
  deriving DecidableEq

/-- A provider of the machine. -/
def Kind.provider : Kind → Provider (Logged Host)
  | .heap => Host.heap.within Logged.inside
  | .pages => Host.kernel.pages
  | .failing => Provider.failing
  | .referenced => (Host.heap.within Logged.inside).forwarded

/-- The name of a provider in text. Some have none. -/
def Kind.name? : Kind → Option String
  | .heap => some "Global"
  | .pages => some "PageProvider"
  | .failing | .referenced => none

/-- A machine with the number of calls of a provider and what it granted. -/
structure State where
  core : Counted (Logged Host)
  slots : List (Option Slot)

/-- A machine before the first call. -/
def State.initial : State := ⟨⟨⟨Host.fresh, []⟩, Counts.zero⟩, []⟩

/-- What can be done with a provider. -/
inductive Command where
  | allocate (size align : Nat)
  /-- Gives back what a slot holds, with the pointer moved by a distance and perhaps with another
  size. -/
  | deallocate (index : Nat) (delta : Int) (size? : Option Nat)
  | pageSize
  | describe

/-- What is known of pages that were granted. -/
structure Pages where
  /-- They start at a multiple of the page size. -/
  aligned : Bool
  /-- They have never been used, so all their bytes are zero. -/
  zeroed : Bool
  deriving DecidableEq

/-- What came of a command. -/
inductive Reply where
  | granted (len : Nat) (aligned : Bool) (pages? : Option Pages)
  | refused
  | freed
  | noSlot
  | aborted (abort : Abort)
  | pageSize (bytes : Nat)
  | text (text : String)

/-- The answer to a command: its outcome, the lines of the events, and the number of calls so
far. -/
structure Answer where
  reply : Reply
  log : List String
  counts : Counts

/-- The text of a provider with the number of its calls. -/
def describe (kind : Kind) (counts : Counts) : String :=
  match kind.name? with
  | some name =>
      let record : Text.Record := {
        name := "CountingAllocator"
        fields := [
          ("inner", name),
          ("allocs", toString counts.allocs),
          ("deallocs", toString counts.deallocs)]
        complete := true }
      record.inLine
  | none => ""

/-- Performs a call of the provider. -/
def perform (call : Call (Counted (Logged Host)) Reply) (state : State) : Reply × State :=
  match call state.core with
  | .ok reply core => (reply, { state with core })
  | .error abort core => (.aborted abort, { state with core })

/-- Allocates, and keeps what was granted in a new slot. -/
def allocate (kind : Kind) (size align : Nat) (state : State) : Reply × State :=
  let low := state.core.inner.state.low
  match kind.provider.counted.allocate size align state.core with
  | .ok (some slice) core =>
      let pages? := if kind = .pages then
          let stop := Word.roundUp (slice.addr + slice.len) Host.pageSize
          some ⟨slice.addr % Host.pageSize = 0, stop ≤ low⟩
        else none
      (.granted slice.len (slice.addr % align = 0) pages?,
        ⟨core, state.slots ++ [some ⟨slice.addr, size, align⟩]⟩)
  | .ok none core => (.refused, ⟨core, state.slots ++ [none]⟩)
  | .error abort core => (.aborted abort, ⟨core, state.slots ++ [none]⟩)

/-- Gives back what a slot holds. The slot is empty afterwards. -/
def deallocate (kind : Kind) (index : Nat) (delta : Int) (size? : Option Nat) (state : State) :
    Reply × State :=
  match (state.slots[index]?).join with
  | none => (.noSlot, state)
  | some slot =>
      let (reply, state) := perform (do
        kind.provider.counted.deallocate (Word.offset slot.addr delta) (size?.getD slot.size)
          slot.align
        return .freed) state
      (reply, { state with slots := state.slots.set index none })

/-- Carries out a command. Addresses in its lines are relative to what the slot of the command
was granted. -/
def State.run (state : State) (kind : Kind) (command : Command) : Answer × State :=
  let state := { state with core.inner.log := [] }
  let (base, reply, state) := match command with
    | .allocate size align => (0, allocate kind size align state)
    | .deallocate index delta size? =>
        (((state.slots[index]?).join.map Slot.addr).getD 0,
          deallocate kind index delta size? state)
    | .pageSize => (0, .pageSize Host.kernel.pageSize, state)
    | .describe => (0, .text (describe kind state.core.counts), state)
  (⟨reply, state.core.inner.log.map (Event.line base), state.core.counts⟩, state)

/-- Gives back everything that is still held, and tells the number of calls. -/
def State.finish (state : State) (kind : Kind) : Counts :=
  let final := (List.range state.slots.length).foldl (fun state index =>
    (deallocate kind index 0 none state).2) state
  final.core.counts

end BuddySystem.Session.Direct
