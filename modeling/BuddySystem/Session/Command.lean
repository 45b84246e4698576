import BuddySystem.Arena.Describe
import BuddySystem.Session

/-!
# Commands of a session

A command sets up an arena or uses one, and every command has an answer. An answer tells what
came of the command, the state of the arena if the command could change it, the calls that the
arena made for its region, and the lines of the events.
-/

namespace BuddySystem.Session

/-! ## Commands -/

/-- How an arena is set up. -/
inductive Setup where
  /-- Over a source that is given, with its calls counted and written down. -/
  | over (source : Source)
  /-- Over the heap. A failure is an answer. -/
  | tried
  /-- Over the heap. A failure breaks the command off. -/
  | demanded
  deriving DecidableEq

/-- A pointer, as a command names it. -/
inductive Target where
  /-- What a request was granted, moved by a distance, with another size or alignment. -/
  | slot (index : Nat) (delta : Int) (size? align? : Option Nat)
  /-- A distance from the base of the arena, with a size and an alignment. -/
  | at (offset : Int) (size align : Nat)

/-- What can be done with an arena. -/
inductive Action where
  | allocate (size align : Nat) (way : Way)
  | deallocate (target : Target) (way : Way)
  | owns (target : Target) (way : Way)
  | info
  | state
  | freeBlocks (order : Nat)
  | requireIdle
  /-- Asks for the text of the arena, on several lines or on one. -/
  | describe (lines : Bool)
  | counts
  | release

/-- A command of a session. -/
inductive Command where
  | build (config : Config) (setup : Setup) (wrapping : Wrapping)
  | use (index : Nat) (action : Action)

/-! ## Answers -/

/-- What the lists of an arena hold. -/
structure View where
  /-- The number of free blocks of each order. -/
  free : List Nat
  bytes : Nat
  idle : Bool
  deriving DecidableEq

/-- A call that an arena made for its region. -/
inductive Exchange where
  /-- A request; the offset is the one in the arena that served it, if an arena did. -/
  | allocate (size align : Nat) (ok : Bool) (offset? : Option Nat)
  /-- Memory given back; `atBase` tells whether it is what was granted. -/
  | deallocate (size align : Nat) (atBase : Bool)
  deriving DecidableEq

/-- What came of giving an arena up. -/
inductive Farewell where
  | done
  /-- The counts of the wrapping, and whether the arena was idle in the end. -/
  | counted (calls : Counts) (idle : Bool)
  | aborted (abort : Abort)
  deriving DecidableEq

/-- What came of a command. -/
inductive Reply where
  /-- There is no arena with the number. -/
  | noArena
  /-- There is no memory in the slot. -/
  | noSlot
  | built (index : Nat) (aligned : Bool)
  | buildFailed (reason : BuildError)
  | granted (offset len : Nat) (aligned : Bool)
  | refused
  | freed
  | rejected (reason : Rejection)
  | aborted (abort : Abort)
  | owns (yes : Bool)
  | info (capacity blockSize maxOrder maxAlign : Nat)
  | state
  | freeBlocks (count : Nat)
  | idle
  | text (text : String)
  | counts (regionCalls : Option Counts) (calls : Option Counts)
  | released (farewell : Farewell)

/-- The answer to a command. -/
structure Answer where
  reply : Reply
  view : Option View
  exchanges : List Exchange
  log : List String

/-- What the lists of an arena hold. -/
def View.of {config : Config} (arena : Arena config) : Checked View := do
  let free ← (List.range (config.maxOrder + 1)).mapM arena.free.len
  return { free, bytes := ← arena.freeBytes, idle := ← arena.isIdle }

namespace Answer

/-- An answer without the state of an arena. -/
def plain (reply : Reply) : Answer := ⟨reply, none, [], []⟩

/-- The answer when a call was broken off. -/
def aborted (abort : Abort) : Answer := plain (.aborted abort)

/-- The answer that also has the state of an arena, if the arena is there. -/
def withView (answer : Answer) (tenant? : Option Tenant) : Answer :=
  { answer with view := tenant?.bind fun tenant => (View.of tenant.arena).toOption }

end Answer

/-! ## Setting up -/

/-- The calls of an arena for its region, with addresses that mean something to a reader: the
base of the serving arena is subtracted from what was granted, and what is given back is compared
with what was granted last. -/
def exchanges (base? : Option Nat) : Option Nat → List Transfer → List Exchange
  | _, [] => []
  | _, .allocate size align (some slice) :: rest =>
      .allocate size align true (base?.map (slice.addr - ·)) ::
        exchanges base? (some slice.addr) rest
  | held, .allocate size align none :: rest =>
      .allocate size align false none :: exchanges base? held rest
  | held, .deallocate addr size align :: rest =>
      .deallocate size align (held = some addr) :: exchanges base? held rest

/-- The base of the arena that a source is, if it is one. -/
def Source.base? (source : Source) (state : State) : Option Nat :=
  match source with
  | .arena index => (state.tenant? index).map (·.arena.span.addr)
  | _ => none

/-- Adds a tenant, or a number without one. -/
def State.add (state : State) (tenant? : Option Tenant) : State :=
  { state with tenants := state.tenants.push tenant? }

/-- The lines of the events of the current command. -/
def State.lines (state : State) (base : Nat) : List String :=
  state.log.map (Event.line base)

/-- Adds an arena that was set up. -/
def moveIn {config : Config} (arena : Arena config) (source : Source) (wrapping : Wrapping)
    (regionCalls : Option Counts) (calls : List Exchange) (state : State) : Answer × State :=
  let index := state.tenants.size
  let base := arena.span.addr
  let tenant : Tenant := ⟨config, arena, source, wrapping, regionCalls, Counts.zero, []⟩
  let state := { state with log := state.log ++ arena.buildEvents }
  let reply := Reply.built index (base % config.capacity = 0)
  let answer : Answer := ⟨reply, none, calls, state.lines base⟩
  (answer.withView (some tenant), state.add (some tenant))

/-- Adds a number for an arena that could not be set up. -/
def turnAway (reply : Reply) (calls : List Exchange) (state : State) : Answer × State :=
  (⟨reply, none, calls, state.lines 0⟩, state.add none)

/-- Sets up an arena over a source. -/
def buildOver (config : Config) (source : Source) (wrapping : Wrapping) (state : State) :
    Answer × State :=
  let base? := source.base? state
  let told := fun (after : Observed) => exchanges base? none after.inner.transfers
  match Arena.build config source.observed ⟨⟨state, []⟩, Counts.zero⟩ with
  | .ok (.ok arena) after =>
      moveIn arena source wrapping (some after.counts) (told after) after.inner.inner
  | .ok (.error reason) after => turnAway (.buildFailed reason) (told after) after.inner.inner
  | .error abort after => turnAway (.aborted abort) (told after) after.inner.inner

/-- Sets up an arena over the heap; `report` makes the reply of a failure. -/
def buildOnHeap (config : Config) (wrapping : Wrapping) (report : BuildError → Reply)
    (state : State) : Answer × State :=
  match Arena.build config Source.heap.provider state with
  | .ok (.ok arena) after => moveIn arena .heap wrapping none [] after
  | .ok (.error reason) after => turnAway (report reason) [] after
  | .error abort after => turnAway (.aborted abort) [] after

/-- Sets up an arena. One that has to exist has no wrapping that evaluates it. -/
def build (config : Config) (setup : Setup) (wrapping : Wrapping) (state : State) :
    Answer × State :=
  match setup with
  | .over source => buildOver config source wrapping state
  | .tried => buildOnHeap config wrapping .buildFailed state
  | .demanded =>
      let wrapping := if wrapping = .subject then .plain else wrapping
      buildOnHeap config wrapping (fun reason => .aborted (.build reason)) state

/-! ## Using -/

/-- The pointer, the size and the alignment that a target stands for. -/
def Target.resolve? (tenant : Tenant) : Target → Option Slot
  | .slot index delta size? align? => do
      let slot ← (tenant.slots[index]?).join
      return ⟨Word.offset slot.addr delta, size?.getD slot.size, align?.getD slot.align⟩
  | .at offset size align => some ⟨Word.offset tenant.arena.span.addr offset, size, align⟩

/-- The reply to memory that was given back. -/
def Reply.ofDeallocation : Except Rejection Unit → Reply
  | .ok () => .freed
  | .error reason => .rejected reason

/-- Remembers what a request was granted. -/
def State.remember (state : State) (index : Nat) (slot? : Option Slot) : State :=
  { state with
    tenants := state.tenants.modify index
      (Option.map fun tenant => { tenant with slots := tenant.slots ++ [slot?] }) }

/-- Performs a call on a tenant. The answer has the reply, the state of the arena afterwards and
the events. -/
def perform (index : Nat) (tenant : Tenant) (state : State) (call : Call tenant.Core Reply) :
    Answer × State :=
  let (reply, state) := match State.onTenant index tenant call state with
    | .ok reply state => (reply, state)
    | .error abort state => (.aborted abort, state)
  let answer : Answer := ⟨reply, none, [], state.lines tenant.arena.span.addr⟩
  (answer.withView (state.tenant? index), state)

/-- Allocates, and remembers what was granted. -/
def allocate (index : Nat) (tenant : Tenant) (size align : Nat) (way : Way) (state : State) :
    Answer × State :=
  let base := tenant.arena.span.addr
  let (answer, state) := perform index tenant state do
    match ← tenant.allocate way size align with
    | some slice => return .granted (slice.addr - base) slice.len (slice.addr % align = 0)
    | none => return .refused
  match answer.reply with
  | .granted offset .. => (answer, state.remember index (some ⟨base + offset, size, align⟩))
  | _ => (answer, state.remember index none)

/-- Gives an arena up. It is gone even if that is broken off. -/
def release (index : Nat) (tenant : Tenant) (state : State) : Answer × State :=
  let base := tenant.arena.span.addr
  let state := { state with tenants := state.tenants.setIfInBounds index none }
  match tenant.arena.releaseEvents, tenant.arena.isIdle with
  | .ok events, .ok idle =>
      let start : Observed :=
        ⟨⟨{ state with log := state.log ++ events }, []⟩, tenant.regionCalls.getD Counts.zero⟩
      let farewell : Farewell :=
        if tenant.wrapping = .counted then .counted tenant.calls idle else .done
      let (farewell, after) := match tenant.arena.release tenant.source.observed start with
        | .ok () after => (farewell, after)
        | .error abort after => (.aborted abort, after)
      let told :=
        if tenant.regionCalls.isNone then []
        else exchanges none (some base) after.inner.transfers
      (⟨.released farewell, none, told, after.inner.inner.lines base⟩, after.inner.inner)
  | .error fault, _ | _, .error fault =>
      (Answer.plain (.released (.aborted (.fault fault))), state)

/-- Does something with an arena. -/
def act (index : Nat) (tenant : Tenant) (state : State) : Action → Answer × State
  | .allocate size align way => allocate index tenant size align way state
  | .deallocate target way =>
      match target.resolve? tenant with
      | some slot =>
          perform index tenant state do
            return .ofDeallocation (← tenant.deallocate way slot.addr slot.size slot.align)
      | none => ((Answer.plain .noSlot).withView (some tenant), state)
  | .owns target way =>
      match target.resolve? tenant with
      | some slot => (Answer.plain (.owns (tenant.owns way slot.addr)), state)
      | none => ((Answer.plain .noSlot).withView (some tenant), state)
  | .info =>
      let config := tenant.config
      (Answer.plain (.info config.capacity config.blockSize config.maxOrder config.maxAlign),
        state)
  | .state => ((Answer.plain .state).withView (some tenant), state)
  | .freeBlocks order =>
      match tenant.arena.freeBlocks order with
      | .ok count => (Answer.plain (.freeBlocks count), state)
      | .error abort => (Answer.aborted abort, state)
  | .requireIdle =>
      match tenant.arena.requireIdle with
      | .ok () => (Answer.plain .idle, state)
      | .error abort => (Answer.aborted abort, state)
  | .describe lines =>
      match tenant.arena.record with
      | .ok record =>
          let text := if lines then record.inLines else record.inLine
          (Answer.plain (.text text), state)
      | .error fault => (Answer.aborted (.fault fault), state)
  | .counts =>
      let calls := if tenant.wrapping = .counted then some tenant.calls else none
      (Answer.plain (.counts tenant.regionCalls calls), state)
  | .release => release index tenant state

/-- Carries out a command. The events of earlier commands are forgotten. -/
def State.run (state : State) (command : Command) : Answer × State :=
  let state := { state with log := [] }
  match command with
  | .build config setup wrapping => build config setup wrapping state
  | .use index action =>
      match state.tenant? index with
      | some tenant => act index tenant state action
      | none => (Answer.plain .noArena, state)

/-- Gives up the arenas with a number below `count`, the highest number first. -/
def State.finish (state : State) : Nat → List (Nat × Answer)
  | 0 => []
  | count + 1 =>
      match state.tenant? count with
      | some _ =>
          let (answer, state) := state.run (.use count .release)
          (count, answer) :: state.finish count
      | none => state.finish count

/-- Gives up all arenas that are left, the highest number first. -/
def State.finishAll (state : State) : List (Nat × Answer) :=
  state.finish state.tenants.size

end BuddySystem.Session
