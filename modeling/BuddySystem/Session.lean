import BuddySystem.Arena.Access
import BuddySystem.Arena.Build
import BuddySystem.Host

/-!
# Arenas in use

A session holds numbered arenas. An arena obtains its region from the machine or from another
arena of the session, so a call on one arena can change another one and the machine.
-/

namespace BuddySystem.Session

/-- Where an arena obtains its region. -/
inductive Source where
  | heap
  | pages
  | failing
  | top
  | sparse
  /-- The heap, for requests of at most this many bytes. -/
  | limited (most : Nat)
  /-- Another arena of the session. -/
  | arena (index : Nat)
  deriving DecidableEq

/-- What stands between an arena and its users. -/
inductive Wrapping where
  /-- Nothing: each use chooses its own way to the arena. -/
  | plain
  /-- A provider that counts the calls. -/
  | counted
  /-- An evaluation. -/
  | subject
  deriving DecidableEq

/-- The way of a single use to an arena without a wrapping. -/
inductive Way where
  /-- The operations of the arena themselves. -/
  | direct
  /-- The general allocator interface of the arena. -/
  | general
  /-- The general allocator interface of a reference to the arena. -/
  | reference
  /-- The general allocator interface, found while the program runs. -/
  | dynamic
  deriving DecidableEq

/-- Memory that was granted, and the request it was granted for. -/
structure Slot where
  addr : Nat
  size : Nat
  align : Nat
  deriving DecidableEq

/-- An arena of a session. -/
structure Tenant where
  config : Config
  arena : Arena config
  source : Source
  wrapping : Wrapping
  /-- The number of calls of the arena for its region, unless they are not counted. -/
  regionCalls : Option Counts
  /-- The number of calls of the arena through a wrapping that counts. -/
  calls : Counts
  /-- For every request so far, what was granted. -/
  slots : List (Option Slot)

/-- The numbered arenas, the machine they live on, and the events of the current command. -/
structure State where
  /-- The arenas by number; nothing for one that could not be set up or is given up. -/
  tenants : Array (Option Tenant)
  host : Host
  log : List Event

/-- A session without arenas. -/
def State.initial : State := ⟨#[], Host.fresh, []⟩

/-- The machine of a session. -/
def State.machine : Focus State Host :=
  ⟨State.host, fun host state => { state with host }⟩

/-- The machine of a session together with the events. -/
def State.machineLogged : Focus State (Logged Host) where
  view state := ⟨state.host, state.log⟩
  update logged state := { state with host := logged.state, log := logged.log }

/-- The arena with a number, if it is there. -/
def State.tenant? (state : State) (index : Nat) : Option Tenant :=
  (state.tenants[index]?).join

/-! ## Using an arena -/

namespace Tenant

/-- The arena of a tenant with its events and the number of calls through its wrapping. -/
abbrev Core (tenant : Tenant) := Counted (Logged (Arena tenant.config))

/-- A provider for an arena with its events, as one that also keeps the number of calls. -/
def uncounted {config : Config} (provider : OwningProvider (Logged (Arena config))) :
    OwningProvider (Counted (Logged (Arena config))) where
  toProvider := provider.toProvider.within Counted.inside
  owns state addr := provider.owns state.inner addr

/-- How an arena appears to those who do not know that it is one. -/
def provider (tenant : Tenant) : OwningProvider tenant.Core :=
  match tenant.wrapping with
  | .plain => uncounted Arena.general
  | .counted => Arena.general.counted
  | .subject => uncounted Arena.subject

/-- How an arena appears to a use that chooses a way, unless it uses the arena directly. -/
def providerOn (tenant : Tenant) : Way → Option (OwningProvider tenant.Core)
  | .direct => if tenant.wrapping = .plain then none else some tenant.provider
  | .general => some tenant.provider
  | .reference | .dynamic =>
      if tenant.wrapping = .plain then some tenant.provider.forwarded else some tenant.provider

/-- Allocates on a way. -/
def allocate (tenant : Tenant) (way : Way) (size align : Nat) :
    Call tenant.Core (Option Slice) :=
  match tenant.providerOn way with
  | some provider => provider.allocate size align
  | none => do
      let result ← Counted.inside.run (Call.ofStep (Arena.allocateLogged size align))
      return result.toOption

/-- Deallocates on a way. -/
def deallocate (tenant : Tenant) (way : Way) (addr size align : Nat) :
    Call tenant.Core (Except Rejection Unit) :=
  match tenant.providerOn way with
  | some provider => return .ok (← provider.deallocate addr size align)
  | none => Counted.inside.run (Call.ofStep (Arena.deallocateLogged addr size align))

/-- Whether a pointer points into the arena, asked on a way. -/
def owns (tenant : Tenant) (way : Way) (addr : Nat) : Bool :=
  match tenant.providerOn way with
  | some provider => provider.owns ⟨⟨tenant.arena, []⟩, tenant.calls⟩ addr
  | none => tenant.arena.owns addr

end Tenant

/-- Performs a call on the arena with a number. -/
def State.onTenant {α : Type} (index : Nat) (tenant : Tenant) (call : Call tenant.Core α) :
    Call State α :=
  Focus.run
    { view := fun state => ⟨⟨tenant.arena, state.log⟩, tenant.calls⟩
      update := fun core state =>
        let after := { tenant with arena := core.inner.state, calls := core.counts }
        { state with
          tenants := state.tenants.setIfInBounds index (some after)
          log := core.inner.log } }
    call

/-! ## Obtaining a region -/

/-- Another arena of the session as a provider. An arena that is not there grants nothing. -/
def arenaProvider (index : Nat) : Provider State where
  allocate size align := do
    match (← get).tenant? index with
    | some tenant => State.onTenant index tenant (tenant.provider.allocate size align)
    | none => return none
  deallocate addr size align := do
    match (← get).tenant? index with
    | some tenant => State.onTenant index tenant (tenant.provider.deallocate addr size align)
    | none => return ()

/-- The provider that a source stands for. -/
def Source.provider : Source → Provider State
  | .heap => Host.heap.within State.machine
  | .pages => Host.kernel.pages.within State.machineLogged
  | .failing => Provider.failing
  | .top => Host.top.within State.machine
  | .sparse => Host.sparse.within State.machine
  | .limited most => (Host.heap.limited most).within State.machine
  | .arena index => arenaProvider index

/-- A session while an arena deals with its source: the calls are counted and written down. -/
abbrev Observed := Counted (Recorded State)

/-- The provider that a source stands for, with its calls counted and written down. -/
def Source.observed (source : Source) : Provider Observed :=
  source.provider.recorded.counted

end BuddySystem.Session
