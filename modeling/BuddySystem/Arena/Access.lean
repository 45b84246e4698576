import BuddySystem.Arena
import BuddySystem.Event
import BuddySystem.Provider

/-!
# Ways to an arena

An arena can be used directly, and then a rejected pointer is an answer like any other. It can
also be used as a provider, and then a rejected pointer breaks the call off. Either way the arena
tells what it refuses and what it rejects.
-/

namespace BuddySystem.Arena

variable {config : Config}

/-- Allocates directly, and tells of a refusal. -/
def allocateLogged (size align : Nat) : Step (Logged (Arena config)) (Except Refusal Slice) := do
  let result ← Logged.inside.run (allocate size align)
  if let .error refusal := result then
    Logged.note refusal.events
  return result

/-- Deallocates directly, and tells of a rejection. -/
def deallocateLogged (addr size align : Nat) :
    Step (Logged (Arena config)) (Except Rejection Unit) := do
  let result ← Logged.inside.run (deallocate addr size align)
  if let .error reason := result then
    Logged.note [.rejected addr size align reason]
  return result

/-- An arena as a provider. A rejected pointer breaks the call off for the reason that `abort`
makes of the rejection. -/
def provider (abort : Rejection → Abort) : OwningProvider (Logged (Arena config)) where
  allocate size align := do
    match ← Call.ofStep (allocateLogged size align) with
    | .ok slice => return some slice
    | .error _ => return none
  deallocate addr size align := do
    match ← Call.ofStep (deallocateLogged addr size align) with
    | .ok () => return ()
    | .error reason => throw (abort reason)
  owns logged addr := logged.state.owns addr

/-- An arena behind the general allocator interface. -/
def general : OwningProvider (Logged (Arena config)) :=
  provider .contract

/-- An arena that is being evaluated. -/
def subject : OwningProvider (Logged (Arena config)) :=
  provider .rejected

end BuddySystem.Arena
