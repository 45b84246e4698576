import BuddySystem.Error
import BuddySystem.Focus

/-!
# Events

What an allocator tells about its work while it works. An event is written as one line, its level
first. Addresses differ from run to run, so a line shows them as signed distances from a base.
-/

namespace BuddySystem

/-- How serious an event is. -/
inductive Level where
  | error
  | warn
  | debug
  | trace
  deriving DecidableEq

/-- The name of a level at the start of a line. -/
def Level.name : Level → String
  | .error => "ERROR"
  | .warn => "WARN"
  | .debug => "DEBUG"
  | .trace => "TRACE"

/-- Something that happened in an allocator. -/
inductive Event where
  /-- A request was refused because no block can serve it. -/
  | unsupported (size align : Nat)
  /-- A request was refused because there is no free block of this order or above. -/
  | exhausted (order : Nat)
  /-- Memory that was given back was rejected. -/
  | rejected (addr size align : Nat) (reason : Rejection)
  /-- An arena was set up. -/
  | built (addr capacity blockSize orders : Nat)
  /-- An arena is given up while this many of its bytes are allocated. -/
  | leaked (bytes capacity : Nat)
  /-- The region of an arena is about to be given back. -/
  | releasing (addr : Nat)
  /-- The operating system refused to map this many bytes. -/
  | mapFailed (len : Nat)
  /-- The operating system refused to unmap a range. -/
  | unmapFailed (addr len : Nat)
  /-- A size that is given back cannot be rounded up to whole pages. -/
  | unmapImpossible (addr size : Nat)
  deriving DecidableEq

/-- An address as its signed distance from a base: the shorter way round the address space,
and downwards if both are as long. -/
def relativeAddr (base addr : Nat) : String :=
  let up := Word.offset addr (-base)
  if up < Word.bound / 2 then
    s!"base+{up}"
  else
    s!"base-{Word.bound - up}"

namespace Event

/-- How serious an event is. -/
def level : Event → Level
  | .unsupported .. | .exhausted .. => .trace
  | .rejected .. | .leaked .. => .warn
  | .built .. | .releasing .. => .debug
  | .mapFailed .. | .unmapFailed .. | .unmapImpossible .. => .error

/-- What the line of an event says behind the level. -/
def text (base : Nat) : Event → String
  | .unsupported size align =>
      s!"buddy allocator: unsupported request size={size} align={align}"
  | .exhausted order => s!"buddy allocator: no free block of order {order} or above"
  | .rejected addr size align reason =>
      s!"buddy allocator: rejected deallocation of {relativeAddr base addr} " ++
        s!"(size={size}, align={align}): {reason.message}"
  | .built addr capacity blockSize orders =>
      s!"buddy allocator: arena of {capacity} bytes at {relativeAddr base addr}, " ++
        s!"block sizes {blockSize}..={capacity} ({orders} orders)"
  | .leaked bytes capacity =>
      s!"buddy allocator dropped with {bytes} of {capacity} bytes still allocated"
  | .releasing addr => s!"buddy allocator: releasing arena at {relativeAddr base addr}"
  | .mapFailed len => s!"mmap of {len} bytes failed"
  | .unmapFailed addr len => s!"munmap of {len} bytes at {relativeAddr base addr} failed"
  | .unmapImpossible addr size => s!"cannot unmap {size} bytes at {relativeAddr base addr}"

/-- The line of an event, with addresses relative to a base. -/
def line (base : Nat) (event : Event) : String :=
  s!"{event.level.name} {event.text base}"

end Event

/-- The events that a refusal causes. -/
def Refusal.events : Refusal → List Event
  | .unsupported size align => [.unsupported size align]
  | .exhausted order => [.exhausted order]
  | .vanished => []

/-- A state together with the events so far, oldest first. -/
structure Logged (σ : Type) where
  state : σ
  log : List Event

namespace Logged

/-- The state without its events. -/
def inside {σ : Type} : Focus (Logged σ) σ :=
  ⟨Logged.state, fun state logged => { logged with state }⟩

/-- Adds events behind the ones so far. -/
def note {ε σ : Type} (events : List Event) : EStateM ε (Logged σ) Unit :=
  modify fun logged => { logged with log := logged.log ++ events }

end Logged

end BuddySystem
