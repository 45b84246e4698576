import BuddySystem.Arena
import BuddySystem.Event
import BuddySystem.Provider

/-!
# Setting up an arena and giving it up

The memory of an arena and of its bookkeeping is one region, which is obtained from a provider
when the arena is set up and given back to it when the arena is given up. In between the provider
is not called.
-/

namespace BuddySystem.Arena

variable {config : Config} {σ : Type}

/-- Checks that bookkeeping can be kept at an offset of a region: its address must not be null,
and has to suit its alignment. -/
def requirePlace (addr offset align : Nat) : Checked Unit :=
  let place := (addr + offset) % Word.bound
  Checked.require (place ≠ 0 ∧ place % align = 0) .violated

/-- An arena over this memory with nothing allocated: its only free block is the whole. -/
def fresh (span : Span) (region : Config.Region) : Checked (Arena config) := do
  requirePlace span.addr region.nodesOffset 8
  let nodes ← Bitmap.clear (Vector.replicate _ 0)
  requirePlace span.addr region.linksOffset 4
  let lists ← FreeLists.create config.blockCount
  match FreeLists.push config.maxOrder 0 lists with
  | .ok () free => return { span, region := region.full, nodes, free }
  | .error fault _ => throw fault

/-- Sets up an arena in a region from a provider. The provider is not asked if there are too many
leaves or if the region has no layout. A region that leaves the address space is given back. -/
def build (config : Config) (provider : Provider σ) :
    Call σ (Except BuildError (Arena config)) := do
  if config.blockCount ≥ LinkWord.maxLeaves then
    return .error .invalidConfig
  let some region := config.region?
    | return .error .invalidConfig
  let some granted ← provider.allocate region.full.size region.full.align
    | return .error (.allocFailed region.full)
  let some span := Span.of? granted.addr config.capacity
    | do
        provider.deallocate granted.addr region.full.size region.full.align
        return .error .invalidConfig
  return .ok (← Call.ofChecked (fresh span region))

/-- What an arena tells when it has been set up. -/
def buildEvents (arena : Arena config) : List Event :=
  [.built arena.span.addr config.capacity config.blockSize (config.maxOrder + 1)]

/-- What an arena tells before it is given up. -/
def releaseEvents (arena : Arena config) : Checked (List Event) := do
  let leaks ←
    if ← arena.isIdle then
      pure []
    else
      pure [.leaked (← Word.sub config.capacity (← arena.freeBytes)) config.capacity]
  return leaks ++ [.releasing arena.span.addr]

/-- Gives the region of an arena back, whether or not blocks of it are still allocated. -/
def release (arena : Arena config) (provider : Provider σ) : Call σ Unit :=
  provider.deallocate arena.span.addr arena.region.size arena.region.align

end BuddySystem.Arena
