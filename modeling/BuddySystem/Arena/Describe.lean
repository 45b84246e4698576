import BuddySystem.Arena
import BuddySystem.Event
import BuddySystem.Text.Record

/-!
# Arenas as text

What is shown of an arena: its base, its sizes and how much of it is free. The bookkeeping is
left out.
-/

namespace BuddySystem.Arena

variable {config : Config}

/-- The fields that are shown of an arena. The base is shown relative to itself. -/
def record (arena : Arena config) : Checked Text.Record := do
  let freeBytes ← arena.freeBytes
  return {
    name := "BuddyAllocator"
    fields := [
      ("base", relativeAddr arena.span.addr arena.span.addr),
      ("capacity", toString config.capacity),
      ("block_size", toString config.blockSize),
      ("free_bytes", toString freeBytes)]
    complete := false }

end BuddySystem.Arena
