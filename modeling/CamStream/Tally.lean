/-!
# Counters of a capture

What happened to frames, units and stored pairs while a capture ran. The counters only ever grow.
-/

namespace CamStream

/-- The counters of a capture. -/
structure Tally where
  framesReceived : Nat := 0
  emptyFrames : Nat := 0
  unitsEmitted : Nat := 0
  /-- Units withheld because no keyframe had been emitted yet. -/
  unitsBeforeKeyframe : Nat := 0
  /-- Parameter sets refused for their length. -/
  malformedUnits : Nat := 0
  setWrites : Nat := 0
  setWriteFailures : Nat := 0
  /-- Units that a full queue discarded to make room. -/
  overflowDrops : Nat := 0
deriving DecidableEq, Repr, Inhabited

namespace Tally

/-- One more attempt to store the pair, with the store's answer. -/
def afterWrite {ε : Type} (tally : Tally) : Except ε Unit → Tally
  | .ok _ => { tally with setWrites := tally.setWrites + 1 }
  | .error _ => { tally with setWriteFailures := tally.setWriteFailures + 1 }

/-- More units discarded by a full queue. -/
def afterDrops (tally : Tally) (drops : Nat) : Tally :=
  { tally with overflowDrops := tally.overflowDrops + drops }

end Tally

end CamStream
