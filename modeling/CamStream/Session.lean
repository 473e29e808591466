import CamStream.FrameQueue
import CamStream.Store.Framing

/-!
# Capture sessions

A session takes capture frames one by one, frames and times the units of each, and hands them on.

`Session.take` is the whole effect of a frame on the session itself. `Session.onFrame` adds what a
frame does to the world: the counters go up, and a pair that changed is kept.
-/

namespace CamStream

/-- One frame as the device delivers it. -/
structure CaptureFrame where
  data : Bytes
  /-- When it was captured, in nanoseconds of the device's clock. -/
  timestamp : Nat
deriving DecidableEq, Repr

/-- The state of a session. -/
structure Session where
  framer : Framer
  clock : OutputClock
deriving DecidableEq, Repr

/-- What a frame gave. -/
structure FrameReport where
  /-- Whether the frame had no bytes. -/
  isEmpty : Bool
  /-- What became of its units. -/
  fates : List Fate
  /-- The units to hand on. -/
  units : List AccessUnit
deriving DecidableEq, Repr

/-- The counters after a frame. -/
def Tally.afterFrame (tally : Tally) (report : FrameReport) : Tally :=
  let tally := tally.afterFates report.fates
  { tally with
    framesReceived := tally.framesReceived + 1
    emptyFrames := tally.emptyFrames + report.isEmpty.toNat
    unitsEmitted := tally.unitsEmitted + report.units.length }

/-- Time framed units that were captured at the relative timestamp `now`. Only slices get a time. -/
def stampUnits (clock : OutputClock) (now : Int) :
    List FramedUnit → List AccessUnit × OutputClock
  | [] => ([], clock)
  | unit :: units =>
    let keyframe := unit.isKeyframe
    let (timing, clock) :=
      if unit.kind.isSlice then
        let (timing, clock) := clock.stamp now keyframe
        (some timing, clock)
      else (none, clock)
    let (units, clock) := stampUnits clock now units
    ({ data := unit.bytes, timing, keyframe } :: units, clock)

namespace Session

/-- A new session on the same device: framing and timing start over, the cached pair is kept. -/
def reset (session : Session) : Session where
  framer := session.framer.reset
  clock := session.clock.reset

/-- What a frame gives, and the session after it. A frame without bytes leaves the session as it
is. -/
def take (session : Session) (frame : CaptureFrame) : FrameReport × Session :=
  if frame.data.isEmpty then ({ isEmpty := true, fates := [], units := [] }, session)
  else
    let (now, clock) := session.clock.relative frame.timestamp
    let (fates, framer) := session.framer.process frame.data
    let (units, clock) := stampUnits clock now (emittedUnits fates)
    ({ isEmpty := false, fates, units }, { framer, clock })

/-- Take a frame, keep a pair that changed and count: the units to hand on, the session and the
counters. -/
def onFrame {m : Type → Type} [Monad m] (keeper? : Option (Keeper m)) (session : Session)
    (tally : Tally) (frame : CaptureFrame) : m (List AccessUnit × Session × Tally) := do
  let (report, session) := session.take frame
  let tally ← keepChange keeper? report.fates session.framer.sets (tally.afterFrame report)
  return (report.units, session, tally)

end Session

end CamStream
