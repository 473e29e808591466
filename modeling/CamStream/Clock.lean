/-!
# The output clock

Capture timestamps jitter, freeze and run backwards. The output clock gives every slice a time
that goes up by the estimated frame interval, and steers slowly towards the capture clock.

* Times count from the first frame of the session, not from the first slice that is emitted, so
  the frames that were withheld still show as a delay.
* At a keyframe, once enough slices have passed, the interval is estimated anew from the distance
  to the last such keyframe, blended into the old estimate. The first such keyframe only sets the
  anchor: what lies before it is too noisy to measure.
* After the anchor is set, a slice that is off by more than the tolerated number of intervals is
  moved by at most half an interval.

Times are nanoseconds. All arithmetic is exact.
-/

namespace CamStream

/-- Nanoseconds in a second. -/
def nanosPerSecond : Nat := 1000000000

/-- The nominal frame interval at a framerate; a rate of zero counts as one. -/
def intervalOfRate (framesPerSecond : Nat) : Nat := nanosPerSecond / max framesPerSecond 1

/-- The greatest distance between two times: what a signed 64-bit count of nanoseconds holds. -/
def maxSpan : Nat := 0x7FFFFFFFFFFFFFFF

/-- How fast the clock follows the capture. -/
structure Smoothing where
  /-- How many slices have to pass before the interval is estimated anew. -/
  updateSlices : Nat := 60
  /-- One part in this many of an estimate comes from the new measurement. -/
  divisor : Nat := 20
  /-- How many intervals a slice may be off before it is moved. -/
  tolerance : Nat := 2
deriving DecidableEq, Repr, Inhabited

namespace Smoothing

/-- The nearest smoothing with no parameter zero. -/
def clamped (smoothing : Smoothing) : Smoothing where
  updateSlices := max smoothing.updateSlices 1
  divisor := max smoothing.divisor 1
  tolerance := max smoothing.tolerance 1

end Smoothing

/-- The time of a slice. -/
structure Timing where
  /-- When it is presented. -/
  pts : Nat
  /-- When it is decoded. -/
  dts : Nat
  duration : Nat
deriving DecidableEq, Repr

/-- An output clock: its settings, and what it has learned in this session. -/
structure OutputClock where
  smoothing : Smoothing
  /-- The interval to start from. -/
  nominal : Int
  /-- The capture timestamp of the first frame. -/
  origin : Option Nat := none
  /-- The time given to the last slice, before the floor at zero. -/
  previous : Option Int := none
  /-- The estimated frame interval. -/
  interval : Int
  /-- Slices since the interval was last estimated. -/
  slices : Nat := 0
  /-- The relative timestamp at which the interval was last estimated. -/
  anchor : Option Int := none
deriving DecidableEq, Repr

namespace OutputClock

/-- A clock before its first frame. -/
def new (nominalInterval : Nat) (smoothing : Smoothing) : OutputClock :=
  let nominal : Nat := max (min nominalInterval maxSpan) 1
  { smoothing := smoothing.clamped, nominal, interval := nominal }

/-- The clock at the beginning of a new session: all it has learned is forgotten. -/
def reset (clock : OutputClock) : OutputClock :=
  { smoothing := clock.smoothing, nominal := clock.nominal, interval := clock.nominal }

/-- A capture timestamp relative to the first one of the session; a timestamp before the first
one counts as the first. The first call fixes the origin. -/
def relative (clock : OutputClock) (timestamp : Nat) : Int × OutputClock :=
  let origin := clock.origin.getD timestamp
  let elapsed : Nat := timestamp - origin
  ((min elapsed maxSpan : Nat), { clock with origin := some origin })

/-- The interval measured between the anchor and now. -/
def measured (anchor now : Int) (slices : Nat) : Int := max (now - anchor) 0 / slices

/-- The weighted mean of the old estimate and a measurement, rounded to nearest. -/
def blend (divisor : Nat) (interval measured : Int) : Int :=
  max ((interval * (divisor - 1) + measured + divisor / 2) / divisor) 1

/-- Count a slice, and estimate the interval anew at a keyframe when enough of them have passed. -/
def countSlice (clock : OutputClock) (now : Int) (keyframe : Bool) : OutputClock :=
  let slices := clock.slices + 1
  if keyframe && clock.smoothing.updateSlices ≤ slices then
    let interval := match clock.anchor with
      | some anchor => blend clock.smoothing.divisor clock.interval (measured anchor now slices)
      | none => clock.interval
    { clock with interval, slices := 0, anchor := some now }
  else { clock with slices }

/-- How far a slice that is off by `drift` is moved: nothing within the tolerance, and else
towards the capture clock by at most half an interval. -/
def correction (clock : OutputClock) (drift : Int) : Int :=
  if clock.anchor.isSome && clock.smoothing.tolerance * clock.interval < drift.natAbs then
    let half := clock.interval / 2
    max (-half) (min drift half)
  else 0

/-- The time of the slice before the one captured at `now`. Before the first slice it lies one
interval back. -/
def previousOr (clock : OutputClock) (now : Int) : Int := clock.previous.getD (now - clock.interval)

/-- The time of a slice captured at the relative timestamp `now`. -/
def stamp (clock : OutputClock) (now : Int) (keyframe : Bool) : Timing × OutputClock :=
  let previous := clock.previousOr now
  let clock := clock.countSlice now keyframe
  let regular := previous + clock.interval
  let time := regular + clock.correction (now - regular)
  ({ pts := time.toNat, dts := time.toNat, duration := (time - previous).toNat },
    { clock with previous := some time })

end OutputClock

end CamStream
