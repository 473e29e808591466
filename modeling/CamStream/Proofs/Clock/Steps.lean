import CamStream.Proofs.Clock.Advance
import Mathlib.Data.List.Chain

/-!
# The steps of the output clock

In a session the clock is asked for relative timestamps and for the times of slices, in any order.
Every slice is stamped with the relative timestamp that was given last, so several slices can share
one, and some timestamps have no slice at all.

* `StampedSlice.Regular`, `StampedSlice.Follows`: what holds of one slice, and of two in a row.
* `ClockLog.Steady`: the invariant that ties the slices stamped so far to the clock. Every call
  keeps it (`Steady.call`).
* `clock_steps_bounded`: the step to a slice is its duration, and it lies within half an estimated
  interval, rounded down, of the estimate.
-/

namespace CamStream

/-- What can be asked of a clock within a session. -/
inductive ClockCall where
  | relative (timestamp : Nat)
  | stamp (keyframe : Bool)
deriving DecidableEq, Repr

def ClockCall.isStamp : ClockCall → Bool
  | relative _ => false
  | stamp _ => true

/-- What a slice was given, with the interval that was estimated once it was counted. -/
structure StampedSlice where
  timing : Timing
  interval : Int
deriving DecidableEq, Repr

namespace StampedSlice

/-- The slice lasts for the estimated interval, give or take half of it. -/
structure Regular (slice : StampedSlice) : Prop where
  decoded : slice.timing.pts = slice.timing.dts
  interval : 1 ≤ slice.interval
  lower : slice.interval - slice.interval / 2 ≤ slice.timing.duration
  upper : slice.timing.duration ≤ slice.interval + slice.interval / 2

/-- The later slice comes its own duration after the earlier one. -/
def Follows (earlier later : StampedSlice) : Prop :=
  later.timing.pts = earlier.timing.pts + later.timing.duration

theorem Regular.one_le_duration {slice : StampedSlice} (h : slice.Regular) :
    1 ≤ slice.timing.duration := by
  have hinterval := h.interval
  have hlower := h.lower
  omega

end StampedSlice

namespace OutputClock

variable {clock : OutputClock}

/-- What a slice is given. -/
def stamped (clock : OutputClock) (now : Int) (keyframe : Bool) : StampedSlice where
  timing := (clock.stamp now keyframe).1
  interval := (clock.stamp now keyframe).2.interval

/-- The clock stands where the slice was placed: the floor at zero is never reached. -/
theorem Ticking.previous_stamp (h : clock.Ticking) {now : Int} (hnow : 0 ≤ now)
    (keyframe : Bool) :
    (clock.stamp now keyframe).2.previous = some ((clock.stamp now keyframe).1.pts : Int) := by
  obtain ⟨time, hnext, hle⟩ := h.passed_stamp hnow keyframe
  have hpts : (clock.stamp now keyframe).1.pts = time.toNat := by
    have htime : (clock.stamp now keyframe).2.previous = some time := hnext
    obtain rfl := Option.some.inj htime
    rfl
  have hnonneg := (h.stamp hnow keyframe).previous time hnext
  rw [hnext, hpts, Int.toNat_of_nonneg hnonneg]

theorem Ticking.pts_stamp (h : clock.Ticking) {time : Int} (hlater : clock.previous = some time)
    (now : Int) (keyframe : Bool) :
    ((clock.stamp now keyframe).1.pts : Int) = time + (clock.stamp now keyframe).1.duration := by
  obtain ⟨step, hstep, -, htiming, -⟩ := stamp_later h hlater now keyframe
  have htime := h.previous time hlater
  rw [htiming]
  dsimp only
  omega

theorem Ticking.regular_stamped (h : clock.Ticking) {now : Int} (hnow : 0 ≤ now)
    (keyframe : Bool) : (clock.stamped now keyframe).Regular := by
  have hinterval : 1 ≤ (clock.stamped now keyframe).interval := (h.stamp hnow keyframe).interval
  have hbounds : (clock.stamped now keyframe).interval ≤
        2 * ((clock.stamped now keyframe).timing.duration : Int) ∧
      2 * ((clock.stamped now keyframe).timing.duration : Int) ≤
        3 * (clock.stamped now keyframe).interval := by
    cases hprevious : clock.previous with
    | none =>
      obtain ⟨htiming, -⟩ := stamp_first h hprevious now keyframe
      have hsame : (clock.stamped now keyframe).interval = clock.interval :=
        interval_countSlice_of_anchor (h.anchor hprevious) now keyframe
      have hduration : (clock.stamped now keyframe).timing.duration = clock.interval.toNat :=
        congrArg Timing.duration htiming
      omega
    | some time =>
      obtain ⟨step, hstep, -, htiming, hlower, hupper⟩ := stamp_later h hprevious now keyframe
      have hcounted : (clock.countSlice now keyframe).interval =
          (clock.stamped now keyframe).interval := rfl
      have hduration : (clock.stamped now keyframe).timing.duration = step.toNat :=
        congrArg Timing.duration htiming
      omega
  refine ⟨rfl, hinterval, ?_, ?_⟩
  · omega
  · omega

end OutputClock

/-- A clock at work. -/
structure ClockLog where
  clock : OutputClock
  /-- The relative timestamp that was given last, zero before the first one. -/
  now : Int := 0
  /-- The slices that were stamped, in order. -/
  slices : List StampedSlice := []
deriving DecidableEq, Repr

namespace ClockLog

def call (log : ClockLog) : ClockCall → ClockLog
  | .relative timestamp =>
    { log with
      clock := (log.clock.relative timestamp).2
      now := (log.clock.relative timestamp).1 }
  | .stamp keyframe =>
    { log with
      clock := (log.clock.stamp log.now keyframe).2
      slices := log.slices ++ [log.clock.stamped log.now keyframe] }

def callAll (log : ClockLog) (calls : List ClockCall) : ClockLog := calls.foldl call log

/-- The slices stamped so far are regular and follow one another, and the clock stands where the
last one was placed. -/
structure Steady (log : ClockLog) : Prop where
  ticking : log.clock.Ticking
  now : 0 ≤ log.now
  last : log.slices.getLast?.map (fun slice => (slice.timing.pts : Int)) = log.clock.previous
  regular : ∀ slice ∈ log.slices, slice.Regular
  follows : log.slices.IsChain StampedSlice.Follows

theorem steady_new (nominalInterval : Nat) (smoothing : Smoothing) :
    Steady { clock := .new nominalInterval smoothing } where
  ticking := OutputClock.ticking_new nominalInterval smoothing
  now := Int.le_refl 0
  last := rfl
  regular := by simp
  follows := .nil

variable {log : ClockLog}

theorem Steady.relative (h : log.Steady) (timestamp : Nat) :
    (log.call (.relative timestamp)).Steady where
  ticking := h.ticking.relative timestamp
  now := OutputClock.relative_nonneg timestamp
  last := h.last
  regular := h.regular
  follows := h.follows

theorem Steady.stamp (h : log.Steady) (keyframe : Bool) :
    (log.call (.stamp keyframe)).Steady where
  ticking := h.ticking.stamp h.now keyframe
  now := h.now
  last := by
    have hnext := h.ticking.previous_stamp h.now keyframe
    simp only [call, List.getLast?_append, List.getLast?_singleton, Option.some_or,
      Option.map_some, OutputClock.stamped]
    exact hnext.symm
  regular := by
    intro slice hslice
    rcases List.mem_append.mp hslice with hslice | hslice
    · exact h.regular slice hslice
    · obtain rfl := List.mem_singleton.mp hslice
      exact h.ticking.regular_stamped h.now keyframe
  follows := by
    refine List.isChain_append.mpr ⟨h.follows, List.isChain_singleton _, ?_⟩
    intro earlier hearlier later hlater
    obtain rfl : log.clock.stamped log.now keyframe = later := by simpa using hlater
    -- The slice before it is where the clock stood.
    have hbefore : log.clock.previous = some (earlier.timing.pts : Int) := by
      rw [← h.last, Option.mem_def.mp hearlier]
      rfl
    have hstep : ((log.clock.stamped log.now keyframe).timing.pts : Int) =
        earlier.timing.pts + (log.clock.stamped log.now keyframe).timing.duration :=
      h.ticking.pts_stamp hbefore log.now keyframe
    unfold StampedSlice.Follows
    omega

theorem Steady.call (h : log.Steady) (call : ClockCall) : (log.call call).Steady := by
  cases call with
  | relative timestamp => exact h.relative timestamp
  | stamp keyframe => exact h.stamp keyframe

theorem Steady.callAll (h : log.Steady) (calls : List ClockCall) : (log.callAll calls).Steady := by
  induction calls generalizing log with
  | nil => exact h
  | cons call calls ih => exact ih (h.call call)

theorem length_slices_callAll (log : ClockLog) (calls : List ClockCall) :
    (log.callAll calls).slices.length = log.slices.length + calls.countP (·.isStamp) := by
  induction calls generalizing log with
  | nil => rfl
  | cons call calls ih =>
    have hrest : (log.callAll (call :: calls)).slices.length =
        (log.call call).slices.length + calls.countP (·.isStamp) := ih (log.call call)
    rw [hrest]
    cases call with
    | relative timestamp => simp [ClockLog.call, ClockCall.isStamp]
    | stamp keyframe =>
      simp only [ClockLog.call, List.length_append, List.length_singleton, List.countP_cons,
        ClockCall.isStamp, if_true]
      omega

/-- Slices that follow one another and last for some time come later and later. -/
theorem Steady.increasing (h : log.Steady) :
    (log.slices.map (·.timing.pts)).Pairwise (· < ·) := by
  rw [← List.isChain_iff_pairwise, List.isChain_map]
  refine h.follows.imp_of_mem_imp ?_
  intro earlier later _ hlater hfollows
  have hduration := (h.regular later hlater).one_le_duration
  unfold StampedSlice.Follows at hfollows
  omega

end ClockLog

/-- **Steps of the output clock.** For every nominal interval and smoothing, and for relative
timestamps and slices asked for in any order, with capture timestamps that may freeze or run
backwards:

* every slice that was stamped got a time, and it is decoded when it is presented;
* with the interval estimated by then, which is at least one, it lasts for at least the interval
  less half of it and at most half of it more, so for some time;
* the step from the slice before is the duration, so the times only ever go up. -/
theorem clock_steps_bounded (nominalInterval : Nat) (smoothing : Smoothing)
    (calls : List ClockCall) :
    let slices := (ClockLog.callAll { clock := .new nominalInterval smoothing } calls).slices
    slices.length = calls.countP (·.isStamp) ∧
    (∀ slice ∈ slices,
      slice.timing.pts = slice.timing.dts ∧
      1 ≤ slice.interval ∧
      slice.interval - slice.interval / 2 ≤ slice.timing.duration ∧
      slice.timing.duration ≤ slice.interval + slice.interval / 2 ∧
      1 ≤ slice.timing.duration) ∧
    slices.IsChain (fun earlier later =>
      later.timing.pts = earlier.timing.pts + later.timing.duration) ∧
    (slices.map (·.timing.pts)).Pairwise (· < ·) := by
  intro slices
  have hsteady := (ClockLog.steady_new nominalInterval smoothing).callAll calls
  refine ⟨?_, ?_, hsteady.follows, hsteady.increasing⟩
  · simpa using ClockLog.length_slices_callAll { clock := .new nominalInterval smoothing } calls
  · intro slice hslice
    have hregular : slice.Regular := hsteady.regular slice hslice
    exact ⟨hregular.decoded, hregular.interval, hregular.lower, hregular.upper,
      hregular.one_le_duration⟩

end CamStream
