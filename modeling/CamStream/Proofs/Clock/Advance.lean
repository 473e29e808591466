import CamStream.Clock

/-!
# The output clock always advances

Whatever the capture clock does, the output clock gives every slice a later time than the slice
before it. A slice is placed one estimated interval after the last one and then moved by at most
half an interval, so at least half an interval of progress is left. The first slice of a session
has no time before it: it is placed where it was captured, because nothing has set an anchor yet
that it could be off from.

* `OutputClock.Ticking`: the invariant of a session. It holds of a new clock and is kept by both
  operations (`Ticking.relative`, `Ticking.stamp`).
* `OutputClock.stamp_first`, `OutputClock.stamp_later`: where a slice is placed.
* `OutputClock.Passed`: the times that are behind the clock. A slice gets a time that is ahead
  (`Ticking.lt_pts`), and then it is behind (`passed_stamp`).
-/

namespace CamStream

namespace OutputClock

/-- What holds of a clock throughout a session. -/
structure Ticking (clock : OutputClock) : Prop where
  interval : 1 ≤ clock.interval
  previous : ∀ time, clock.previous = some time → 0 ≤ time
  anchor : clock.previous = none → clock.anchor = none

/-- A time that is not after the one of the last slice. -/
def Passed (clock : OutputClock) (pts : Nat) : Prop :=
  ∃ time, clock.previous = some time ∧ (pts : Int) ≤ time

variable {clock : OutputClock}

/-! ## The start of a session -/

theorem ticking_new (nominalInterval : Nat) (smoothing : Smoothing) :
    (new nominalInterval smoothing).Ticking where
  interval := by
    have hnominal : 1 ≤ max (min nominalInterval maxSpan) 1 := Nat.le_max_right _ _
    exact Int.ofNat_le.mpr hnominal
  previous := fun time htime => by cases htime
  anchor := fun _ => rfl

theorem relative_nonneg (timestamp : Nat) : 0 ≤ (clock.relative timestamp).1 :=
  Int.natCast_nonneg _

theorem Ticking.relative (h : clock.Ticking) (timestamp : Nat) :
    (clock.relative timestamp).2.Ticking := ⟨h.interval, h.previous, h.anchor⟩

/-- No slice changes what the next session begins with. -/
theorem reset_stamp (clock : OutputClock) (now : Int) (keyframe : Bool) :
    (clock.stamp now keyframe).2.reset = clock.reset := by
  unfold stamp countSlice
  dsimp only
  split <;> rfl

/-! ## The interval -/

theorem one_le_blend (divisor : Nat) (interval measured : Int) :
    1 ≤ blend divisor interval measured := Int.le_max_right _ _

theorem one_le_interval_countSlice (h : clock.Ticking) (now : Int) (keyframe : Bool) :
    1 ≤ (clock.countSlice now keyframe).interval := by
  unfold countSlice
  dsimp only
  split
  · split
    · exact one_le_blend _ _ _
    · exact h.interval
  · exact h.interval

/-- Without an anchor there is nothing to measure from. -/
theorem interval_countSlice_of_anchor (h : clock.anchor = none) (now : Int) (keyframe : Bool) :
    (clock.countSlice now keyframe).interval = clock.interval := by
  unfold countSlice
  dsimp only
  split
  · rw [h]
  · rfl

/-! ## The correction -/

theorem correction_zero (h : 0 ≤ clock.interval) : clock.correction 0 = 0 := by
  unfold correction
  split
  · dsimp only
    omega
  · rfl

/-- A slice is moved by at most half an interval, rounded down. -/
theorem correction_bounds (h : 0 ≤ clock.interval) (drift : Int) :
    -(clock.interval / 2) ≤ clock.correction drift ∧
      clock.correction drift ≤ clock.interval / 2 := by
  unfold correction
  split
  · dsimp only
    omega
  · omega

/-! ## The time of a slice -/

/-- The first slice of a session is placed where it was captured and lasts one interval. -/
theorem stamp_first (h : clock.Ticking) (hfirst : clock.previous = none) (now : Int)
    (keyframe : Bool) :
    (clock.stamp now keyframe).1 =
        { pts := now.toNat, dts := now.toNat, duration := clock.interval.toNat } ∧
      (clock.stamp now keyframe).2.previous = some now := by
  -- The time before is one interval back, and the interval does not change: no drift is seen.
  have hinterval := interval_countSlice_of_anchor (h.anchor hfirst) now keyframe
  have hstill : (clock.countSlice now keyframe).correction 0 = 0 :=
    correction_zero (Int.le_of_lt (one_le_interval_countSlice h now keyframe))
  have hregular : now - clock.interval + clock.interval = now := by omega
  have hduration : now - (now - clock.interval) = clock.interval := by omega
  simp [stamp, previousOr, hfirst, hinterval, hregular, hduration, hstill]

/-- Every later slice is placed at least half an interval, rounded up, after the one before it and
at most one and a half, and lasts as long. -/
theorem stamp_later (h : clock.Ticking) {time : Int} (hlater : clock.previous = some time)
    (now : Int) (keyframe : Bool) :
    ∃ step : Int, 0 < step ∧ (clock.stamp now keyframe).2.previous = some (time + step) ∧
      (clock.stamp now keyframe).1 =
        { pts := (time + step).toNat, dts := (time + step).toNat, duration := step.toNat } ∧
      (clock.countSlice now keyframe).interval ≤ 2 * step ∧
      2 * step ≤ 3 * (clock.countSlice now keyframe).interval := by
  have hinterval := one_le_interval_countSlice h now keyframe
  let counted := clock.countSlice now keyframe
  let drift := now - (time + counted.interval)
  obtain ⟨hlower, hupper⟩ : -(counted.interval / 2) ≤ counted.correction drift ∧
      counted.correction drift ≤ counted.interval / 2 :=
    correction_bounds (Int.le_of_lt hinterval) drift
  have hnext : time + counted.interval + counted.correction drift =
      time + (counted.interval + counted.correction drift) := Int.add_assoc _ _ _
  have hduration : time + (counted.interval + counted.correction drift) - time =
      counted.interval + counted.correction drift := by omega
  refine ⟨counted.interval + counted.correction drift, ?_, ?_, ?_, ?_, ?_⟩
  · dsimp only [counted] at hlower ⊢
    omega
  · simp only [stamp, previousOr, hlater, Option.getD_some]
    rw [← hnext]
  · simp only [stamp, previousOr, hlater, Option.getD_some]
    rw [hnext, hduration]
  · dsimp only [counted] at hlower ⊢
    omega
  · dsimp only [counted] at hupper ⊢
    omega

theorem Ticking.stamp (h : clock.Ticking) {now : Int} (hnow : 0 ≤ now) (keyframe : Bool) :
    (clock.stamp now keyframe).2.Ticking := by
  have hinterval := one_le_interval_countSlice h now keyframe
  cases hprevious : clock.previous with
  | none =>
    obtain ⟨-, hnext⟩ := stamp_first h hprevious now keyframe
    refine ⟨hinterval, fun time htime => ?_, fun hnone => ?_⟩
    · rw [hnext] at htime
      cases htime
      exact hnow
    · rw [hnext] at hnone
      cases hnone
  | some before =>
    obtain ⟨step, hstep, hnext, -⟩ := stamp_later h hprevious now keyframe
    refine ⟨hinterval, fun time htime => ?_, fun hnone => ?_⟩
    · rw [hnext] at htime
      cases htime
      have hbefore := h.previous before hprevious
      omega
    · rw [hnext] at hnone
      cases hnone

/-! ## Times in order -/

/-- Slices are decoded when they are presented, and last for some time. -/
theorem Ticking.timing (h : clock.Ticking) (now : Int) (keyframe : Bool) :
    (clock.stamp now keyframe).1.pts = (clock.stamp now keyframe).1.dts ∧
      0 < (clock.stamp now keyframe).1.duration := by
  refine ⟨rfl, ?_⟩
  cases hprevious : clock.previous with
  | none =>
    obtain ⟨htiming, -⟩ := stamp_first h hprevious now keyframe
    have hinterval := h.interval
    rw [htiming]
    dsimp only
    omega
  | some before =>
    obtain ⟨step, hstep, -, htiming, -⟩ := stamp_later h hprevious now keyframe
    rw [htiming]
    dsimp only
    omega

/-- A slice gets a later time than all slices before it. -/
theorem Ticking.lt_pts (h : clock.Ticking) {pts : Nat} (hpassed : clock.Passed pts) (now : Int)
    (keyframe : Bool) : pts < (clock.stamp now keyframe).1.pts := by
  obtain ⟨before, hprevious, hle⟩ := hpassed
  obtain ⟨step, hstep, -, htiming, -⟩ := stamp_later h hprevious now keyframe
  rw [htiming]
  dsimp only
  omega

/-- The time that a slice got is behind the clock. -/
theorem Ticking.passed_stamp (h : clock.Ticking) {now : Int} (hnow : 0 ≤ now) (keyframe : Bool) :
    (clock.stamp now keyframe).2.Passed (clock.stamp now keyframe).1.pts := by
  have hticking := h.stamp hnow keyframe
  cases hprevious : clock.previous with
  | none =>
    obtain ⟨htiming, hnext⟩ := stamp_first h hprevious now keyframe
    refine ⟨now, hnext, ?_⟩
    rw [htiming]
    dsimp only
    omega
  | some before =>
    obtain ⟨step, -, hnext, htiming, -⟩ := stamp_later h hprevious now keyframe
    have hnonneg := hticking.previous _ hnext
    refine ⟨before + step, hnext, ?_⟩
    rw [htiming]
    dsimp only
    omega

/-- What is behind the clock stays behind it. -/
theorem Passed.stamp {pts : Nat} (hpassed : clock.Passed pts) (h : clock.Ticking) {now : Int}
    (hnow : 0 ≤ now) (keyframe : Bool) : (clock.stamp now keyframe).2.Passed pts := by
  have hlt := h.lt_pts hpassed now keyframe
  obtain ⟨time, hnext, hle⟩ := h.passed_stamp hnow keyframe
  exact ⟨time, hnext, by omega⟩

end OutputClock

end CamStream
