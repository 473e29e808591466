import CamStream.Proofs.Clock.Steps
import Mathlib.Algebra.Order.Group.Int
import Mathlib.Algebra.Order.Ring.Abs
import Mathlib.Tactic.Ring

/-!
# Drift under a steady camera

A steady camera delivers a slice every `real` nanoseconds, and its rate is off the nominal one by at
most a twentieth. Whatever is estimated from it then lies between the nominal interval and the real
one, because whole groups of sixty slices are measured exactly. The error of the output clock is
held within three nominal intervals for ever:

* until the anchor is set, at most sixty slices pass, and each adds a twentieth at most;
* from then on a slice that is off by more than two estimated intervals is moved by half of one,
  which is more than the camera can add in a slice.

`OutputClock.before` is the clock in front of the slice of a number in an endless sequence. The
two phases are `OutputClock.Free` and `OutputClock.Held`. Each slice keeps its phase or goes from the
first to the second (`Free.stamp`, `Held.stamp`), so one of them holds all along
(`free_or_held`).
-/

namespace CamStream

/-- A slice as it comes to the clock. -/
structure ClockSlice where
  /-- The relative timestamp. -/
  now : Int
  keyframe : Bool
deriving DecidableEq, Repr

namespace OutputClock

/-! ## Endless sequences of slices -/

/-- The clock before the slice of a number. -/
def before (clock : OutputClock) (slices : Nat → ClockSlice) : Nat → OutputClock
  | 0 => clock
  | k + 1 => ((clock.before slices k).stamp (slices k).now (slices k).keyframe).2

/-- The time of the slice of a number. -/
def timingOf (clock : OutputClock) (slices : Nat → ClockSlice) (k : Nat) : Timing :=
  ((clock.before slices k).stamp (slices k).now (slices k).keyframe).1

/-- The slices of a camera that never varies: one in every interval, and a keyframe among every
`gop` of them. -/
def steadySlices (real : Int) (gop : Nat) (k : Nat) : ClockSlice where
  now := k * real
  keyframe := decide (gop ∣ k)

theorem Ticking.before {clock : OutputClock} (h : clock.Ticking) {slices : Nat → ClockSlice}
    (hnow : ∀ k, 0 ≤ (slices k).now) (k : Nat) : (clock.before slices k).Ticking := by
  induction k with
  | zero => exact h
  | succ k ih => exact ih.stamp (hnow k) (slices k).keyframe

/-- No run of slices changes what the next session begins with. -/
theorem reset_before (clock : OutputClock) (slices : Nat → ClockSlice) (k : Nat) :
    (clock.before slices k).reset = clock.reset := by
  induction k with
  | zero => rfl
  | succ k ih => exact (reset_stamp _ _ _).trans ih

theorem smoothing_countSlice (clock : OutputClock) (now : Int) (keyframe : Bool) :
    (clock.countSlice now keyframe).smoothing = clock.smoothing :=
  (congrArg OutputClock.smoothing (reset_stamp clock now keyframe) :)

theorem smoothing_before (clock : OutputClock) (slices : Nat → ClockSlice) (k : Nat) :
    (clock.before slices k).smoothing = clock.smoothing :=
  (congrArg OutputClock.smoothing (reset_before clock slices k) :)

theorem ticking_reset {clock : OutputClock} (h : 1 ≤ clock.nominal) : clock.reset.Ticking where
  interval := h
  previous := fun time htime => by cases htime
  anchor := fun _ => rfl

/-! ## One slice -/

/-- A slice is placed one interval after the one before it and then corrected for its drift. -/
theorem stamp_snd (clock : OutputClock) (now : Int) (keyframe : Bool) :
    (clock.stamp now keyframe).2 =
      let counted := clock.countSlice now keyframe
      let regular := clock.previousOr now + counted.interval
      { counted with previous := some (regular + counted.correction (now - regular)) } := rfl

/-- A mean of the estimate and a measurement lies between the two: rounding to nearest does not
take it past either. -/
theorem blend_between {divisor : Nat} (hdivisor : 1 ≤ divisor) (interval : Int) {measured : Int}
    (hmeasured : 1 ≤ measured) :
    min interval measured ≤ blend divisor interval measured ∧
      blend divisor interval measured ≤ max interval measured := by
  have hpositive : (0 : Int) < divisor := by omega
  have hrest : (0 : Int) ≤ divisor - 1 := by omega
  have hleast : min interval measured * divisor ≤
      interval * (divisor - 1) + measured + divisor / 2 := by
    have hpart : min interval measured * ((divisor : Int) - 1) ≤ interval * (divisor - 1) :=
      Int.mul_le_mul_of_nonneg_right (Int.min_le_left _ _) hrest
    have hsum : min interval measured * divisor =
        min interval measured * ((divisor : Int) - 1) + min interval measured := by ring
    omega
  have hmost : interval * (divisor - 1) + measured + divisor / 2 <
      (max interval measured + 1) * divisor := by
    have hpart : interval * ((divisor : Int) - 1) ≤ max interval measured * (divisor - 1) :=
      Int.mul_le_mul_of_nonneg_right (Int.le_max_left _ _) hrest
    have hsum : (max interval measured + 1) * (divisor : Int) =
        max interval measured * (divisor - 1) + max interval measured + divisor := by ring
    omega
  have hlower := Int.le_ediv_of_mul_le hpositive hleast
  have hupper := Int.ediv_lt_of_lt_mul hpositive hmost
  unfold blend
  omega

/-- Over a whole group of slices a steady camera is measured exactly. -/
theorem measured_steady {real : Int} (hreal : 0 ≤ real) (first : Nat) {slices : Nat}
    (hslices : 0 < slices) :
    measured (first * real) ((first + slices : Nat) * real) slices = real := by
  have hspan : ((first + slices : Nat) : Int) * real - first * real = slices * real := by
    push_cast
    ring
  have hnonneg : 0 ≤ (slices : Int) * real := Int.mul_nonneg (Int.natCast_nonneg _) hreal
  rw [measured, hspan, Int.max_eq_left hnonneg, Int.mul_ediv_cancel_left _ (by omega)]

/-- What is left of a drift once it is corrected. A correction takes off more than the camera can
add in a slice, so three nominal intervals are never exceeded. -/
theorem abs_sub_correction_le {clock : OutputClock} (htolerance : clock.smoothing.tolerance = 2)
    (hanchor : clock.anchor.isSome = true) {nominal real drift : Int}
    (hsteady : 20 * |real - nominal| ≤ nominal)
    (hlower : min nominal real ≤ clock.interval) (hupper : clock.interval ≤ max nominal real)
    (hdrift : |drift| ≤ 3 * nominal + |real - nominal|) :
    |drift - clock.correction drift| ≤ 3 * nominal := by
  have hfast := le_abs_self (real - nominal)
  have hslow := neg_le_abs (real - nominal)
  rw [abs_le] at hdrift ⊢
  unfold correction
  rw [htolerance]
  split
  · dsimp only
    omega
  · rename_i hwithin
    simp only [hanchor, Bool.true_and, decide_eq_true_eq] at hwithin
    omega

/-! ## The two phases -/

/-- Before the anchor is set the clock runs freely at the nominal interval. -/
structure Free (nominal real : Int) (k : Nat) (clock : OutputClock) : Prop where
  smoothing : clock.smoothing = {}
  anchor : clock.anchor = none
  slices : clock.slices = k
  early : k ≤ 60
  interval : clock.interval = nominal
  previous : clock.previousOr (k * real) = k * nominal - nominal

/-- Once the anchor is set, at a keyframe fewer than sixty slices ago, the slice before is off by at
most three nominal intervals. -/
structure Held (nominal real : Int) (gop k : Nat) (clock : OutputClock) : Prop where
  smoothing : clock.smoothing = {}
  anchor : ∃ first : Nat, clock.anchor = some (first * real) ∧ gop ∣ first ∧
    k = first + 1 + clock.slices
  slices : clock.slices < 60
  lower : min nominal real ≤ clock.interval
  upper : clock.interval ≤ max nominal real
  previous : |k * real - real - clock.previousOr (k * real)| ≤ 3 * nominal

section Steady

variable {nominal real : Int} {gop k : Nat} {clock : OutputClock}

theorem free_reset (hsmoothing : clock.smoothing = {}) (real : Int) :
    Free clock.nominal real 0 clock.reset where
  smoothing := hsmoothing
  anchor := rfl
  slices := rfl
  early := Nat.zero_le _
  interval := rfl
  previous := by
    simp only [previousOr, reset, Option.getD_none]
    omega

/-- Counting a slice while the clock runs freely. A group of sixty has a keyframe at its end, so
the anchor is set at slice sixty at the latest. -/
theorem Free.countSlice (h : Free nominal real k clock) (hgop : gop ∣ 60) :
    let counted := clock.countSlice (k * real) (decide (gop ∣ k))
    counted.smoothing = {} ∧ counted.interval = nominal ∧
      (counted.anchor = none ∧ counted.slices = k + 1 ∧ k + 1 ≤ 60 ∨
        counted.anchor = some (k * real) ∧ gop ∣ k ∧ counted.slices = 0) := by
  have hearly := h.early
  have hupdate : clock.smoothing.updateSlices = 60 := by rw [h.smoothing]
  unfold OutputClock.countSlice
  dsimp only
  split
  · rename_i hset
    simp only [Bool.and_eq_true, decide_eq_true_eq] at hset
    refine ⟨h.smoothing, ?_, Or.inr ⟨rfl, hset.1, rfl⟩⟩
    rw [h.anchor]
    exact h.interval
  · rename_i hkept
    rw [h.slices, hupdate] at hkept
    refine ⟨h.smoothing, h.interval, Or.inl ⟨h.anchor, by rw [h.slices], ?_⟩⟩
    by_contra hlast
    obtain rfl : k = 60 := by omega
    exact hkept (by simp [hgop])

/-- Counting a slice with the anchor set. A group of sixty ends at a keyframe, where it is
measured exactly and a new one begins. -/
theorem Held.countSlice (h : Held nominal real gop k clock) (hgop : gop ∣ 60)
    (hreal : 1 ≤ real) :
    let counted := clock.countSlice (k * real) (decide (gop ∣ k))
    counted.smoothing = {} ∧ min nominal real ≤ counted.interval ∧
      counted.interval ≤ max nominal real ∧
      (∃ first : Nat, counted.anchor = some (first * real) ∧ gop ∣ first ∧
        k = first + counted.slices) ∧
      counted.slices < 60 := by
  obtain ⟨first, hanchor, hfirst, hk⟩ := h.anchor
  have hslices := h.slices
  have hupdate : clock.smoothing.updateSlices = 60 := by rw [h.smoothing]
  have hdivisor : clock.smoothing.divisor = 20 := by rw [h.smoothing]
  unfold OutputClock.countSlice
  dsimp only
  split
  · rename_i hset
    simp only [Bool.and_eq_true, decide_eq_true_eq, hupdate] at hset
    have hgroup : clock.slices + 1 = 60 := by omega
    obtain rfl : k = first + 60 := by omega
    have hmeasured : measured (first * real) ((first + 60 : Nat) * real) 60 = real :=
      measured_steady (by omega) first (by omega)
    obtain ⟨hleast, hmost⟩ := blend_between (show 1 ≤ 20 by omega) clock.interval hreal
    have hlower := h.lower
    have hupper := h.upper
    rw [hanchor, hgroup, hdivisor]
    dsimp only
    rw [hmeasured]
    exact ⟨h.smoothing, by omega, by omega, ⟨first + 60, rfl, hset.1, rfl⟩, by omega⟩
  · rename_i hkept
    refine ⟨h.smoothing, h.lower, h.upper, ⟨first, hanchor, hfirst, by dsimp only; omega⟩, ?_⟩
    by_contra hlast
    have hgroup : clock.slices + 1 = 60 := by
      dsimp only at hlast
      omega
    have hkeyframe : gop ∣ k := by
      have hsum : k = first + 60 := by omega
      rw [hsum]
      exact Nat.dvd_add hfirst hgop
    exact hkept (by simp [hkeyframe, hupdate, hgroup])

/-- A slice that is counted with the anchor set leaves the clock held, if it drifts no further than
three nominal intervals and what the camera adds in a slice. -/
theorem held_stamp (hsteady : 20 * |real - nominal| ≤ nominal)
    {counted : OutputClock} (hcounted : clock.countSlice (k * real) (decide (gop ∣ k)) = counted)
    (hsmoothing : counted.smoothing = {})
    (hlower : min nominal real ≤ counted.interval) (hupper : counted.interval ≤ max nominal real)
    (hanchor : ∃ first : Nat, counted.anchor = some (first * real) ∧ gop ∣ first ∧
      k = first + counted.slices)
    (hslices : counted.slices < 60)
    (hdrift : |k * real - (clock.previousOr (k * real) + counted.interval)| ≤
      3 * nominal + |real - nominal|) :
    Held nominal real gop (k + 1) (clock.stamp (k * real) (decide (gop ∣ k))).2 := by
  obtain ⟨first, hfirst, hdvd, hk⟩ := hanchor
  rw [stamp_snd, hcounted]
  dsimp only
  generalize clock.previousOr (k * real) + counted.interval = regular at hdrift ⊢
  refine ⟨hsmoothing, ⟨first, hfirst, hdvd, ?_⟩, hslices, hlower, hupper, ?_⟩
  · dsimp only
    omega
  · have hleft : |(k * real - regular) - counted.correction (k * real - regular)| ≤ 3 * nominal :=
      abs_sub_correction_le (by rw [hsmoothing]) (by rw [hfirst]; rfl) hsteady hlower hupper hdrift
    have herror : ((k + 1 : Nat) : Int) * real - real -
        (regular + counted.correction (k * real - regular)) =
          (k * real - regular) - counted.correction (k * real - regular) := by
      push_cast
      ring
    simp only [previousOr, Option.getD_some]
    rw [herror]
    exact hleft

theorem Held.stamp (h : Held nominal real gop k clock) (hgop : gop ∣ 60) (hnominal : 1 ≤ nominal)
    (hsteady : 20 * |real - nominal| ≤ nominal) :
    Held nominal real gop (k + 1) (clock.stamp (k * real) (decide (gop ∣ k))).2 := by
  have hfast := le_abs_self (real - nominal)
  have hslow := neg_le_abs (real - nominal)
  obtain ⟨hsmoothing, hlower, hupper, hanchor, hslices⟩ := h.countSlice hgop (by omega)
  refine held_stamp hsteady rfl hsmoothing hlower hupper hanchor hslices ?_
  have hprevious := abs_le.mp h.previous
  rw [abs_le]
  omega

/-- Sixty slices at the nominal interval drift by sixty times what the camera is off. -/
theorem abs_drift_le (hk : k ≤ 60) (hsteady : 20 * |real - nominal| ≤ nominal) :
    |(k : Int) * real - k * nominal| ≤ 3 * nominal := by
  have hproduct : |(k : Int) * real - k * nominal| = k * |real - nominal| := by
    rw [← Int.mul_sub, abs_mul, Nat.abs_cast]
  have hmost : (k : Int) * |real - nominal| ≤ 60 * |real - nominal| :=
    Int.mul_le_mul_of_nonneg_right (by omega) (abs_nonneg _)
  omega

theorem Free.stamp (h : Free nominal real k clock) (hgop : gop ∣ 60)
    (hsteady : 20 * |real - nominal| ≤ nominal) :
    Free nominal real (k + 1) (clock.stamp (k * real) (decide (gop ∣ k))).2 ∨
      Held nominal real gop (k + 1) (clock.stamp (k * real) (decide (gop ∣ k))).2 := by
  obtain ⟨hsmoothing, hinterval, hkept | ⟨hanchor, hdvd, hslices⟩⟩ := h.countSlice hgop
  · left
    obtain ⟨hanchor, hslices, hearly⟩ := hkept
    have hstill : ∀ drift,
        (clock.countSlice (k * real) (decide (gop ∣ k))).correction drift = 0 := by
      intro drift
      simp [correction, hanchor]
    rw [stamp_snd]
    refine ⟨hsmoothing, hanchor, hslices, hearly, hinterval, ?_⟩
    simp only [previousOr, Option.getD_some]
    rw [hstill, hinterval]
    have hprevious := h.previous
    unfold previousOr at hprevious
    rw [hprevious]
    push_cast
    ring
  · right
    refine held_stamp hsteady rfl hsmoothing ?_ ?_ ⟨k, hanchor, hdvd, ?_⟩ ?_ ?_
    · rw [hinterval]
      exact Int.min_le_left _ _
    · rw [hinterval]
      exact Int.le_max_left _ _
    · rw [hslices]
      rfl
    · rw [hslices]
      omega
    · have hmost := abs_drift_le h.early hsteady
      have hrest := abs_nonneg (real - nominal)
      rw [hinterval, h.previous, Int.sub_add_cancel]
      omega

/-- Along the whole run the clock is in one of the two phases. -/
theorem free_or_held (hsmoothing : clock.smoothing = {}) (hnominal : 1 ≤ clock.nominal)
    (hsteady : 20 * |real - clock.nominal| ≤ clock.nominal) (hgop : gop ∣ 60) (k : Nat) :
    Free clock.nominal real k (clock.reset.before (steadySlices real gop) k) ∨
      Held clock.nominal real gop k (clock.reset.before (steadySlices real gop) k) := by
  induction k with
  | zero => exact Or.inl (free_reset hsmoothing real)
  | succ k ih =>
    rcases ih with hfree | hheld
    · exact hfree.stamp hgop hsteady
    · exact Or.inr (hheld.stamp hgop hnominal hsteady)

end Steady

/-! ## The bound -/

/-- **Bounded drift.** In every session of a clock with the default smoothing, whatever its nominal
interval: if the camera delivers a slice every `real` nanoseconds, which is off the nominal interval
by a twentieth of it at most, with a keyframe among every `gop` slices, where `gop` divides sixty,
then no slice, however late in the session, is presented more than three nominal intervals away
from when it was captured. -/
theorem steady_drift_bounded (clock : OutputClock) (hsmoothing : clock.smoothing = {})
    (hnominal : 1 ≤ clock.nominal) (real : Int)
    (hsteady : 20 * |real - clock.nominal| ≤ clock.nominal) (gop : Nat) (hgop : gop ∣ 60)
    (k : Nat) :
    |((clock.reset.timingOf (steadySlices real gop) k).pts : Int) - k * real| ≤
      3 * clock.nominal := by
  have hslow := neg_le_abs (real - clock.nominal)
  have hnow : ∀ k, 0 ≤ (steadySlices real gop k).now := fun k =>
    Int.mul_nonneg (Int.natCast_nonneg k) (by omega)
  -- The time of a slice is where the clock stands before the next one.
  have hticking := (ticking_reset hnominal).before hnow k
  have hpts : (clock.reset.before (steadySlices real gop) (k + 1)).previous =
      some ((clock.reset.timingOf (steadySlices real gop) k).pts : Int) :=
    hticking.previous_stamp (hnow k) _
  have hphase := free_or_held hsmoothing hnominal hsteady hgop (k + 1)
  generalize (clock.reset.timingOf (steadySlices real gop) k).pts = pts at hpts ⊢
  generalize clock.reset.before (steadySlices real gop) (k + 1) = next at hpts hphase
  have hsum : ((k + 1 : Nat) : Int) * real - real = k * real := by
    push_cast
    ring
  rcases hphase with hfree | hheld
  · have hprevious := hfree.previous
    have hearly := hfree.early
    have hmost := abs_drift_le (k := k) (by omega) hsteady
    have hplace : ((k + 1 : Nat) : Int) * clock.nominal - clock.nominal = k * clock.nominal := by
      push_cast
      ring
    rw [previousOr, hpts, Option.getD_some, hplace] at hprevious
    rw [hprevious, abs_sub_comm]
    exact hmost
  · have hprevious := hheld.previous
    rw [previousOr, hpts, Option.getD_some, hsum, abs_sub_comm] at hprevious
    exact hprevious

/-- A camera that is slower by a twentieth, right before the anchor is set: the clock has run freely
for 59 intervals and is almost three of them behind. -/
theorem steady_drift_bounded_unanchored :
    let clock := new 33333333 {}
    let pts := (clock.reset.timingOf (steadySlices 34999999 30) 59).pts
    clock.smoothing = {} ∧ 1 ≤ clock.nominal ∧ 20 * |34999999 - clock.nominal| ≤ clock.nominal ∧
      30 ∣ 60 ∧ pts = 59 * 33333333 ∧ |(pts : Int) - (59 : Nat) * 34999999| ≤ 3 * clock.nominal := by
  intro clock pts
  have hsteady : 20 * |34999999 - clock.nominal| ≤ clock.nominal := by decide
  refine ⟨rfl, by decide, hsteady, by decide, by decide +kernel, ?_⟩
  exact steady_drift_bounded clock rfl (by decide) 34999999 hsteady 30 (by decide) 59

end OutputClock

end CamStream
