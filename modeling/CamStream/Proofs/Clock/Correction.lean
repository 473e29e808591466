import CamStream.Proofs.Clock.Estimate
import Mathlib.Algebra.Order.Archimedean.Basic
import Mathlib.Data.Rat.Floor

/-!
# Drift corrections never overshoot

Once the anchor is set, a slice that is off by more than the tolerance is moved towards its capture by half
an interval, which is less than it is off by. So it stays on the side it was on, and what it lags by falls
by half an interval a slice until the tolerance is reached.

* `settle`: what is left of a drift after the correction (`lag_stamp`).
* `iterate_settle`: how far drifts have shrunk after any number of corrections, and when they are within
  the tolerance.
* `Stretch`: slices that come one estimated interval apart with no estimation among them. Each lags by what
  the correction leaves of the lag of the slice before it (`Stretch.lag_eq`).
* `drift_contracts`: both for every run.
-/

namespace CamStream

namespace OutputClock

variable {clock : OutputClock} {band half drift : Int}

/-! ## One correction -/

/-- What is left of a drift: all of it within the band, and else what lies beyond half an interval. -/
def settle (band half drift : Int) : Int :=
  if |drift| ≤ band then drift else drift - drift.sign * half

theorem settle_of_le (h : |drift| ≤ band) : settle band half drift = drift := if_pos h

theorem settle_of_lt (h : band < |drift|) : settle band half drift = drift - drift.sign * half :=
  if_neg (not_le.mpr h)

/-- A drift outside of the band stays on its side of zero, and is half an interval closer. -/
theorem sign_settle (hhalf : 0 ≤ half) (hband : half ≤ band) (h : band < |drift|) :
    (settle band half drift).sign = drift.sign ∧ |settle band half drift| = |drift| - half := by
  rw [settle_of_lt h]
  rcases lt_trichotomy drift 0 with hneg | rfl | hpos
  · rw [abs_of_neg hneg] at h ⊢
    rw [Int.sign_eq_neg_one_of_neg hneg, Int.sign_eq_neg_one_iff_neg, abs_of_neg (by omega)]
    omega
  · rw [abs_zero] at h
    omega
  · rw [abs_of_pos hpos] at h ⊢
    rw [Int.sign_eq_one_of_pos hpos, Int.sign_eq_one_iff_pos, abs_of_pos (by omega)]
    omega

/-- With the anchor set, a drift beyond the tolerance is corrected by half an interval. -/
theorem correction_of_lt (hanchor : clock.anchor.isSome = true) (hinterval : 0 ≤ clock.interval)
    (htolerance : 1 ≤ clock.smoothing.tolerance)
    (h : clock.smoothing.tolerance * clock.interval < |drift|) :
    clock.correction drift = drift.sign * (clock.interval / 2) := by
  have hbeyond : clock.smoothing.tolerance * clock.interval < (drift.natAbs : Int) := by
    rwa [← Int.abs_eq_natAbs]
  have hwhole : clock.interval ≤ clock.smoothing.tolerance * clock.interval :=
    le_mul_of_one_le_left hinterval (by omega)
  rw [correction, decide_eq_true hbeyond, hanchor, Bool.and_self, if_pos rfl]
  rcases lt_trichotomy drift 0 with hneg | rfl | hpos
  · rw [Int.sign_eq_neg_one_of_neg hneg]
    dsimp only
    omega
  · rw [Int.natAbs_zero] at hbeyond
    omega
  · rw [Int.sign_eq_one_of_pos hpos]
    dsimp only
    omega

theorem sub_correction (hanchor : clock.anchor.isSome = true) (hinterval : 0 ≤ clock.interval)
    (htolerance : 1 ≤ clock.smoothing.tolerance) (drift : Int) :
    drift - clock.correction drift =
      settle (clock.smoothing.tolerance * clock.interval) (clock.interval / 2) drift := by
  rcases Int.lt_or_le (clock.smoothing.tolerance * clock.interval) |drift| with hbeyond | hwithin
  · rw [correction_of_lt hanchor hinterval htolerance hbeyond, settle_of_lt hbeyond]
  · rw [correction_eq_zero hwithin, settle_of_le hwithin, Int.sub_zero]

/-- How far behind its capture at `now` the slice before was placed. -/
def lag (clock : OutputClock) (now : Int) : Int := now - clock.previousOr now

/-- A slice lags by what the correction leaves of its drift from its regular time. -/
theorem lag_stamp (now : Int) (keyframe : Bool)
    (hanchor : (clock.countSlice now keyframe).anchor.isSome = true)
    (hinterval : 0 ≤ (clock.countSlice now keyframe).interval)
    (htolerance : 1 ≤ (clock.countSlice now keyframe).smoothing.tolerance) :
    let counted := clock.countSlice now keyframe
    (clock.stamp now keyframe).2.lag now =
      settle (counted.smoothing.tolerance * counted.interval) (counted.interval / 2)
        (now - (clock.previousOr now + counted.interval)) := by
  intro counted
  have hplaced : (clock.stamp now keyframe).2.lag now = now - (clock.previousOr now +
      counted.interval + counted.correction (now - (clock.previousOr now + counted.interval))) := rfl
  rw [hplaced, ← Int.sub_sub, sub_correction hanchor hinterval htolerance]

/-- A slice that is within the tolerance is placed at its regular time and lasts for one interval. -/
theorem stamp_of_within {now : Int} {keyframe : Bool}
    (h : |now - (clock.previousOr now + (clock.countSlice now keyframe).interval)| ≤
      (clock.countSlice now keyframe).smoothing.tolerance *
        (clock.countSlice now keyframe).interval) :
    (clock.stamp now keyframe).2.previous =
        some (clock.previousOr now + (clock.countSlice now keyframe).interval) ∧
      (clock.stamp now keyframe).1.duration = (clock.countSlice now keyframe).interval.toNat := by
  rw [stamp_of_still rfl (correction_eq_zero h)]
  exact ⟨rfl, rfl⟩

/-! ## Many corrections -/

/-- Corrections bring a drift into the band in as many steps as it takes to cover the distance to it. -/
theorem iterate_settle (hhalf : 0 ≤ half) (hband : half ≤ band) {need : Nat}
    (hneed : ∀ n : Nat, need ≤ n ↔ |drift| - band ≤ n * half) (n : Nat) :
    let left := (settle band half)^[n] drift
    left.sign = drift.sign ∧ |left| = |drift| - (min n need : Nat) * half ∧
      (|left| ≤ band ↔ need ≤ n) := by
  intro left
  -- The last part says whether one more correction changes anything, so the induction carries all three.
  induction n with
  | zero =>
    have hstart := hneed 0
    refine ⟨rfl, by simp [left], ?_⟩
    rw [hstart]
    dsimp only [left, Function.iterate_zero_apply]
    omega
  | succ n ih =>
    obtain ⟨hsign, hleft, hwithin⟩ := ih
    have hnext := hneed (n + 1)
    have hproduct : ((n + 1 : Nat) : Int) * half = n * half + half := by
      push_cast
      ring
    simp only [left, Function.iterate_succ_apply'] at hsign hleft hwithin ⊢
    rcases Nat.lt_or_ge n need with hoff | hon
    · obtain ⟨hkept, hcloser⟩ := sign_settle hhalf hband (not_le.mp (hwithin.not.mpr (by omega)))
      rw [Nat.min_eq_left (by omega)] at hleft ⊢
      refine ⟨hkept.trans hsign, by omega, ?_⟩
      rw [hnext]
      omega
    · rw [settle_of_le (hwithin.mpr hon), Nat.min_eq_right (by omega)]
      rw [Nat.min_eq_right hon] at hleft
      exact ⟨hsign, hleft, by omega⟩

/-- The number of halves that cover a distance. -/
theorem ceil_div_le_iff {distance : Int} (hhalf : 0 < half) (n : Nat) :
    ⌈(distance : ℚ) / half⌉₊ ≤ n ↔ distance ≤ n * half := by
  rw [Nat.ceil_le, div_le_iff₀ (Int.cast_pos.mpr hhalf)]
  exact_mod_cast Iff.rfl

/-! ## The slices of a run -/

theorem one_le_interval_before (h : 1 ≤ clock.interval) (slices : Nat → ClockSlice) (k : Nat) :
    1 ≤ (clock.before slices k).interval := by
  induction k with
  | zero => exact h
  | succ k ih =>
    cases hmeasured : (clock.before slices k).measurement? (slices k).now (slices k).keyframe with
    | none => exact (interval_countSlice_of_none hmeasured).symm ▸ ih
    | some m => exact (interval_countSlice_of_some hmeasured).symm ▸ one_le_blend _ _ _

/-- Before the first slice, the time of the slice before is one interval back. -/
theorem previousOr_before (clock : OutputClock) (slices : Nat → ClockSlice) (k : Nat) (now : Int) :
    (clock.before slices k).previousOr now =
      (clock.before slices k).previous.getD (now - clock.interval) := by
  cases k with
  | zero => rfl
  | succ k => rfl

/-- How far the slice of a number is off its regular time before it is corrected. -/
def driftOf (clock : OutputClock) (slices : Nat → ClockSlice) (k : Nat) : Int :=
  (slices k).now -
    ((clock.before slices k).previousOr (slices k).now + (clock.before slices (k + 1)).interval)

/-- How far behind its capture the slice of a number is placed. -/
def lagOf (clock : OutputClock) (slices : Nat → ClockSlice) (k : Nat) : Int :=
  (clock.before slices (k + 1)).lag (slices k).now

/-- How far the slice of a number may be off before it is corrected. -/
def bandOf (clock : OutputClock) (slices : Nat → ClockSlice) (k : Nat) : Int :=
  clock.smoothing.tolerance * (clock.before slices (k + 1)).interval

theorem lagOf_eq_settle (hinterval : 1 ≤ clock.interval) (htolerance : 1 ≤ clock.smoothing.tolerance)
    {slices : Nat → ClockSlice} {k : Nat}
    (hanchor : (clock.before slices (k + 1)).anchor.isSome = true) :
    clock.lagOf slices k =
      settle (clock.bandOf slices k) ((clock.before slices (k + 1)).interval / 2)
        (clock.driftOf slices k) := by
  have hsmoothing := smoothing_before clock slices (k + 1)
  have hpositive := one_le_interval_before hinterval slices (k + 1)
  have hlag := lag_stamp (slices k).now (slices k).keyframe hanchor (Int.le_of_lt hpositive)
    (htolerance.trans_eq (congrArg Smoothing.tolerance hsmoothing).symm)
  rw [bandOf, ← hsmoothing]
  exact hlag

/-- A slice that is off by no more than the band is placed at its regular time and lasts for one
interval. -/
theorem placed_of_within (hinterval : 1 ≤ clock.interval) (slices : Nat → ClockSlice) (k : Nat)
    (h : |clock.driftOf slices k| ≤ clock.bandOf slices k) :
    (clock.before slices (k + 1)).previous =
        some ((clock.before slices k).previousOr (slices k).now +
          (clock.before slices (k + 1)).interval) ∧
      ((clock.timingOf slices k).duration : Int) = (clock.before slices (k + 1)).interval := by
  have hpositive := one_le_interval_before hinterval slices (k + 1)
  rw [bandOf, ← smoothing_before clock slices (k + 1)] at h
  obtain ⟨hprevious, hduration⟩ := stamp_of_within h
  refine ⟨hprevious, ?_⟩
  rw [timingOf, hduration, Int.toNat_of_nonneg]
  · rfl
  · exact Int.le_of_lt hpositive

/-! ## Stretches without an estimation -/

/-- The slices behind slice `k` come one estimated interval apart, and nothing is measured at them. -/
def Stretch (clock : OutputClock) (slices : Nat → ClockSlice) (k count : Nat) : Prop :=
  ∀ n < count,
    (slices (k + n + 1)).now =
      (slices (k + n)).now + (clock.before slices (k + 1)).interval ∧
    (clock.before slices (k + n + 1)).measurement? (slices (k + n + 1)).now
      (slices (k + n + 1)).keyframe = none

theorem anchor_isSome_countSlice (h : clock.anchor.isSome = true) (now : Int) (keyframe : Bool) :
    (clock.countSlice now keyframe).anchor.isSome = true := by
  unfold countSlice
  dsimp only
  split
  · rfl
  · exact h

section Stretch

variable {slices : Nat → ClockSlice} {k count n : Nat}

/-- Throughout a stretch the anchor is set and the estimate stays as it is. -/
theorem Stretch.settings (h : clock.Stretch slices k count)
    (hanchor : (clock.before slices (k + 1)).anchor.isSome = true) (hn : n ≤ count) :
    (clock.before slices (k + n + 1)).anchor.isSome = true ∧
      (clock.before slices (k + n + 1)).interval = (clock.before slices (k + 1)).interval := by
  induction n with
  | zero => exact ⟨hanchor, rfl⟩
  | succ n ih =>
    obtain ⟨hset, hinterval⟩ := ih (by omega)
    obtain ⟨-, hmeasured⟩ := h n hn
    exact ⟨anchor_isSome_countSlice hset _ _, (interval_countSlice_of_none hmeasured).trans hinterval⟩

theorem Stretch.bandOf_eq (h : clock.Stretch slices k count)
    (hanchor : (clock.before slices (k + 1)).anchor.isSome = true) (hn : n ≤ count) :
    clock.bandOf slices (k + n) = clock.bandOf slices k := by
  rw [bandOf, bandOf, (h.settings hanchor hn).2]

/-- A slice that comes one interval after the slice before it is off by as much as that one lags. -/
theorem Stretch.driftOf_eq (h : clock.Stretch slices k count)
    (hanchor : (clock.before slices (k + 1)).anchor.isSome = true) (hn : n < count) :
    clock.driftOf slices (k + n + 1) = clock.lagOf slices (k + n) := by
  obtain ⟨-, hinterval⟩ := h.settings hanchor (Nat.succ_le_of_lt hn)
  obtain ⟨hnow, -⟩ := h n hn
  have hplaced : (clock.before slices (k + n + 1)).previousOr (slices (k + n + 1)).now =
      (clock.before slices (k + n + 1)).previousOr (slices (k + n)).now := rfl
  have hkept : (clock.before slices (k + n + 1 + 1)).interval =
      (clock.before slices (k + 1)).interval := hinterval
  -- The slice is captured one interval later, and so is its regular time.
  rw [driftOf, lagOf, lag, hplaced, hkept, hnow]
  omega

/-- Each slice of a stretch lags by what the correction leaves of the lag of the one before it. -/
theorem Stretch.lagOf_eq (h : clock.Stretch slices k count) (hinterval : 1 ≤ clock.interval)
    (htolerance : 1 ≤ clock.smoothing.tolerance)
    (hanchor : (clock.before slices (k + 1)).anchor.isSome = true) (hn : n ≤ count) :
    clock.lagOf slices (k + n) =
      (settle (clock.bandOf slices k) ((clock.before slices (k + 1)).interval / 2))^[n]
        (clock.lagOf slices k) := by
  induction n with
  | zero => rfl
  | succ n ih =>
    obtain ⟨hset, hkept⟩ := h.settings hanchor hn
    have hlag := lagOf_eq_settle hinterval htolerance (k := k + n + 1) hset
    have hband := h.bandOf_eq hanchor hn
    rw [Function.iterate_succ_apply', ← ih (by omega), ← h.driftOf_eq hanchor hn, ← hband, ← hkept]
    exact hlag

/-- Behind a slice that lags by no more than the band, the next one lags as much and comes at a regular
distance. -/
theorem Stretch.regular (h : clock.Stretch slices k count) (hinterval : 1 ≤ clock.interval)
    (htolerance : 1 ≤ clock.smoothing.tolerance)
    (hanchor : (clock.before slices (k + 1)).anchor.isSome = true) (hn : n < count)
    (hwithin : |clock.lagOf slices (k + n)| ≤ clock.bandOf slices k) :
    clock.lagOf slices (k + n + 1) = clock.lagOf slices (k + n) ∧
      (clock.before slices (k + n + 2)).previous =
        (clock.before slices (k + n + 1)).previous.map
          (· + (clock.before slices (k + 1)).interval) ∧
      ((clock.timingOf slices (k + n + 1)).duration : Int) =
        (clock.before slices (k + 1)).interval := by
  obtain ⟨hset, hkept⟩ := h.settings hanchor (Nat.succ_le_of_lt hn)
  have hdrift := h.driftOf_eq hanchor hn
  rw [← hdrift, ← h.bandOf_eq hanchor (Nat.succ_le_of_lt hn)] at hwithin
  obtain ⟨hprevious, hduration⟩ := placed_of_within hinterval slices (k + n + 1) hwithin
  refine ⟨?_, ?_, hduration.trans hkept⟩
  · have hlag := lagOf_eq_settle hinterval htolerance (k := k + n + 1) hset
    exact hlag.trans ((settle_of_le hwithin).trans hdrift)
  · rw [hprevious]
    exact congrArg (fun interval => some (_ + interval)) hkept

end Stretch

/-- **Drift corrections never overshoot.** For every nominal interval and smoothing, every run of slices
with any relative timestamps, and every slice after which the anchor is set, let the drift be how far the
slice is off the time one estimated interval after the slice before it, and the lag how far it is off the
time that it is given. For the first slice of a session, the nominal interval before it stands for the
slice before. A new session begins with the same clock (`reset_before`).

* If the drift is within the tolerance, nothing is corrected, and the slice lasts for one interval.
* Otherwise the lag is on the same side as the drift, and it is smaller by half an interval.
* If slices follow that are captured one estimated interval apart, with no interval measured among them,
  then the lag falls by half an interval a slice, and it is within the tolerance when as many slices have
  passed as it takes to cover the excess in halves, and not before. From then on it never changes, and
  slices are placed one interval apart. -/
theorem drift_contracts (nominalInterval : Nat) (smoothing : Smoothing) (slices : Nat → ClockSlice)
    (k : Nat)
    (hanchor : ((new nominalInterval smoothing).before slices (k + 1)).anchor.isSome = true) :
    let fresh := new nominalInterval smoothing
    let interval := (fresh.before slices (k + 1)).interval
    let half := interval / 2
    let band := smoothing.clamped.tolerance * interval
    let old := (fresh.before slices k).previous.getD ((slices k).now - fresh.nominal)
    let drift := (slices k).now - (old + interval)
    let lag := fresh.lagOf slices
    let need := ⌈((|lag k| - band : Int) : ℚ) / half⌉₊
    (|drift| ≤ band → lag k = drift ∧
      (fresh.before slices (k + 1)).previous = some (old + interval) ∧
      ((fresh.timingOf slices k).duration : Int) = interval) ∧
    (band < |drift| → (lag k).sign = drift.sign ∧ |lag k| = |drift| - half) ∧
    ∀ count, 2 ≤ interval → fresh.Stretch slices k count →
      (∀ n ≤ count, (lag (k + n)).sign = (lag k).sign ∧
        |lag (k + n)| = |lag k| - (min n need : Nat) * half ∧
        (|lag (k + n)| ≤ band ↔ need ≤ n)) ∧
      ∀ n < count, need ≤ n → lag (k + n + 1) = lag (k + n) ∧
        (fresh.before slices (k + n + 2)).previous =
          (fresh.before slices (k + n + 1)).previous.map (· + interval) ∧
        ((fresh.timingOf slices (k + n + 1)).duration : Int) = interval := by
  intro fresh interval half band old drift lag need
  have hnominal : 1 ≤ fresh.interval := (ticking_new nominalInterval smoothing).interval
  have htolerance : 1 ≤ fresh.smoothing.tolerance := Nat.le_max_right _ _
  have hinterval : 1 ≤ interval := one_le_interval_before hnominal slices (k + 1)
  have hwhole : interval ≤ band := le_mul_of_one_le_left (by omega) (by exact_mod_cast htolerance)
  have hdrift : fresh.driftOf slices k = drift := by
    rw [driftOf, previousOr_before]
    rfl
  have hlag : lag k = settle band half drift := by
    rw [← hdrift]
    exact lagOf_eq_settle hnominal htolerance hanchor
  refine ⟨fun hwithin => ?_, fun hbeyond => ?_, fun count hlong hstretch => ?_⟩
  · obtain ⟨hprevious, hduration⟩ := placed_of_within hnominal slices k
      (hdrift.symm ▸ hwithin)
    rw [previousOr_before] at hprevious
    exact ⟨hlag.trans (settle_of_le hwithin), hprevious, hduration⟩
  · rw [hlag]
    exact sign_settle (by omega) (by omega) hbeyond
  · have hleft : ∀ n ≤ count, (lag (k + n)).sign = (lag k).sign ∧
        |lag (k + n)| = |lag k| - (min n need : Nat) * half ∧ (|lag (k + n)| ≤ band ↔ need ≤ n) := by
      intro n hn
      have hiterate : lag (k + n) = (settle band half)^[n] (lag k) :=
        hstretch.lagOf_eq hnominal htolerance hanchor hn
      rw [hiterate]
      exact iterate_settle (by omega) (by omega) (ceil_div_le_iff (by omega)) n
    refine ⟨hleft, fun n hn hdone => ?_⟩
    obtain ⟨-, -, hwithin⟩ := hleft n (Nat.le_of_lt hn)
    exact hstretch.regular hnominal htolerance hanchor hn (hwithin.mpr hdone)

/-- A jump by more than three intervals, with a tolerance of one. Half an interval is taken off at the slice
that jumps and at the four after it, and then the clock stays seven behind. -/
theorem drift_contracts_jump :
    let clock := new 10 { updateSlices := 1, tolerance := 1 }
    let slices (k : Nat) : ClockSlice :=
      { now := if k = 0 then 0 else 10 * k + 32, keyframe := k = 0 }
    let excess := |clock.lagOf slices 1| - 1 * (clock.before slices 2).interval
    (clock.before slices 2).anchor.isSome = true ∧ 2 ≤ (clock.before slices 2).interval ∧
    clock.Stretch slices 1 6 ∧
    (List.range 7).map (fun n => clock.lagOf slices (1 + n)) = [27, 22, 17, 12, 7, 7, 7] ∧
    ⌈(excess : ℚ) / ((clock.before slices 2).interval / 2 : Int)⌉₊ = 4 ∧
    |clock.lagOf slices 1| = 32 - 10 / 2 ∧ ((clock.timingOf slices 6).duration : Int) = 10 := by
  intro clock slices excess
  have hanchor : (clock.before slices 2).anchor.isSome = true := by decide
  have hlong : 2 ≤ (clock.before slices 2).interval := by decide
  have hstretch : clock.Stretch slices 1 6 := by
    unfold Stretch
    decide
  have hlags : (List.range 7).map (fun n => clock.lagOf slices (1 + n)) =
      [27, 22, 17, 12, 7, 7, 7] := by decide
  obtain ⟨-, hbeyond, hrest⟩ :=
    drift_contracts 10 { updateSlices := 1, tolerance := 1 } slices 1 hanchor
  obtain ⟨hleft, hregular⟩ := hrest 6 hlong hstretch
  -- The lag is within the tolerance after four slices but not after three.
  obtain ⟨-, -, hfour⟩ := hleft 4 (by decide)
  obtain ⟨-, -, hthree⟩ := hleft 3 (by decide)
  have hneed : ⌈(excess : ℚ) / ((clock.before slices 2).interval / 2 : Int)⌉₊ = 4 :=
    Nat.le_antisymm (hfour.mp (by decide)) (not_le.mp (hthree.not.mp (by decide)))
  exact ⟨hanchor, hlong, hstretch, hlags, hneed, (hbeyond (by decide)).2,
    (hregular 4 (by decide) hneed.le).2.2⟩

end OutputClock

end CamStream
