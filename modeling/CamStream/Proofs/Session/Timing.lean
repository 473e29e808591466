import CamStream.Proofs.Clock.Advance
import CamStream.Proofs.Scan
import CamStream.Session
import Mathlib.Data.List.Forall2

/-!
# What a session hands on

A session gives every framed unit a place in the stream: slices get a time from the clock, other
units pass by it.

* `stampUnits_becomes`: the units come out as they were framed, one for one, and exactly the slices
  are timed.
* `OutputClock.HasTimed`: the invariant that ties the times given so far to the clock. It is kept
  by every frame (`HasTimed.take`), whatever its timestamp.
* `Session.reset_takeAll`: a session leaves nothing of its clock to the next one.
-/

namespace CamStream

/-! ## One for one -/

/-- The framed unit comes out as this one. -/
structure Becomes (framed : FramedUnit) (unit : AccessUnit) : Prop where
  data : unit.data = framed.bytes
  timed : unit.timing.isSome = framed.kind.isSlice
  keyframe : unit.keyframe = framed.isKeyframe

section StampUnits

variable (clock : OutputClock) (now : Int) {first : FramedUnit} (rest : List FramedUnit)

theorem stampUnits_slice (h : first.kind.isSlice = true) :
    stampUnits clock now (first :: rest) =
      let (timing, next) := clock.stamp now first.isKeyframe
      ({ data := first.bytes, timing := some timing, keyframe := first.isKeyframe } ::
          (stampUnits next now rest).1,
        (stampUnits next now rest).2) := by
  simp [stampUnits, h]

theorem stampUnits_other (h : first.kind.isSlice = false) :
    stampUnits clock now (first :: rest) =
      ({ data := first.bytes, timing := none, keyframe := first.isKeyframe } ::
          (stampUnits clock now rest).1,
        (stampUnits clock now rest).2) := by
  simp [stampUnits, h]

end StampUnits

theorem reset_stampUnits (clock : OutputClock) (now : Int) (framed : List FramedUnit) :
    (stampUnits clock now framed).2.reset = clock.reset := by
  induction framed generalizing clock with
  | nil => rfl
  | cons first rest ih =>
    cases hslice : first.kind.isSlice with
    | true =>
      rw [stampUnits_slice clock now rest hslice]
      exact (ih _).trans (clock.reset_stamp now first.isKeyframe)
    | false =>
      rw [stampUnits_other clock now rest hslice]
      exact ih clock

theorem stampUnits_becomes (clock : OutputClock) (now : Int) (framed : List FramedUnit) :
    List.Forall₂ Becomes framed (stampUnits clock now framed).1 := by
  induction framed generalizing clock with
  | nil => exact .nil
  | cons first rest ih =>
    cases hslice : first.kind.isSlice with
    | true =>
      rw [stampUnits_slice clock now rest hslice]
      exact .cons ⟨rfl, hslice.symm, rfl⟩ (ih _)
    | false =>
      rw [stampUnits_other clock now rest hslice]
      exact .cons ⟨rfl, hslice.symm, rfl⟩ (ih _)

/-! ## Times -/

/-- A unit that is timed is decoded when it is presented, and lasts for some time. -/
def AccessUnit.WellTimed (unit : AccessUnit) : Prop :=
  ∀ timing, unit.timing = some timing → timing.pts = timing.dts ∧ 0 < timing.duration

namespace OutputClock

/-- The clock has timed these units, in this order, since the session began. -/
structure HasTimed (clock : OutputClock) (units : List AccessUnit) : Prop where
  ticking : clock.Ticking
  wellTimed : ∀ unit ∈ units, unit.WellTimed
  increasing : (units.filterMap (·.pts?)).Pairwise (· < ·)
  passed : ∀ pts ∈ units.filterMap (·.pts?), clock.Passed pts

variable {clock : OutputClock} {units : List AccessUnit}

theorem hasTimed_new (nominalInterval : Nat) (smoothing : Smoothing) :
    (new nominalInterval smoothing).HasTimed [] where
  ticking := ticking_new nominalInterval smoothing
  wellTimed := by simp
  increasing := .nil
  passed := by simp

theorem HasTimed.relative (h : clock.HasTimed units) (timestamp : Nat) :
    (clock.relative timestamp).2.HasTimed units :=
  ⟨h.ticking.relative timestamp, h.wellTimed, h.increasing, h.passed⟩

theorem HasTimed.append_untimed (h : clock.HasTimed units) {unit : AccessUnit}
    (huntimed : unit.timing = none) : clock.HasTimed (units ++ [unit]) := by
  have hnone : [unit].filterMap (·.pts?) = [] := by simp [AccessUnit.pts?, huntimed]
  have hpts : (units ++ [unit]).filterMap (·.pts?) = units.filterMap (·.pts?) := by
    rw [List.filterMap_append, hnone, List.append_nil]
  refine ⟨h.ticking, ?_, hpts ▸ h.increasing, hpts ▸ h.passed⟩
  intro other hother
  rcases List.mem_append.mp hother with hother | hother
  · exact h.wellTimed other hother
  · obtain rfl := List.mem_singleton.mp hother
    intro timing htiming
    rw [huntimed] at htiming
    cases htiming

theorem HasTimed.append_stamped (h : clock.HasTimed units) {now : Int} (hnow : 0 ≤ now)
    (keyframe : Bool) {unit : AccessUnit}
    (htimed : unit.timing = some (clock.stamp now keyframe).1) :
    (clock.stamp now keyframe).2.HasTimed (units ++ [unit]) := by
  have hone : [unit].filterMap (·.pts?) = [(clock.stamp now keyframe).1.pts] := by
    simp [AccessUnit.pts?, htimed]
  refine ⟨h.ticking.stamp hnow keyframe, ?_, ?_, ?_⟩
  · intro other hother
    rcases List.mem_append.mp hother with hother | hother
    · exact h.wellTimed other hother
    · obtain rfl := List.mem_singleton.mp hother
      intro timing htiming
      rw [htimed] at htiming
      cases htiming
      exact h.ticking.timing now keyframe
  · rw [List.filterMap_append, hone, List.pairwise_append]
    refine ⟨h.increasing, List.pairwise_singleton _ _, ?_⟩
    intro earlier hearlier later hlater
    obtain rfl := List.mem_singleton.mp hlater
    exact h.ticking.lt_pts (h.passed earlier hearlier) now keyframe
  · intro pts hpts
    rw [List.filterMap_append, hone] at hpts
    rcases List.mem_append.mp hpts with hpts | hpts
    · exact (h.passed pts hpts).stamp h.ticking hnow keyframe
    · obtain rfl := List.mem_singleton.mp hpts
      exact h.ticking.passed_stamp hnow keyframe

theorem HasTimed.stampUnits (h : clock.HasTimed units) {now : Int} (hnow : 0 ≤ now)
    (framed : List FramedUnit) :
    (stampUnits clock now framed).2.HasTimed (units ++ (stampUnits clock now framed).1) := by
  -- The units timed so far grow with the clock, one framed unit at a time.
  induction framed generalizing clock units with
  | nil => simpa [CamStream.stampUnits] using h
  | cons first rest ih =>
    cases hslice : first.kind.isSlice with
    | true =>
      rw [stampUnits_slice clock now rest hslice]
      dsimp only
      rw [List.append_cons]
      exact ih (h.append_stamped hnow first.isKeyframe rfl)
    | false =>
      rw [stampUnits_other clock now rest hslice, List.append_cons]
      exact ih (h.append_untimed rfl)

theorem HasTimed.take {session : Session} (h : session.clock.HasTimed units)
    (frame : CaptureFrame) :
    (session.take frame).2.clock.HasTimed (units ++ (session.take frame).1.units) := by
  unfold Session.take
  split
  · simpa using h
  · exact (h.relative frame.timestamp).stampUnits (relative_nonneg _) _

end OutputClock

/-! ## Frames -/

theorem scan_nil (budget : Nat) : scan [] budget = [] := by
  have hall : scanAll ([] : List Bytes).flatten = layOut 0 [] := scanAll_flatten (by simp)
  rw [List.flatten_nil] at hall
  rw [scan_eq_take, hall, layOut, List.take_nil]

namespace Session

/-- A frame without bytes holds no units, so the framer can take it like any other. -/
theorem take_framer (session : Session) (frame : CaptureFrame) :
    (session.take frame).2.framer = (session.framer.process frame.data).2 := by
  unfold take
  split
  · rename_i hempty
    rw [List.isEmpty_iff.mp hempty, Framer.process, scan_nil]
    rfl
  · rfl

theorem take_becomes (session : Session) (frame : CaptureFrame) :
    List.Forall₂ Becomes (emittedUnits (session.framer.process frame.data).1)
      (session.take frame).1.units := by
  unfold take
  split
  · rename_i hempty
    rw [List.isEmpty_iff.mp hempty, Framer.process, scan_nil]
    exact .nil
  · exact stampUnits_becomes _ _ _

/-- The session after frames. -/
def takeAll (session : Session) (frames : List CaptureFrame) : Session :=
  frames.foldl (fun session frame => (session.take frame).2) session

/-- Whatever a session has been through, the next one begins with the clock of the first. -/
theorem reset_takeAll (session : Session) (frames : List CaptureFrame) :
    (session.takeAll frames).reset.clock = session.reset.clock := by
  induction frames generalizing session with
  | nil => rfl
  | cons frame frames ih =>
    have hrest := ih (session.take frame).2
    have hfirst : (session.take frame).2.reset.clock = session.reset.clock := by
      unfold take
      split
      · rfl
      · exact reset_stampUnits _ _ _
    exact hrest.trans hfirst

end Session

end CamStream
