import CamStream.Proofs.Framing.Gating
import CamStream.Proofs.Pipeline.Steps

/-!
# Times that the consumer sees

The consumer gets some of the units that a session handed on, in their order. The session timed all
of them before any was lost, so whatever a full queue discards, the times that are left go up.

* `Carries`: what the consumer can tell of a unit from its header byte.
* `popped_times_increase`: which of the popped units are timed, and that their times go up.
-/

namespace CamStream

namespace NalKind

theorem isSlice_ofHeader {header : UInt8} :
    (ofHeader header).isSlice = true ↔ headerNumber header = 1 ∨ headerNumber header = 5 := by
  grind [ofHeader, isSlice]

theorem ofHeader_eq_idrSlice {header : UInt8} :
    ofHeader header = .idrSlice ↔ headerNumber header = 5 := by
  grind [ofHeader]

end NalKind

/-- A scanned unit reaches the consumer, possibly behind a pair. It is timed if its header byte
says that it is a slice of either kind, and a keyframe if it is an IDR slice. -/
def Carries (unit : NalUnit) (access : AccessUnit) : Prop :=
  ∃ pair header body, access.data = pair ++ unit.bytes ∧
    unit.bytes = startCode ++ header :: body ∧
    (access.timing.isSome = true ↔
      NalKind.headerNumber header = 1 ∨ NalKind.headerNumber header = 5) ∧
    (access.keyframe = true ↔ NalKind.headerNumber header = 5)

section Carries

variable {seed : ParameterSets} {history : History}

theorem carries_of_forwards {unit : NalUnit} {framed : FramedUnit} {access : AccessUnit}
    (hscanned : ∃ frame, unit ∈ scanAll frame)
    (hforwards : History.Forwards seed history unit framed) (hbecomes : Becomes framed access) : Carries unit access := by
  obtain ⟨frame, hunit⟩ := hscanned
  obtain ⟨before, -, hkind, hbytes, -⟩ := hforwards
  obtain ⟨header, body, hwhole, hheader⟩ := header_of_mem_scan hunit
  refine ⟨_, header, body, hbecomes.data.trans hbytes, hwhole, ?_, ?_⟩
  · rw [hbecomes.timed, hkind, hheader]
    exact NalKind.isSlice_ofHeader
  · rw [hbecomes.keyframe, FramedUnit.isKeyframe, hkind, hheader, decide_eq_true_iff]
    exact NalKind.ofHeader_eq_idrSlice

theorem forall₂_carries {units : List NalUnit} {framed : List FramedUnit}
    {handed : List AccessUnit} (hscanned : ∀ unit ∈ units, ∃ frame, unit ∈ scanAll frame)
    (hforwards : List.Forall₂ (History.Forwards seed history) units framed)
    (hbecomes : List.Forall₂ Becomes framed handed) : List.Forall₂ Carries units handed := by
  induction hforwards generalizing handed with
  | nil =>
    cases hbecomes
    exact .nil
  | cons hfirst _ ih =>
    cases hbecomes with
    | cons hbecomes hrest =>
      refine .cons (carries_of_forwards (hscanned _ List.mem_cons_self) hfirst hbecomes) ?_
      exact ih (fun unit hunit => hscanned unit (List.mem_cons_of_mem _ hunit)) hrest

end Carries

theorem mem_of_mem_gatedUnits {units : List NalUnit} {unit : NalUnit}
    (h : unit ∈ gatedUnits units) : unit ∈ units :=
  (List.dropWhile_sublist _).subset (List.mem_of_mem_filter h)

/-- What a session that begins anew frames are the gated units of its frames. -/
theorem Pipeline.forwards_framing (session : Session) (frames : List CaptureFrame) :
    let log := Pipeline.framing session.reset frames
    List.Forall₂ (History.Forwards session.framer.sets log.history)
      (gatedUnits (unitsLookedAt session.framer.limit (frames.map (.process ·.data))))
      log.history.outputs := by
  intro log
  let calls : List FramerCall := frames.map (.process ·.data)
  have hlogged : Logged session.framer.sets log.history log.framer :=
    FramerLog.logged_afterAll (.start session.framer.limit) calls
  have hone : .restarted ∉ log.history := FramerLog.one_session_afterAll (by simp) (by simp)
  have hunits : log.history.units = unitsLookedAt session.framer.limit calls :=
    FramerLog.units_afterAll _ calls
  rw [← hunits]
  exact hlogged.outputs_forall₂ hone (List.suffix_refl _)

/-- **Times from end to end.** Let a session begin, after any frames of an earlier one, on an open
and empty queue of any capacity and either policy, and let the capture and the consumer make their
steps in any order. Then the consumer has some of the units that were handed on, in their order,
and these are the gated units of the frames taken so far, one for one: timed exactly for the types
1 and 5, and keyframes exactly for type 5. Every time is the same for decoding as for presenting,
every duration is positive, and the times of the popped units strictly increase. -/
theorem popped_times_increase {σ : Type} (keeper? : Option (Keeper (StateM σ))) (framer : Framer)
    (interval : Nat) (smoothing : Smoothing) (earlier : List CaptureFrame) (tally : Tally)
    (disk : σ) (capacity : Nat) (overflow : Overflow) (now : Pipeline σ)
    (hrun :
      let first : Session := { framer, clock := .new interval smoothing }
      Relation.ReflTransGen (Pipeline.Step keeper?)
        (.opened (first.takeAll earlier).reset tally disk capacity overflow) now) :
    let first : Session := { framer, clock := .new interval smoothing }
    let limit := (first.takeAll earlier).framer.limit
    let units := unitsLookedAt limit (now.frames.map (.process ·.data))
    now.popped.Sublist now.handed ∧
    List.Forall₂ Carries (gatedUnits units) now.handed ∧
    (∀ unit ∈ now.popped, ∀ timing, unit.timing = some timing →
      timing.pts = timing.dts ∧ 0 < timing.duration) ∧
    (now.popped.filterMap (·.pts?)).Pairwise (· < ·) := by
  intro first limit units
  let begun := (first.takeAll earlier).reset
  have hclock : begun.clock = .new interval smoothing := first.reset_takeAll earlier
  have hbegun : begun.clock.HasTimed [] := by
    rw [hclock]
    exact OutputClock.hasTimed_new interval smoothing
  have hdelivers : Pipeline.Delivers begun now := (Pipeline.delivers_opened hbegun).run hrun
  have hpopped : now.popped.Sublist now.handed := by
    refine List.Sublist.trans ?_ hdelivers.inOrder
    rw [List.append_assoc]
    exact List.sublist_append_left _ _
  have hforwards := Pipeline.forwards_framing (first.takeAll earlier) now.frames
  refine ⟨hpopped, forall₂_carries (fun unit hunit => ?_) hforwards hdelivers.becomes, ?_, ?_⟩
  · obtain ⟨frame, -, hscanned⟩ := mem_unitsLookedAt (mem_of_mem_gatedUnits hunit)
    exact ⟨frame, hscanned⟩
  · exact fun unit hunit => hdelivers.timed.wellTimed unit (hpopped.subset hunit)
  · exact hdelivers.timed.increasing.sublist (hpopped.filterMap _)

/-- A queue for one unit gives up the keyframe of the first frame for the slice behind it, and the
second frame was captured before the first. -/
theorem popped_times_increase_past_drop :
    let first : Session := { framer := {}, clock := .new 40 {} }
    let slice : Bytes := [0, 0, 0, 1, 0x41, 0x9A]
    ∃ now : Pipeline Unit,
      Relation.ReflTransGen (Pipeline.Step none)
        (.opened (first.takeAll []).reset {} () 1 .dropOldest) now ∧
      now.popped = [{ data := slice, timing := some ⟨40, 40, 40⟩, keyframe := false },
        { data := slice, timing := some ⟨80, 80, 40⟩, keyframe := false }] ∧
      now.tally.overflowDrops = 1 ∧ (now.popped.filterMap (·.pts?)).Pairwise (· < ·) := by
  intro first slice
  let idr : AccessUnit :=
    { data := ParameterSets.builtIn.toBlob ++ [0, 0, 0, 1, 0x65, 0x88]
      timing := some ⟨0, 0, 40⟩
      keyframe := true }
  let earlier : AccessUnit := { data := slice, timing := some ⟨40, 40, 40⟩, keyframe := false }
  let later : AccessUnit := { data := slice, timing := some ⟨80, 80, 40⟩, keyframe := false }
  let start : Pipeline Unit := .opened (first.takeAll []).reset {} () 1 .dropOldest
  let started := start.take none { data := [0, 0, 0, 1, 0x65, 0x88] ++ slice, timestamp := 100 }
  -- The keyframe is pushed, found in the way of the slice, and discarded.
  have hstarted : started.waiting = [idr, earlier] := by decide +kernel
  have hpushed : Relation.ReflTransGen (Pipeline.Step none) start _ :=
    (Relation.ReflTransGen.refl.tail (.take _ rfl)).tail (.push idr [earlier] _ _ hstarted rfl rfl)
  have hevicted := (hpushed.tail (.findFull (by simp) rfl rfl)).tail (.evict rfl)
  have hpopped := (hevicted.tail (.push earlier [] _ _ rfl rfl rfl)).tail (.pop earlier _ rfl)
  -- The second frame counts as captured with the first one.
  have hlater : (started.session.take { data := slice, timestamp := 50 }).1.units = [later] := by
    decide +kernel
  have htaken := (hpopped.tail (.take { data := slice, timestamp := 50 } rfl)).tail
    (.push later [] _ _ hlater rfl rfl)
  have hrun := htaken.tail (.tryPop later _ rfl)
  obtain ⟨-, -, -, hincreasing⟩ := popped_times_increase none {} 40 {} [] {} () 1 .dropOldest _ hrun
  exact ⟨_, hrun, rfl, by decide +kernel, hincreasing⟩

end CamStream
