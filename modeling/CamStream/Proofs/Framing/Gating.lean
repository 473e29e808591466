import CamStream.Proofs.Framing.Runs
import CamStream.Store.Memory
import Mathlib.Data.List.Forall2

/-!
# Gating on the first keyframe

Within a session, what goes out is a filter of what was looked at: the units from the first IDR
slice on, without the parameter sets, each as it was scanned. This is said here without the state
of a framer, by `gatedUnits`, `withheldUnits` and `refusedUnits`, which are functions of the list
of units alone. Each of them grows with one more unit exactly when the unit meets the fate in
question (`gatedUnits_concat` and its siblings), and so a run of units is an induction on its
length.

* `session_gated`: the units that go out, the fate of every unit, and the two counters.
-/

namespace CamStream

/-! ## Filters on the units of a session -/

/-- The units from the first IDR slice on that are no parameter sets. -/
def gatedUnits (units : List NalUnit) : List NalUnit :=
  (units.dropWhile (·.kind ≠ .idrSlice)).filter (!·.kind.isParameterSet)

/-- The units before the first IDR slice that are no parameter sets. -/
def withheldUnits (units : List NalUnit) : List NalUnit :=
  (units.takeWhile (·.kind ≠ .idrSlice)).filter (!·.kind.isParameterSet)

/-- The parameter sets that are too short or too long. -/
def refusedUnits (units : List NalUnit) : List NalUnit :=
  units.filter fun unit =>
    unit.kind.isParameterSet && !decide (5 ≤ unit.bytes.length ∧ unit.bytes.length ≤ 1024)

def hasKeyframe (units : List NalUnit) : Bool := units.any (·.kind = .idrSlice)

theorem gatedUnits_concat (units : List NalUnit) (unit : NalUnit) :
    gatedUnits (units ++ [unit]) = gatedUnits units ++
      if unit.kind.isParameterSet = false ∧
        (unit.kind = .idrSlice ∨ hasKeyframe units = true) then [unit] else [] := by
  induction units with
  | nil =>
    by_cases hidr : unit.kind = .idrSlice <;>
      simp [gatedUnits, hasKeyframe, hidr, NalKind.isParameterSet]
  | cons first rest ih =>
    by_cases hfirst : first.kind = .idrSlice
    · have hdrop : ∀ units : List NalUnit,
          (first :: units).dropWhile (·.kind ≠ .idrSlice) = first :: units := by
        simp [hfirst]
      rw [gatedUnits, gatedUnits, List.cons_append, hdrop, hdrop, ← List.cons_append,
        List.filter_append]
      cases hset : unit.kind.isParameterSet <;> simp [hasKeyframe, hfirst, hset]
    · simpa [gatedUnits, hasKeyframe, hfirst] using ih

theorem withheldUnits_concat (units : List NalUnit) (unit : NalUnit) :
    withheldUnits (units ++ [unit]) = withheldUnits units ++
      if unit.kind.isParameterSet = false ∧ unit.kind ≠ .idrSlice ∧ hasKeyframe units = false
      then [unit] else [] := by
  induction units with
  | nil =>
    by_cases hidr : unit.kind = .idrSlice
    · simp [withheldUnits, hidr]
    · cases hset : unit.kind.isParameterSet <;> simp [withheldUnits, hasKeyframe, hidr, hset]
  | cons first rest ih =>
    by_cases hfirst : first.kind = .idrSlice
    · simp [withheldUnits, hasKeyframe, hfirst]
    · have hwithheld : ∀ units, withheldUnits (first :: units) =
          (if first.kind.isParameterSet then [] else [first]) ++ withheldUnits units := by
        intro units
        cases hset : first.kind.isParameterSet <;> simp [withheldUnits, hfirst, hset]
      have hkeyframe : hasKeyframe (first :: rest) = hasKeyframe rest := by
        simp [hasKeyframe, hfirst]
      rw [List.cons_append, hwithheld, hwithheld, hkeyframe, ih, List.append_assoc]

theorem refusedUnits_concat (units : List NalUnit) (unit : NalUnit) :
    refusedUnits (units ++ [unit]) = refusedUnits units ++
      if unit.kind.isParameterSet = true ∧ ¬ ParameterSets.Admissible unit.bytes
      then [unit] else [] := by
  have hbounds : ParameterSets.Admissible unit.bytes ↔
      5 ≤ unit.bytes.length ∧ unit.bytes.length ≤ 1024 := Iff.rfl
  rw [refusedUnits, List.filter_append, List.filter_singleton]
  simp only [hbounds]
  by_cases h : 5 ≤ unit.bytes.length ∧ unit.bytes.length ≤ 1024 <;>
    cases hset : unit.kind.isParameterSet <;> simp [refusedUnits, h]

namespace History

variable {history : History} {unit : NalUnit} {fate : Fate}

/-- In a history of one session, the session has opened once an IDR slice was met. -/
theorem opened_eq_hasKeyframe (h : .restarted ∉ history) :
    history.opened = hasKeyframe history.units := by
  induction history with
  | nil => rfl
  | cons event history ih =>
    have hrest := ih fun hmem => h (List.mem_cons_of_mem _ hmem)
    cases event with
    | met unit fate =>
      rw [opened_met, units_met, hrest]
      simp [hasKeyframe, Bool.or_comm]
    | restarted => exact absurd List.mem_cons_self h

/-- A unit went out as it was scanned, an IDR slice possibly behind the pair cached before. -/
def Forwards (seed : ParameterSets) (history : History) (unit : NalUnit) (out : FramedUnit) :
    Prop :=
  ∃ before, .met unit (.emitted out) :: before <:+ history ∧ out.kind = unit.kind ∧
    out.bytes =
      (if out.carriesSets then (History.latestSets seed before).toBlob else []) ++ unit.bytes ∧
    (out.carriesSets = true → unit.kind = .idrSlice)

end History

/-! ## One session -/

section OneSession

variable {seed : ParameterSets} {history : History} {framer : Framer}

theorem Logged.outputs_forall₂ (h : Logged seed history framer) (hone : .restarted ∉ history)
    {whole : History} (hwhole : history <:+ whole) :
    List.Forall₂ (History.Forwards seed whole) (gatedUnits history.units) history.outputs := by
  -- The history grows towards `whole`, where the pair that a unit went out behind is looked up.
  induction h with
  | start limit => exact .nil
  | @met history framer next unit fate before step ih =>
    have hone' : .restarted ∉ history := fun hmem => hone (List.mem_cons_of_mem _ hmem)
    have hrest := ih hone' ((List.suffix_cons _ _).trans hwhole)
    have hopened : framer.opened = hasKeyframe history.units := by
      rw [before.tracks.opened, History.opened_eq_hasKeyframe hone']
    have hemitted := step.emitted_iff
    rw [hopened] at hemitted
    rw [History.units_met, gatedUnits_concat, History.outputs_met]
    refine List.rel_append hrest ?_
    cases fate with
    | emitted out =>
      obtain ⟨hkind, hbytes, hcarries⟩ := step.bytes_of_emitted
      rw [if_pos (hemitted.mp ⟨out, rfl⟩)]
      refine .cons ⟨history, hwhole, hkind, ?_, fun hsets => ?_⟩ .nil
      · rw [hbytes, before.tracks.sets]
      · rw [hcarries, Bool.and_eq_true, decide_eq_true_iff] at hsets
        exact hsets.1
    | withheld | cached _ | refused _ =>
      rw [if_neg fun hout => by obtain ⟨out, hfate⟩ := hemitted.mpr hout; cases hfate]
      exact .nil
  | restarted _ ih => exact absurd List.mem_cons_self hone
  | limited limit _ ih => exact ih hone hwhole

theorem Logged.count_withheld (h : Logged seed history framer) (hone : .restarted ∉ history) :
    history.fates.countP (·.isWithheld) = (withheldUnits history.units).length := by
  induction h with
  | start limit => rfl
  | @met history framer next unit fate before step ih =>
    have hone' : .restarted ∉ history := fun hmem => hone (List.mem_cons_of_mem _ hmem)
    have hopened : framer.opened = hasKeyframe history.units := by
      rw [before.tracks.opened, History.opened_eq_hasKeyframe hone']
    have hwithheld := step.withheld_iff
    rw [hopened] at hwithheld
    rw [History.units_met, withheldUnits_concat, History.fates_met, List.countP_append, ih hone',
      List.length_append]
    simp only [← hwithheld]
    cases fate <;> rfl
  | restarted _ ih => exact absurd List.mem_cons_self hone
  | limited limit _ ih => exact ih hone

theorem Logged.count_refused (h : Logged seed history framer) :
    history.fates.countP (·.isRefused) = (refusedUnits history.units).length := by
  induction h with
  | start limit => rfl
  | @met history framer next unit fate before step ih =>
    rw [History.units_met, refusedUnits_concat, History.fates_met, List.countP_append, ih,
      List.length_append]
    cases fate with
    | refused refusal =>
      rw [if_pos (step.refused_iff.mp ⟨refusal, rfl⟩)]
      rfl
    | emitted _ | withheld | cached _ =>
      rw [if_neg fun h => by obtain ⟨refusal, hfate⟩ := step.refused_iff.mpr h; cases hfate]
      rfl
  | restarted _ ih => exact ih
  | limited limit _ ih => exact ih

end OneSession

namespace FramerLog

/-- Calls that begin no session leave a history of one session. -/
theorem one_session_afterAll {log : FramerLog} (h : .restarted ∉ log.history)
    {calls : List FramerCall} (hcalls : .reset ∉ calls) :
    .restarted ∉ (log.afterAll calls).history := by
  induction calls generalizing log with
  | nil => exact h
  | cons call calls ih =>
    refine ih ?_ fun hmem => hcalls (List.mem_cons_of_mem _ hmem)
    cases call with
    | process frame => exact fun hmem => h (History.restarted_mem_meet.mp hmem)
    | reset => exact absurd List.mem_cons_self hcalls
    | setLimit limit => exact h

end FramerLog

/-- **Gating without loss or duplication.** In every session of a framer, whatever pair it has
cached, with any store or none, and whatever limits are set on the way:

* the units met are the first units of each frame, up to the limit, in order;
* those that go out are the ones from the first IDR slice on that are no parameter sets, in order
  and once each, as they were scanned;
* every unit has one of four fates, and its kind, its length and what came before decide which;
* the counter of withheld units goes up by the units before the first IDR slice that are no
  parameter sets, the one of malformed units by the parameter sets of impossible length. -/
theorem session_gated {σ : Type} (keeper? : Option (Keeper (StateM σ))) (framer : Framer)
    (tally : Tally) (calls : List FramerCall) (hcalls : .reset ∉ calls) (world : σ) :
    let log := ((({ framer := framer.reset, tally } : FramerLog).callAll keeper? calls).run
      world).1
    let units := unitsLookedAt framer.limit calls
    log.history.units = units ∧
    List.Forall₂ (History.Forwards framer.sets log.history) (gatedUnits units)
      log.history.outputs ∧
    (∀ unit fate before, .met unit fate :: before <:+ log.history →
      ((∃ out, fate = .emitted out) ↔ unit.kind.isParameterSet = false ∧
        (unit.kind = .idrSlice ∨ hasKeyframe (History.units before) = true)) ∧
      (fate = .withheld ↔ unit.kind.isParameterSet = false ∧
        unit.kind ≠ .idrSlice ∧ hasKeyframe (History.units before) = false) ∧
      ((∃ changed, fate = .cached changed) ↔ unit.kind.isParameterSet = true ∧
        5 ≤ unit.bytes.length ∧ unit.bytes.length ≤ 1024) ∧
      ((∃ refusal, fate = .refused refusal) ↔ unit.kind.isParameterSet = true ∧
        ¬ (5 ≤ unit.bytes.length ∧ unit.bytes.length ≤ 1024))) ∧
    log.tally.unitsBeforeKeyframe = tally.unitsBeforeKeyframe + (withheldUnits units).length ∧
    log.tally.malformedUnits = tally.malformedUnits + (refusedUnits units).length := by
  intro log units
  let start : FramerLog := { framer := framer.reset, tally }
  have hlogged : Logged framer.sets log.history log.framer :=
    FramerLog.logged_callAll keeper? start calls world (.start framer.limit)
  have hunits : log.history.units = units := FramerLog.units_callAll keeper? start calls world
  have hone : .restarted ∉ log.history := by
    rw [(FramerLog.callAll_matches keeper? (.refl start) calls world).history]
    exact FramerLog.one_session_afterAll (by simp [start]) hcalls
  obtain ⟨hwithheld, hrefused⟩ := FramerLog.counts_callAll keeper? start calls world rfl
  refine ⟨hunits, ?_, ?_, ?_, ?_⟩
  · rw [← hunits]
    exact hlogged.outputs_forall₂ hone (List.suffix_refl _)
  · intro unit fate before hmem
    obtain ⟨earlier, next, hbefore, hstep⟩ := hlogged.before hmem
    have hone' : .restarted ∉ before := fun hin =>
      hone (hmem.subset (List.mem_cons_of_mem _ hin))
    have hopened : earlier.opened = hasKeyframe (History.units before) := by
      rw [hbefore.tracks.opened, History.opened_eq_hasKeyframe hone']
    rw [← hopened]
    exact ⟨hstep.emitted_iff, hstep.withheld_iff, hstep.cached_iff, hstep.refused_iff⟩
  · rw [← hunits, ← hlogged.count_withheld hone]
    exact hwithheld
  · rw [← hunits, ← hlogged.count_refused]
    exact hrefused

/-- A session of two frames that opens in the second one, where only three units are looked at. -/
theorem session_gated_opening_late :
    let calls : List FramerCall :=
      [.process [0, 0, 0, 1, 0x06, 0x09, 0, 0, 0, 1, 0x41, 0x9A],
        .setLimit 3,
        .process [0, 0, 0, 1, 0x67, 0x64, 0, 0, 0, 1, 0x65, 0x88, 0, 0, 0, 1, 0x41, 0x9B,
          0, 0, 0, 1, 0x41, 0x9C]]
    let keeper : Keeper (StateM Shelf) := { store := .memory, device := "0" }
    let log := ((({ framer := Framer.reset {} } : FramerLog).callAll (some keeper) calls).run []).1
    .reset ∉ calls ∧ log.history.units.map (·.kind) = [.other 6, .slice, .sps, .idrSlice, .slice] ∧
      log.history.outputs.length = 2 ∧ log.tally.unitsBeforeKeyframe = 2 ∧
      log.tally.malformedUnits = 0 := by
  intro calls keeper log
  have hcalls : .reset ∉ calls := by decide
  obtain ⟨hunits, houtputs, -, hwithheld, hrefused⟩ :=
    session_gated (some keeper) {} {} calls hcalls []
  have hscanned : (unitsLookedAt defaultUnitLimit calls).map (·.kind) =
      [.other 6, .slice, .sps, .idrSlice, .slice] := by decide +kernel
  refine ⟨hcalls, ?_, ?_, ?_, ?_⟩
  · rw [hunits]
    exact hscanned
  · rw [← houtputs.length_eq]
    decide +kernel
  · rw [hwithheld]
    decide +kernel
  · rw [hrefused]
    decide +kernel

end CamStream
