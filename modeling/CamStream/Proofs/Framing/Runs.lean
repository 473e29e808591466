import CamStream.Proofs.Framing.History
import CamStream.Proofs.Scan

/-!
# Runs of a framer

A run is any sequence of capture frames, new sessions and new limits, with any store behind the
framer or none. A store is any keeper whose actions change a state of their own, so it may fail in
whatever pattern.

* `FramerLog.callAll_matches`: the store has no influence. History, framer and the counters of
  units are those of `FramerLog.afterAll`, where there is no store.
* `FramerLog.logged_callAll`: a run of calls is a run in the sense of `Logged`.
* `FramerLog.units_callAll`: what a run meets are the first units of each frame, as many as the
  limit allows, in order.
* `FramerLog.counts_callAll`: the counters of units go up by the units withheld and refused, and by
  nothing else.
-/

namespace CamStream

/-- What can be asked of a framer. -/
inductive FramerCall where
  | process (frame : Bytes)
  | reset
  | setLimit (limit : Nat)
deriving DecidableEq, Repr

/-- The units that calls make a framer look at: of each frame the first ones, up to the limit. -/
def unitsLookedAt (limit : Nat) : List FramerCall → List NalUnit
  | [] => []
  | .process frame :: calls => (scanAll frame).take limit ++ unitsLookedAt limit calls
  | .reset :: calls => unitsLookedAt limit calls
  | .setLimit other :: calls => unitsLookedAt (max other 1) calls

theorem mem_unitsLookedAt {limit : Nat} {calls : List FramerCall} {unit : NalUnit}
    (h : unit ∈ unitsLookedAt limit calls) :
    ∃ frame, .process frame ∈ calls ∧ unit ∈ scanAll frame := by
  induction calls generalizing limit with
  | nil => simp [unitsLookedAt] at h
  | cons call calls ih =>
    cases call with
    | process frame =>
      rcases List.mem_append.mp h with h | h
      · exact ⟨frame, List.mem_cons_self, List.mem_of_mem_take h⟩
      · obtain ⟨other, hother, hunit⟩ := ih h
        exact ⟨other, List.mem_cons_of_mem _ hother, hunit⟩
    | reset | setLimit _ =>
      obtain ⟨other, hother, hunit⟩ := ih h
      exact ⟨other, List.mem_cons_of_mem _ hother, hunit⟩

/-- A framer at work: what it met, its state, and the counters. -/
structure FramerLog where
  history : History := []
  framer : Framer
  tally : Tally := {}
deriving DecidableEq, Repr

namespace FramerLog

variable {m : Type → Type} [Monad m]

/-- The log after a call to a framer with a store behind it. -/
def call (keeper? : Option (Keeper m)) (log : FramerLog) : FramerCall → m FramerLog
  | .process frame => do
    let (fates, framer, tally) ← log.framer.processKeeping keeper? log.tally frame
    let history := log.history.meet (scan frame log.framer.limit) fates
    return { history, framer, tally }
  | .reset => return { log with history := .restarted :: log.history, framer := log.framer.reset }
  | .setLimit limit => return { log with framer := log.framer.setLimit limit }

/-- The log after calls, in order. -/
def callAll (keeper? : Option (Keeper m)) (log : FramerLog) (calls : List FramerCall) :
    m FramerLog :=
  calls.foldlM (fun log call => log.call keeper? call) log

/-- The log after a call to a framer without a store. -/
def after (log : FramerLog) : FramerCall → FramerLog
  | .process frame =>
    let (fates, framer) := log.framer.process frame
    { history := log.history.meet (scan frame log.framer.limit) fates
      framer
      tally := log.tally.afterFates fates }
  | .reset => { log with history := .restarted :: log.history, framer := log.framer.reset }
  | .setLimit limit => { log with framer := log.framer.setLimit limit }

/-- The log after calls to a framer without a store. -/
def afterAll (log : FramerLog) (calls : List FramerCall) : FramerLog := calls.foldl after log

/-! ## Stores have no influence -/

/-- Two logs that differ at most in how many writes a store was asked for. -/
structure Matches (log other : FramerLog) : Prop where
  history : log.history = other.history
  framer : log.framer = other.framer
  withheld : log.tally.unitsBeforeKeyframe = other.tally.unitsBeforeKeyframe
  refused : log.tally.malformedUnits = other.tally.malformedUnits

end FramerLog

/-- More writes of the pair are counted. -/
def Tally.plusWrites (tally : Tally) (writes failures : Nat) : Tally :=
  { tally with
    setWrites := tally.setWrites + writes
    setWriteFailures := tally.setWriteFailures + failures }

/-- Keeping a pair counts writes. Which ones does not depend on what was counted before. -/
theorem keepChange_adds {σ : Type} (keeper? : Option (Keeper (StateM σ))) (fates : List Fate)
    (sets : ParameterSets) (world : σ) :
    ∃ writes failures after, ∀ tally,
      (keepChange keeper? fates sets tally).run world =
        (tally.plusWrites writes failures, after) := by
  cases keeper? with
  | none => exact ⟨0, 0, world, fun _ => rfl⟩
  | some keeper =>
    cases hchange : fates.any (·.isChange) with
    | false =>
      refine ⟨0, 0, world, fun tally => ?_⟩
      simp only [keepChange, hchange]
      rfl
    | true =>
      have hkept : ∀ tally, (keepChange (some keeper) fates sets tally).run world =
          (tally.afterWrite ((keeper.store.save keeper.device sets).run world).1,
            ((keeper.store.save keeper.device sets).run world).2) := by
        intro tally
        simp only [keepChange, hchange, if_true]
        rfl
      cases hanswer : ((keeper.store.save keeper.device sets).run world).1 with
      | ok _ => exact ⟨1, 0, _, fun tally => by rw [hkept, hanswer]; rfl⟩
      | error _ => exact ⟨0, 1, _, fun tally => by rw [hkept, hanswer]; rfl⟩

/-- Keeping a pair moves none of the counters of units. -/
theorem keepChange_counts {σ : Type} (keeper? : Option (Keeper (StateM σ))) (fates : List Fate)
    (sets : ParameterSets) (tally : Tally) (world : σ) :
    let kept := ((keepChange keeper? fates sets tally).run world).1
    kept.unitsBeforeKeyframe = tally.unitsBeforeKeyframe ∧
      kept.malformedUnits = tally.malformedUnits := by
  obtain ⟨writes, failures, after, hkept⟩ := keepChange_adds keeper? fates sets world
  rw [hkept]
  exact ⟨rfl, rfl⟩

namespace FramerLog

variable {σ : Type} (keeper? : Option (Keeper (StateM σ)))

theorem call_matches {log other : FramerLog} (h : log.Matches other) (call : FramerCall)
    (world : σ) : ((log.call keeper? call).run world).1.Matches (other.after call) := by
  cases call with
  | process frame =>
    have hkept := keepChange_counts keeper? (log.framer.process frame).1
      (log.framer.process frame).2.sets (log.tally.afterFates (log.framer.process frame).1) world
    have hlog : ((log.call keeper? (.process frame)).run world).1 =
        { history := log.history.meet (scan frame log.framer.limit) (log.framer.process frame).1
          framer := (log.framer.process frame).2
          tally := ((keepChange keeper? (log.framer.process frame).1
            (log.framer.process frame).2.sets
            (log.tally.afterFates (log.framer.process frame).1)).run world).1 } := rfl
    rw [hlog]
    refine ⟨?_, ?_, ?_, ?_⟩
    · simp only [after, h.history, h.framer]
    · simp only [after, h.framer]
    · rw [hkept.1]
      simp only [after, Tally.afterFates, h.framer, h.withheld]
    · rw [hkept.2]
      simp only [after, Tally.afterFates, h.framer, h.refused]
  | reset =>
    exact ⟨congrArg (Event.restarted :: ·) h.history, congrArg Framer.reset h.framer, h.withheld,
      h.refused⟩
  | setLimit limit =>
    exact ⟨h.history, congrArg (Framer.setLimit · limit) h.framer, h.withheld, h.refused⟩

/-- Whatever store is behind a framer, and whatever it answers: the framer meets the same units
with the same fates, ends in the same state and counts the same units as without a store. -/
theorem callAll_matches {log other : FramerLog} (h : log.Matches other)
    (calls : List FramerCall) (world : σ) :
    ((log.callAll keeper? calls).run world).1.Matches (other.afterAll calls) := by
  induction calls generalizing log other world with
  | nil => exact h
  | cons call calls ih =>
    have hstep := call_matches keeper? h call world
    have hrun : ((log.callAll keeper? (call :: calls)).run world).1 =
        ((((log.call keeper? call).run world).1.callAll keeper? calls).run
          ((log.call keeper? call).run world).2).1 := rfl
    rw [hrun]
    exact ih hstep _

theorem Matches.refl (log : FramerLog) : log.Matches log := ⟨rfl, rfl, rfl, rfl⟩

/-! ## What a run meets -/

theorem logged_after {seed : ParameterSets} {log : FramerLog}
    (h : Logged seed log.history log.framer) (call : FramerCall) :
    Logged seed (log.after call).history (log.after call).framer := by
  cases call with
  | process frame => exact h.acceptAll (scan frame log.framer.limit)
  | reset => exact h.restarted
  | setLimit limit => exact h.limited limit

theorem logged_afterAll {seed : ParameterSets} {log : FramerLog}
    (h : Logged seed log.history log.framer) (calls : List FramerCall) :
    Logged seed (log.afterAll calls).history (log.afterAll calls).framer := by
  induction calls generalizing log with
  | nil => exact h
  | cons call calls ih => exact ih (logged_after h call)

end FramerLog

theorem Framer.length_acceptAll (framer : Framer) (units : List NalUnit) :
    (framer.acceptAll units).1.length = units.length := by
  induction units generalizing framer with
  | nil => rfl
  | cons unit units ih => simp [Framer.acceptAll, ih]

/-- What becomes of a unit does not depend on where it lay. -/
theorem Framer.accept_congr (framer : Framer) {unit other : NalUnit}
    (hkind : unit.kind = other.kind) (hbytes : unit.bytes = other.bytes) :
    framer.accept unit = framer.accept other := by
  simp only [Framer.accept, Framer.emitKeyframe, Framer.emitPlain, hkind, hbytes]

theorem Framer.acceptAll_congr (framer : Framer) {units others : List NalUnit}
    (h : units.map (fun unit => (unit.kind, unit.bytes)) =
      others.map fun unit => (unit.kind, unit.bytes)) :
    framer.acceptAll units = framer.acceptAll others := by
  induction units generalizing framer others with
  | nil =>
    rw [List.map_nil, eq_comm, List.map_eq_nil_iff] at h
    rw [h]
  | cons unit units ih =>
    obtain ⟨other, others, rfl, hunit, hrest⟩ := List.map_eq_cons_iff.mp h.symm
    obtain ⟨hkind, hbytes⟩ := Prod.mk.inj hunit
    simp only [Framer.acceptAll, framer.accept_congr hkind.symm hbytes.symm, ih _ hrest.symm]

/-- A framer that looks at all units of a frame goes by their kinds and bytes. -/
theorem Framer.process_eq_acceptAll (framer : Framer) {frame : Bytes} {units : List NalUnit}
    (hscan : (scanAll frame).map (fun unit => (unit.kind, unit.bytes)) =
      units.map fun unit => (unit.kind, unit.bytes))
    (hlimit : units.length ≤ framer.limit) : framer.process frame = framer.acceptAll units := by
  have hlength := congrArg List.length hscan
  rw [List.length_map, List.length_map] at hlength
  rw [process, scan_eq_take, List.take_of_length_le (by omega)]
  exact framer.acceptAll_congr hscan

theorem Framer.acceptAll_append (framer : Framer) (units more : List NalUnit) :
    framer.acceptAll (units ++ more) =
      ((framer.acceptAll units).1 ++ ((framer.acceptAll units).2.acceptAll more).1,
        ((framer.acceptAll units).2.acceptAll more).2) := by
  induction units generalizing framer with
  | nil => rfl
  | cons unit units ih => simp [Framer.acceptAll, ih]

theorem Framer.acceptAll_limit (framer : Framer) (units : List NalUnit) :
    (framer.acceptAll units).2.limit = framer.limit := by
  induction units generalizing framer with
  | nil => rfl
  | cons unit units ih =>
    have hstep := framer.accept_outcome unit
    simp only [Framer.acceptAll, ih]
    generalize framer.accept unit = result at hstep
    obtain ⟨fate, next⟩ := result
    cases hstep <;> rfl

namespace History

/-- Units that meet their fates begin no session. -/
theorem restarted_mem_meet {history : History} {units : List NalUnit} {fates : List Fate} :
    .restarted ∈ history.meet units fates ↔ .restarted ∈ history := by
  rw [meet, List.mem_append, List.mem_reverse, ← List.map_uncurry_zip_eq_zipWith]
  constructor
  · rintro (hmem | hmem)
    · obtain ⟨⟨unit, fate⟩, -, hevent⟩ := List.mem_map.mp hmem
      cases hevent
    · exact hmem
  · exact Or.inr

theorem units_meet (history : History) {units : List NalUnit} {fates : List Fate}
    (h : fates.length = units.length) :
    (history.meet units fates).units = history.units ++ units := by
  induction units generalizing history fates with
  | nil => simp [meet, History.units]
  | cons unit units ih =>
    cases fates with
    | nil => cases h
    | cons fate fates =>
      have hrest := ih (.met unit fate :: history) (Nat.succ.inj h)
      simpa [meet, History.units, Event.unit?] using hrest

theorem fates_meet (history : History) {units : List NalUnit} {fates : List Fate}
    (h : fates.length = units.length) :
    (history.meet units fates).fates = history.fates ++ fates := by
  induction units generalizing history fates with
  | nil => simp_all [meet, History.fates]
  | cons unit units ih =>
    cases fates with
    | nil => cases h
    | cons fate fates =>
      have hrest := ih (.met unit fate :: history) (Nat.succ.inj h)
      simpa [meet, History.fates, Event.fate?] using hrest

theorem outputs_meet (history : History) {units : List NalUnit} {fates : List Fate}
    (h : fates.length = units.length) :
    (history.meet units fates).outputs = history.outputs ++ emittedUnits fates := by
  rw [outputs, fates_meet history h, emittedUnits, List.filterMap_append]
  rfl

end History

theorem Tally.afterFates_append (tally : Tally) (fates more : List Fate) :
    (tally.afterFates fates).afterFates more = tally.afterFates (fates ++ more) := by
  simp [Tally.afterFates, List.countP_append, Nat.add_assoc]

namespace FramerLog

/-- What a run meets are the units that its calls make it look at. -/
theorem units_afterAll (log : FramerLog) (calls : List FramerCall) :
    (log.afterAll calls).history.units =
      log.history.units ++ unitsLookedAt log.framer.limit calls := by
  induction calls generalizing log with
  | nil => simp [afterAll, unitsLookedAt]
  | cons call calls ih =>
    have hrest := ih (log.after call)
    cases call with
    | process frame =>
      have hlimit : (log.after (.process frame)).framer.limit = log.framer.limit :=
        Framer.acceptAll_limit _ _
      have hunits : (log.after (.process frame)).history.units =
          log.history.units ++ scan frame log.framer.limit :=
        History.units_meet _ (Framer.length_acceptAll _ _)
      rw [hlimit, hunits, scan_eq_take, List.append_assoc] at hrest
      exact hrest
    | reset =>
      have hunits : (log.after .reset).history.units = log.history.units := rfl
      rw [hunits] at hrest
      exact hrest
    | setLimit limit => exact hrest

/-- The counters of a run are those of the fates it led to. -/
theorem tally_afterAll {start : Tally} {log : FramerLog}
    (h : log.tally = start.afterFates log.history.fates) (calls : List FramerCall) :
    (log.afterAll calls).tally = start.afterFates (log.afterAll calls).history.fates := by
  induction calls generalizing log with
  | nil => exact h
  | cons call calls ih =>
    refine ih ?_
    cases call with
    | process frame =>
      have hfates : (log.after (.process frame)).history.fates =
          log.history.fates ++ (log.framer.process frame).1 :=
        History.fates_meet _ (Framer.length_acceptAll _ _)
      have htally : (log.after (.process frame)).tally =
          log.tally.afterFates (log.framer.process frame).1 := rfl
      rw [htally, hfates, h, Tally.afterFates_append]
    | reset => exact h
    | setLimit limit => exact h

/-! ## Runs with a store -/

section Stores

variable {σ : Type} (keeper? : Option (Keeper (StateM σ))) (log : FramerLog)
  (calls : List FramerCall) (world : σ)

theorem logged_callAll {seed : ParameterSets} (h : Logged seed log.history log.framer) :
    let last := ((log.callAll keeper? calls).run world).1
    Logged seed last.history last.framer := by
  intro last
  have hmatch : last.Matches (log.afterAll calls) :=
    callAll_matches keeper? (.refl log) calls world
  rw [hmatch.history, hmatch.framer]
  exact logged_afterAll h calls

theorem units_callAll :
    ((log.callAll keeper? calls).run world).1.history.units =
      log.history.units ++ unitsLookedAt log.framer.limit calls := by
  rw [(callAll_matches keeper? (.refl log) calls world).history]
  exact units_afterAll log calls

/-- The counters of units go up by the units withheld and refused, whatever a store answers. -/
theorem counts_callAll (h : log.history = []) :
    let last := ((log.callAll keeper? calls).run world).1
    last.tally.unitsBeforeKeyframe =
        log.tally.unitsBeforeKeyframe + last.history.fates.countP (·.isWithheld) ∧
      last.tally.malformedUnits =
        log.tally.malformedUnits + last.history.fates.countP (·.isRefused) := by
  intro last
  have hmatch : last.Matches (log.afterAll calls) :=
    callAll_matches keeper? (.refl log) calls world
  have hstart : log.tally = log.tally.afterFates log.history.fates := by
    rw [h]
    rfl
  have htally := tally_afterAll hstart calls
  rw [hmatch.withheld, hmatch.refused, hmatch.history, htally]
  exact ⟨rfl, rfl⟩

end Stores

end FramerLog

end CamStream
