import CamStream.Store.Framing

/-!
# Histories of a framer

What a framer does with a unit depends on what it met before. Here this is said without its flags:
a history lists what a framer met, the latest event first, and `History.opened`,
`History.setSinceKeyframe` and `History.latestSets` read off it what the flags and the cached pair
have to be.

* `Framer.accept_outcome`: all that can become of one unit, case by case.
* `Logged.tracks`: along every run the state of the framer is what the history says.
* `Logged.before`: every event of a run was met by the framer that the events before it left.
-/

namespace CamStream

/-! ## Events -/

/-- What a framer meets: a unit that some fate befalls, or the beginning of a new session. -/
inductive Event where
  | met (unit : NalUnit) (fate : Fate)
  | restarted
deriving DecidableEq, Repr

namespace Event

def unit? : Event → Option NalUnit
  | met unit _ => some unit
  | restarted => none

def fate? : Event → Option Fate
  | met _ fate => some fate
  | restarted => none

def isKeyframe : Event → Bool
  | met unit _ => unit.kind = .idrSlice
  | restarted => false

/-- The bytes of a parameter set of the given kind whose length can be accepted. -/
def set? (kind : NalKind) : Event → Option Bytes
  | met unit _ =>
    if unit.kind = kind ∧ ParameterSets.Admissible unit.bytes then some unit.bytes else none
  | restarted => none

/-- Whether a parameter set of either kind was met whose length can be accepted. -/
def isSet (event : Event) : Bool := (event.set? .sps).isSome || (event.set? .pps).isSome

/-- What was put in front of a unit that went out behind the cached pair. -/
def sentSets? : Event → Option Bytes
  | met unit (.emitted out) =>
    if out.carriesSets then some (out.bytes.take (out.bytes.length - unit.bytes.length)) else none
  | _ => none

end Event

/-- Events, the latest one first. -/
abbrev History := List Event

namespace History

/-- The history after units met their fates, in order. -/
def meet (history : History) (units : List NalUnit) (fates : List Fate) : History :=
  (List.zipWith .met units fates).reverse ++ history

def units (history : History) : List NalUnit := (history.filterMap (·.unit?)).reverse

def fates (history : History) : List Fate := (history.filterMap (·.fate?)).reverse

/-- The units that went out, in order. -/
def outputs (history : History) : List FramedUnit := emittedUnits history.fates

def session (history : History) : History := history.takeWhile (· ≠ .restarted)

/-- Whether an IDR slice was met in this session. -/
def opened (history : History) : Bool := history.session.any (·.isKeyframe)

/-- Whether a parameter set was accepted since the last IDR slice. -/
def setSinceKeyframe (history : History) : Bool :=
  (history.takeWhile (!·.isKeyframe)).any (·.isSet)

/-- The latest accepted parameter set of a kind, over all sessions. -/
def latest (kind : NalKind) (seed : Bytes) (history : History) : Bytes :=
  ((history.filterMap (·.set? kind)).head?).getD seed

/-- The latest accepted set of either kind. -/
def latestSets (seed : ParameterSets) (history : History) : ParameterSets where
  sps := history.latest .sps seed.sps
  pps := history.latest .pps seed.pps

/-- The pair that a consumer was last given in this session. -/
def lastSent (history : History) : Option Bytes :=
  (history.session.filterMap (·.sentSets?)).head?

variable {history : History} {unit : NalUnit} {fate : Fate}

theorem units_met : units (.met unit fate :: history) = history.units ++ [unit] := by
  simp [units, Event.unit?]

theorem fates_met : fates (.met unit fate :: history) = history.fates ++ [fate] := by
  simp [fates, Event.fate?]

theorem outputs_met :
    outputs (.met unit fate :: history) = history.outputs ++ fate.unit?.toList := by
  rw [outputs, fates_met, emittedUnits, List.filterMap_append]
  cases h : fate.unit? <;> simp [outputs, emittedUnits, h]

@[simp]
theorem opened_met :
    opened (.met unit fate :: history) = (decide (unit.kind = .idrSlice) || opened history) := by
  simp [opened, session, Event.isKeyframe]

@[simp]
theorem opened_restarted : opened (.restarted :: history) = false := by
  simp [opened, session]

theorem setSinceKeyframe_met :
    setSinceKeyframe (.met unit fate :: history) =
      (decide (unit.kind ≠ .idrSlice) &&
        ((Event.met unit fate).isSet || setSinceKeyframe history)) := by
  by_cases h : unit.kind = .idrSlice <;> simp [setSinceKeyframe, Event.isKeyframe, h]

theorem latest_met (kind : NalKind) (seed : Bytes) :
    latest kind seed (.met unit fate :: history) =
      ((Event.met unit fate).set? kind).getD (latest kind seed history) := by
  cases h : (Event.met unit fate).set? kind <;> simp [latest, h]

theorem mem_units_cons {event : Event} :
    unit ∈ units (event :: history) ↔ event.unit? = some unit ∨ unit ∈ units history := by
  cases h : event.unit? with
  | none => simp [units, h]
  | some met => simp [units, h, or_comm, eq_comm]

/-- What holds of every set that was accepted, and of the one at the start, holds of the latest. -/
theorem latest_of_met {p : NalKind → Bytes → Prop} {kind : NalKind} {first : Bytes}
    (hfirst : p kind first)
    (h : ∀ unit ∈ history.units, ParameterSets.Admissible unit.bytes → p unit.kind unit.bytes) :
    p kind (history.latest kind first) := by
  induction history with
  | nil => exact hfirst
  | cons event history ih =>
    have hrest := ih fun unit hunit => h unit (mem_units_cons.mpr (Or.inr hunit))
    cases event with
    | met unit fate =>
      rw [latest_met, Event.set?]
      split
      · rename_i hset
        have hunit := h unit (mem_units_cons.mpr (Or.inl rfl)) hset.2
        rw [hset.1] at hunit
        exact hunit
      · exact hrest
    | restarted => exact hrest

end History

/-! ## What becomes of one unit -/

/-- The pair with a unit in the place that its kind names. -/
def ParameterSets.learn (sets : ParameterSets) (unit : NalUnit) : ParameterSets :=
  match unit.kind with
  | .sps => { sets with sps := unit.bytes }
  | .pps => { sets with pps := unit.bytes }
  | _ => sets

/-- The ways a framer can go on with a unit. -/
inductive Outcome (framer : Framer) (unit : NalUnit) : Fate → Framer → Prop
  | cached (changed : Bool) (hset : unit.kind.isParameterSet = true)
      (h : ParameterSets.Admissible unit.bytes) :
      Outcome framer unit (.cached changed)
        { framer with sets := framer.sets.learn unit, pending := true }
  | refused (refusal : SetRefusal) (hset : unit.kind.isParameterSet = true)
      (h : ¬ ParameterSets.Admissible unit.bytes) :
      Outcome framer unit (.refused refusal) framer
  | keyframe (carries : Bool) (hidr : unit.kind = .idrSlice)
      (h : carries = (!framer.opened || framer.pending)) :
      Outcome framer unit
        (.emitted {
          kind := unit.kind
          bytes := (if carries then framer.sets.toBlob else []) ++ unit.bytes
          carriesSets := carries })
        { framer with opened := true, pending := false }
  | forwarded (hset : unit.kind.isParameterSet = false) (hidr : unit.kind ≠ .idrSlice)
      (h : framer.opened = true) :
      Outcome framer unit
        (.emitted { kind := unit.kind, bytes := unit.bytes, carriesSets := false }) framer
  | withheld (hset : unit.kind.isParameterSet = false) (hidr : unit.kind ≠ .idrSlice)
      (h : framer.opened = false) :
      Outcome framer unit .withheld framer

namespace Framer

theorem cache_outcome {framer : Framer} {unit : NalUnit} (hset : unit.kind.isParameterSet = true)
    {result : Except SetRefusal ParameterSets}
    (hok : ∀ sets, result = .ok sets ↔
      ParameterSets.Admissible unit.bytes ∧ sets = framer.sets.learn unit) :
    Outcome framer unit (framer.cache result).1 (framer.cache result).2 := by
  cases result with
  | ok sets =>
    obtain ⟨hadmissible, rfl⟩ := (hok sets).mp rfl
    exact .cached _ hset hadmissible
  | error refusal =>
    refine .refused refusal hset fun hadmissible => ?_
    cases (hok _).mpr ⟨hadmissible, rfl⟩

theorem emitPlain_outcome {framer : Framer} {unit : NalUnit}
    (hset : unit.kind.isParameterSet = false) (hidr : unit.kind ≠ .idrSlice) :
    Outcome framer unit (framer.emitPlain unit).1 (framer.emitPlain unit).2 := by
  unfold emitPlain
  split
  · rename_i hopened
    exact .forwarded hset hidr hopened
  · rename_i hopened
    exact .withheld hset hidr (Bool.eq_false_iff.mpr hopened)

theorem emitKeyframe_outcome {framer : Framer} {unit : NalUnit} (hidr : unit.kind = .idrSlice) :
    Outcome framer unit (framer.emitKeyframe unit).1 (framer.emitKeyframe unit).2 := by
  have h : Outcome framer unit _ _ := .keyframe _ hidr rfl
  cases hcarries : (!framer.opened || framer.pending) <;>
    simpa [emitKeyframe, hcarries] using h

theorem accept_outcome (framer : Framer) (unit : NalUnit) :
    Outcome framer unit (framer.accept unit).1 (framer.accept unit).2 := by
  unfold accept
  cases hkind : unit.kind with
  | sps =>
    refine cache_outcome (by rw [hkind]; rfl) fun sets => ?_
    rw [ParameterSets.setSps_eq_ok_iff, ParameterSets.learn, hkind]
  | pps =>
    refine cache_outcome (by rw [hkind]; rfl) fun sets => ?_
    rw [ParameterSets.setPps_eq_ok_iff, ParameterSets.learn, hkind]
  | idrSlice => exact emitKeyframe_outcome hkind
  | slice => exact emitPlain_outcome (by rw [hkind]; rfl) (by simp [hkind])
  | other number => exact emitPlain_outcome (by rw [hkind]; rfl) (by simp [hkind])

end Framer

namespace Outcome

variable {framer next : Framer} {unit : NalUnit} {fate : Fate}

theorem kind_ne_idrSlice_of_set (hset : unit.kind.isParameterSet = true) :
    unit.kind ≠ .idrSlice := by
  intro hidr
  rw [hidr] at hset
  cases hset

theorem not_set_of_idrSlice (hidr : unit.kind = .idrSlice) : unit.kind.isParameterSet = false := by
  rw [hidr]
  rfl

theorem cached_iff (h : Outcome framer unit fate next) :
    (∃ changed, fate = .cached changed) ↔
      unit.kind.isParameterSet = true ∧ ParameterSets.Admissible unit.bytes := by
  cases h with
  | cached changed hset hadmissible => simp [hset, hadmissible]
  | refused refusal hset hadmissible => simp [hadmissible]
  | keyframe carries hidr hcarries => simp [not_set_of_idrSlice hidr]
  | forwarded hset hidr hopened => simp [hset]
  | withheld hset hidr hclosed => simp [hset]

theorem refused_iff (h : Outcome framer unit fate next) :
    (∃ refusal, fate = .refused refusal) ↔
      unit.kind.isParameterSet = true ∧ ¬ ParameterSets.Admissible unit.bytes := by
  cases h with
  | cached changed hset hadmissible => simp [hadmissible]
  | refused refusal hset hadmissible => simp [hset, hadmissible]
  | keyframe carries hidr hcarries => simp [not_set_of_idrSlice hidr]
  | forwarded hset hidr hopened => simp [hset]
  | withheld hset hidr hclosed => simp [hset]

theorem emitted_iff (h : Outcome framer unit fate next) :
    (∃ out, fate = .emitted out) ↔ unit.kind.isParameterSet = false ∧
      (unit.kind = .idrSlice ∨ framer.opened = true) := by
  cases h with
  | cached changed hset hadmissible => simp [hset]
  | refused refusal hset hadmissible => simp [hset]
  | keyframe carries hidr hcarries => simp [hidr, NalKind.isParameterSet]
  | forwarded hset hidr hopened => simp [hset, hopened]
  | withheld hset hidr hclosed => simp [hidr, hclosed]

theorem withheld_iff (h : Outcome framer unit fate next) :
    fate = .withheld ↔ unit.kind.isParameterSet = false ∧ unit.kind ≠ .idrSlice ∧
      framer.opened = false := by
  cases h with
  | cached changed hset hadmissible => simp [hset]
  | refused refusal hset hadmissible => simp [hset]
  | keyframe carries hidr hcarries => simp [hidr]
  | forwarded hset hidr hopened => simp [hopened]
  | withheld hset hidr hclosed => simp [hset, hidr, hclosed]

/-- What goes out is the unit as it was, behind the cached pair if it carries one, and only an IDR
slice carries one. -/
theorem bytes_of_emitted {out : FramedUnit} (h : Outcome framer unit (.emitted out) next) :
    out.kind = unit.kind ∧
      out.bytes = (if out.carriesSets then framer.sets.toBlob else []) ++ unit.bytes ∧
      out.carriesSets =
        (decide (unit.kind = .idrSlice) && (!framer.opened || framer.pending)) := by
  cases h with
  | keyframe carries hidr hcarries => exact ⟨rfl, rfl, by simp [hidr, hcarries]⟩
  | forwarded hset hidr hopened => exact ⟨rfl, rfl, by simp [hidr]⟩

end Outcome

/-! ## Runs, unit by unit -/

/-- The histories that a framer with the given pair can have, with its state after them. -/
inductive Logged (seed : ParameterSets) : History → Framer → Prop
  | start (limit : Nat) : Logged seed [] { sets := seed, limit }
  | met {history : History} {framer next : Framer} {unit : NalUnit} {fate : Fate}
      (before : Logged seed history framer) (step : Outcome framer unit fate next) :
      Logged seed (.met unit fate :: history) next
  | restarted {history : History} {framer : Framer} (before : Logged seed history framer) :
      Logged seed (.restarted :: history) framer.reset
  | limited {history : History} {framer : Framer} (limit : Nat)
      (before : Logged seed history framer) : Logged seed history (framer.setLimit limit)

/-- The state of a framer is what its history says. The second flag matters only in a session that
has opened: before that the pair goes out anyway. -/
structure Tracks (seed : ParameterSets) (history : History) (framer : Framer) : Prop where
  sets : framer.sets = history.latestSets seed
  opened : framer.opened = history.opened
  pending : framer.opened = true → framer.pending = history.setSinceKeyframe

namespace History

variable {history : History} {unit : NalUnit} {fate : Fate}

theorem isSet_met :
    (Event.met unit fate).isSet =
      (unit.kind.isParameterSet && decide (ParameterSets.Admissible unit.bytes)) := by
  by_cases h : ParameterSets.Admissible unit.bytes <;>
    cases hkind : unit.kind <;> simp [Event.isSet, Event.set?, NalKind.isParameterSet, h, hkind]

/-- An accepted parameter set becomes the latest one of its kind. -/
theorem latestSets_learn (seed : ParameterSets) (h : ParameterSets.Admissible unit.bytes) :
    latestSets seed (.met unit fate :: history) = (latestSets seed history).learn unit := by
  cases hkind : unit.kind <;>
    simp [latestSets, latest_met, Event.set?, ParameterSets.learn, hkind, h]

/-- All other units leave the latest pair as it is. -/
theorem latestSets_skip (seed : ParameterSets)
    (h : unit.kind.isParameterSet = true → ¬ ParameterSets.Admissible unit.bytes) :
    latestSets seed (.met unit fate :: history) = latestSets seed history := by
  cases hkind : unit.kind <;> rw [hkind] at h <;>
    simp_all [latestSets, latest_met, Event.set?, NalKind.isParameterSet]

end History

theorem Tracks.step {seed : ParameterSets} {history : History} {framer next : Framer}
    {unit : NalUnit} {fate : Fate} (h : Tracks seed history framer)
    (step : Outcome framer unit fate next) : Tracks seed (.met unit fate :: history) next := by
  cases step with
  | cached changed hset hadmissible =>
    have hidr := Outcome.kind_ne_idrSlice_of_set hset
    refine ⟨?_, ?_, fun _ => ?_⟩
    · rw [History.latestSets_learn seed hadmissible, ← h.sets]
    · simpa [hidr] using h.opened
    · simp [History.setSinceKeyframe_met, History.isSet_met, hidr, hset, hadmissible]
  | refused refusal hset hadmissible =>
    have hidr := Outcome.kind_ne_idrSlice_of_set hset
    refine ⟨?_, ?_, fun hopened => ?_⟩
    · rw [History.latestSets_skip seed fun _ => hadmissible, ← h.sets]
    · simpa [hidr] using h.opened
    · simpa [History.setSinceKeyframe_met, History.isSet_met, hidr, hadmissible] using
        h.pending hopened
  | keyframe carries hidr hcarries =>
    -- Here the second flag comes to mean something, whatever it was before.
    have hset := Outcome.not_set_of_idrSlice hidr
    refine ⟨?_, ?_, fun _ => ?_⟩
    · rw [History.latestSets_skip seed (by simp [hset]), ← h.sets]
    · simp [hidr]
    · simp [History.setSinceKeyframe_met, hidr]
  | forwarded hset hidr hopened | withheld hset hidr hopened =>
    refine ⟨?_, ?_, fun hopened => ?_⟩
    · rw [History.latestSets_skip seed (by simp [hset]), ← h.sets]
    · simpa [hidr] using h.opened
    · simpa [History.setSinceKeyframe_met, History.isSet_met, hidr, hset] using h.pending hopened

/-- Along every run the state of the framer is what the history says. -/
theorem Logged.tracks {seed : ParameterSets} {history : History} {framer : Framer}
    (h : Logged seed history framer) : Tracks seed history framer := by
  induction h with
  | start limit => exact ⟨rfl, rfl, by simp⟩
  | met _ step ih => exact ih.step step
  | restarted _ ih => exact ⟨ih.sets, by simp [Framer.reset], by simp [Framer.reset]⟩
  | limited limit _ ih => exact ⟨ih.sets, ih.opened, ih.pending⟩

/-- Every event of a run was met by the framer that the events before it left. -/
theorem Logged.before {seed : ParameterSets} {history before : History} {framer : Framer}
    {unit : NalUnit} {fate : Fate} (h : Logged seed history framer)
    (hmem : .met unit fate :: before <:+ history) :
    ∃ earlier later, Logged seed before earlier ∧ Outcome earlier unit fate later := by
  induction h with
  | start limit => simp at hmem
  | met logged step ih =>
    rcases List.suffix_cons_iff.mp hmem with heq | hmem
    · cases heq
      exact ⟨_, _, logged, step⟩
    · exact ih hmem
  | restarted _ ih =>
    rcases List.suffix_cons_iff.mp hmem with heq | hmem
    · cases heq
    · exact ih hmem
  | limited limit _ ih => exact ih hmem

theorem Logged.acceptAll {seed : ParameterSets} {history : History} {framer : Framer}
    (h : Logged seed history framer) (units : List NalUnit) :
    Logged seed (history.meet units (framer.acceptAll units).1) (framer.acceptAll units).2 := by
  induction units generalizing history framer with
  | nil => exact h
  | cons unit units ih =>
    have hnext := ih (h.met (framer.accept_outcome unit))
    simpa [History.meet, Framer.acceptAll] using hnext

end CamStream
