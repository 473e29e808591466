import CamStream.Proofs.Framing.OutputStream
import CamStream.Proofs.Recording.Frames

/-!
# Cleaning a recording

A recording is cleaned by a new framer: what goes out is kept, and everything else is left out. The
result is a recording again, and cleaning it leaves it as it is, although the second framer finds the
pairs in the stream that the first one put there, and cuts the stream into other frames.

* `History.delimited_sent`: what a framer sends can be scanned back, whatever the last unit of the
  recording ends in.
* `Resends`: the second framer knows all that a consumer of the first one has been told. It falls
  behind only while the first one has a set pending, and then the pair comes with the next keyframe.
* `cleaned_cleaned`: cleaning twice gives what cleaning once gives.
-/

namespace CamStream

/-- The units that a new framer makes of a recording, one behind the other; it looks at no more than
`limit` units of a frame. -/
def cleaned (limit : Nat) (recording : Bytes) : Bytes :=
  let framer := ({} : Framer).setLimit limit
  (emittedUnits (framer.processAll (framesOf recording)).1).flatMap (·.bytes)

/-! ## What was sent, as units -/

/-- Sent units as a scan would find them; their offsets do not matter here. -/
def asScanned (sent : List (NalKind × Bytes)) : List NalUnit :=
  sent.map fun (kind, bytes) => { offset := 0, bytes, kind }

theorem asScanned_append (sent more : List (NalKind × Bytes)) :
    asScanned (sent ++ more) = asScanned sent ++ asScanned more := List.map_append

theorem map_asScanned (sent : List (NalKind × Bytes)) :
    (asScanned sent).map (fun unit => (unit.kind, unit.bytes)) = sent := by
  rw [asScanned, List.map_map]
  exact List.map_id _

/-- An event sends whole units, except that the unit that was met need not be one. -/
theorem Event.delimited_sent {sets : ParameterSets} (hsets : sets.Whole) {unit : NalUnit}
    (hunit : LoneUnit unit.bytes) (hkind : unit.kind = kindOfUnit unit.bytes) (fate : Fate) :
    Delimited (((Event.met unit fate).sent sets).map (·.2)) ∧
      ∀ sent ∈ (Event.met unit fate).sent sets, sent.1 = kindOfUnit sent.2 := by
  cases fate with
  | emitted out =>
    cases hcarries : out.carriesSets with
    | false =>
      simp only [Event.sent, hcarries]
      exact ⟨.last hunit, by simp [hkind]⟩
    | true =>
      simp only [Event.sent, hcarries]
      refine ⟨.cons hsets.sps.1 (.cons hsets.pps.1 (.last hunit)), ?_⟩
      intro sent hsent
      simp only [if_true, List.cons_append, List.nil_append, List.mem_cons, List.not_mem_nil,
        or_false] at hsent
      rcases hsent with rfl | rfl | rfl
      · exact hsets.sps.2
      · exact hsets.pps.2
      · exact hkind
  | withheld | cached _ | refused _ => exact ⟨.none, by simp [Event.sent]⟩

namespace History

variable {seed : ParameterSets}

/-- Only the last unit that was met may not be whole, and it can only be the last one sent. -/
theorem delimited_sent (hseed : seed.Whole) {history : History}
    (hkinds : ∀ unit ∈ history.units, unit.kind = kindOfUnit unit.bytes)
    (hunits : Delimited (history.units.map (·.bytes))) :
    Delimited ((history.sent seed).map (·.2)) ∧
      ∀ sent ∈ history.sent seed, sent.1 = kindOfUnit sent.2 := by
  induction history with
  | nil => exact ⟨.none, by simp [History.sent]⟩
  | cons event before ih =>
    cases event with
    | restarted =>
      have hsent : History.sent seed (.restarted :: before) = History.sent seed before :=
        List.append_nil _
      rw [hsent]
      exact ih hkinds hunits
    | met unit fate =>
      rw [units_met] at hkinds hunits
      rw [List.map_append] at hunits
      have hwhole := hunits.whole_of_append (List.cons_ne_nil _ _)
      have hbefore : History.Whole before := by
        intro other hother
        exact ⟨hwhole _ (List.mem_map_of_mem hother), hkinds other (List.mem_append_left _ hother)⟩
      have hsent := hbefore.genuine_of_mem_sent hseed
      have hlone := hunits.of_append_right.lone unit.bytes (List.mem_singleton_self _)
      have hkind := hkinds unit (List.mem_append_right _ (List.mem_singleton_self unit))
      obtain ⟨hnow, hnowKinds⟩ :=
        Event.delimited_sent (hbefore.latestSets hseed) hlone hkind fate
      rw [History.sent, List.map_append]
      constructor
      · apply Delimited.append ?_ hnow
        intro bytes hbytes
        obtain ⟨unit, hunit, rfl⟩ := List.mem_map.mp hbytes
        exact (hsent unit hunit).1
      · intro sent hmem
        rcases List.mem_append.mp hmem with hmem | hmem
        · exact (hsent sent hmem).2
        · exact hnowKinds sent hmem

end History

/-! ## The second framer -/

/-- Where the second framer stands when the first one has come so far. While the session has not
opened or a set is pending, the second one may hold another pair: the next keyframe brings it. -/
structure Resends (first second : Framer) : Prop where
  opened : second.opened = first.opened
  pending : second.pending = false
  sets : first.opened = true → first.pending = false → second.sets = first.sets

/-- A pair that a framer meets becomes its own, and goes out with the next keyframe. -/
theorem Framer.acceptAll_pair (framer : Framer) {sets : ParameterSets}
    (hsps : ParameterSets.Admissible sets.sps) (hpps : ParameterSets.Admissible sets.pps) :
    (framer.acceptAll (asScanned [(.sps, sets.sps), (.pps, sets.pps)])).2 =
        { framer with sets, pending := true } ∧
      emittedUnits (framer.acceptAll (asScanned [(.sps, sets.sps), (.pps, sets.pps)])).1 = [] := by
  have hfirst := ParameterSets.refusal?_eq_none_iff.mpr hsps
  have hsecond := ParameterSets.refusal?_eq_none_iff.mpr hpps
  simp [asScanned, acceptAll, accept, cache, ParameterSets.setSps, ParameterSets.setPps, hfirst,
    hsecond, emittedUnits, Fate.unit?]

theorem Framer.acceptAll_unit (framer : Framer) (unit : NalUnit) :
    framer.acceptAll (asScanned [(unit.kind, unit.bytes)]) =
      ([(framer.accept unit).1], (framer.accept unit).2) := by
  have hunit : framer.acceptAll (asScanned [(unit.kind, unit.bytes)]) = framer.acceptAll [unit] :=
    framer.acceptAll_congr rfl
  rw [hunit]
  rfl

theorem Framer.accept_plain (framer : Framer) {unit : NalUnit}
    (hset : unit.kind.isParameterSet = false) (hidr : unit.kind ≠ .idrSlice) :
    framer.accept unit = framer.emitPlain unit := by
  unfold accept
  cases hkind : unit.kind with
  | sps | pps =>
    rw [hkind] at hset
    cases hset
  | idrSlice => exact absurd hkind hidr
  | slice | other _ => rfl

theorem Framer.accept_keyframe (framer : Framer) {unit : NalUnit} (hidr : unit.kind = .idrSlice) :
    framer.accept unit = framer.emitKeyframe unit := by
  rw [accept, hidr]

namespace Resends

variable {first second next : Framer} {unit : NalUnit} {fate : Fate}

/-- The second framer emits for what was sent what the first one emitted for what it met. -/
theorem step (h : Resends first second) (hsps : ParameterSets.Admissible first.sets.sps)
    (hpps : ParameterSets.Admissible first.sets.pps) (outcome : Outcome first unit fate next) :
    let result := second.acceptAll (asScanned ((Event.met unit fate).sent first.sets))
    emittedUnits result.1 = fate.unit?.toList ∧ Resends next result.2 := by
  intro result
  cases outcome with
  | cached changed hset hadmissible => exact ⟨rfl, h.opened, h.pending, fun _ hno => by cases hno⟩
  | refused refusal hset hadmissible => exact ⟨rfl, h⟩
  | withheld hset hidr hclosed => exact ⟨rfl, h⟩
  | forwarded hset hidr hopened =>
    have hresult : result = ([.emitted ⟨unit.kind, unit.bytes, false⟩], second) := by
      have hunit := second.acceptAll_unit unit
      rw [second.accept_plain hset hidr, Framer.emitPlain, if_pos (h.opened.trans hopened)] at hunit
      exact hunit
    rw [hresult]
    exact ⟨rfl, h⟩
  | keyframe carries hidr hcarries =>
    cases carries with
    | true =>
      -- The pair comes first, so that the second framer has a set pending as well.
      obtain ⟨hpair, hnone⟩ := second.acceptAll_pair hsps hpps
      have hresult : result = second.acceptAll (asScanned
          ([(.sps, first.sets.sps), (.pps, first.sets.pps)] ++ [(unit.kind, unit.bytes)])) := rfl
      rw [hresult, asScanned_append, Framer.acceptAll_append, hpair, Framer.acceptAll_unit,
        Framer.accept_keyframe _ hidr, emittedUnits, List.filterMap_append, ← emittedUnits, hnone]
      simp only [Framer.emitKeyframe, Bool.or_true, if_true]
      exact ⟨rfl, rfl, rfl, fun _ _ => rfl⟩
    | false =>
      have hopened : first.opened = true := by
        cases hopened : first.opened
        · rw [hopened] at hcarries
          cases hcarries
        · rfl
      have hpending : first.pending = false := by
        rw [hopened] at hcarries
        exact hcarries.symm
      have hresult : result = ([(second.accept unit).1], (second.accept unit).2) :=
        second.acceptAll_unit unit
      rw [hresult, Framer.accept_keyframe _ hidr, Framer.emitKeyframe, h.opened, hopened, h.pending]
      exact ⟨rfl, rfl, rfl, fun _ _ => h.sets hopened hpending⟩

end Resends

/-- Fed with what a framer has sent in its first session, a second framer that has not sent
anything yet emits the same units. -/
theorem Logged.resends {seed : ParameterSets} (hsps : ParameterSets.Admissible seed.sps)
    (hpps : ParameterSets.Admissible seed.pps) {history : History} {framer : Framer}
    (h : Logged seed history framer) (hone : .restarted ∉ history) (second : Framer)
    (hopened : second.opened = false) (hpending : second.pending = false) :
    let result := second.acceptAll (asScanned (history.sent seed))
    emittedUnits result.1 = history.outputs ∧ Resends framer result.2 := by
  induction h with
  | start limit => exact ⟨rfl, hopened, hpending, fun hno => by cases hno⟩
  | @met history framer next unit fate before outcome ih =>
    obtain ⟨hsame, hresends⟩ := ih fun hmem => hone (List.mem_cons_of_mem _ hmem)
    have hsets := before.tracks.sets
    have hlatest : ParameterSets.Admissible framer.sets.sps ∧
        ParameterSets.Admissible framer.sets.pps := by
      rw [hsets]
      constructor
      · apply History.latest_of_met (p := fun _ => ParameterSets.Admissible) hsps
        intro other _ hadmissible
        exact hadmissible
      · apply History.latest_of_met (p := fun _ => ParameterSets.Admissible) hpps
        intro other _ hadmissible
        exact hadmissible
    obtain ⟨hnow, hnext⟩ := hresends.step hlatest.1 hlatest.2 outcome
    rw [hsets] at hnow hnext
    rw [History.sent, asScanned_append, Framer.acceptAll_append, History.outputs_met, ← hsame,
      ← hnow]
    exact ⟨List.filterMap_append, hnext⟩
  | restarted before ih => exact absurd List.mem_cons_self hone
  | limited limit before ih =>
    obtain ⟨hsame, hresends⟩ := ih hone
    exact ⟨hsame, hresends.opened, hresends.pending, hresends.sets⟩

/-! ## Cleaning twice -/

/-- What a new framer meets in a recording, and what becomes of it. -/
def cleaning (limit : Nat) (recording : Bytes) : History :=
  History.meet [] (scanAll recording)
    ((({} : Framer).setLimit limit).acceptAll (scanAll recording)).1

section Cleaning

variable (limit : Nat) (recording : Bytes)

theorem logged_cleaning :
    Logged .builtIn (cleaning limit recording)
      ((({} : Framer).setLimit limit).acceptAll (scanAll recording)).2 :=
  ((Logged.start defaultUnitLimit).limited limit).acceptAll (scanAll recording)

theorem units_cleaning : (cleaning limit recording).units = scanAll recording :=
  History.units_meet [] (Framer.length_acceptAll _ _)

theorem outputs_cleaning :
    (cleaning limit recording).outputs =
      emittedUnits ((({} : Framer).setLimit limit).acceptAll (scanAll recording)).1 :=
  History.outputs_meet [] (Framer.length_acceptAll _ _)

/-- A clean recording is what a new framer has sent, as long as it looks at all units. -/
theorem cleaned_eq_outputs (hlimit : (scanAll recording).length ≤ limit) :
    cleaned limit recording = (cleaning limit recording).outputs.flatMap (·.bytes) := by
  have hall : (scanAll recording).length ≤ (({} : Framer).setLimit limit).limit :=
    Nat.le_trans hlimit (Nat.le_max_left limit 1)
  rw [outputs_cleaning, cleaned]
  rw [Framer.processAll_frames hall]

/-- A clean recording holds the units that were sent. -/
theorem scanAll_cleaned (hlimit : (scanAll recording).length ≤ limit) :
    (scanAll (cleaned limit recording)).map (fun unit => (unit.kind, unit.bytes)) =
      (cleaning limit recording).sent .builtIn := by
  have hunits := units_cleaning limit recording
  have hsent := (cleaning limit recording).delimited_sent ParameterSets.whole_builtIn
    (by rw [hunits]; exact fun unit hunit => kind_of_mem_scan hunit)
    (by rw [hunits]; exact delimited_scanAll recording)
  rw [cleaned_eq_outputs limit recording hlimit, (logged_cleaning limit recording).stream_eq,
    hsent.1.scanAll_flatten, layOut_map, List.map_map]
  refine (List.map_congr_left fun unit hunit => ?_).trans (List.map_id _)
  exact Prod.ext (hsent.2 unit hunit).symm rfl

end Cleaning

/-- **Cleaning is idempotent.** For every recording, whatever it holds: a new framer that looks at
all units of a frame, put to work on what another one has made of the recording, leaves all of it
as it is. -/
theorem cleaned_cleaned (limit : Nat) (recording : Bytes)
    (hlimit : (scanAll recording).length ≤ limit)
    (hclean : (scanAll (cleaned limit recording)).length ≤ limit) :
    cleaned limit (cleaned limit recording) = cleaned limit recording := by
  have hscan : (({} : Framer).setLimit limit).acceptAll (scanAll (cleaned limit recording)) =
      (({} : Framer).setLimit limit).acceptAll
        (asScanned ((cleaning limit recording).sent .builtIn)) := by
    apply Framer.acceptAll_congr
    rw [scanAll_cleaned limit recording hlimit, map_asScanned]
  have hone : .restarted ∉ cleaning limit recording := by
    intro hmem
    cases History.restarted_mem_meet.mp hmem
  obtain ⟨hsame, -⟩ := (logged_cleaning limit recording).resends (by decide) (by decide) hone
    (({} : Framer).setLimit limit) rfl rfl
  calc cleaned limit (cleaned limit recording)
      = (cleaning limit (cleaned limit recording)).outputs.flatMap (·.bytes) :=
        cleaned_eq_outputs limit _ hclean
    _ = (cleaning limit recording).outputs.flatMap (·.bytes) := by
        rw [outputs_cleaning, hscan, hsame]
    _ = cleaned limit recording := (cleaned_eq_outputs limit recording hlimit).symm

/-- Garbage in front, a picture parameter set on its own, the same one once more, a set that is too
long, and a bare start code behind the last unit. -/
theorem cleaned_cleaned_repeated_sets :
    let tooLong : Bytes := [0, 0, 0, 1, 0x67] ++ List.replicate 1024 0xAA
    let recording : Bytes :=
      [0xFF, 0, 0] ++ [0, 0, 0, 1, 0x41, 1] ++ [0, 0, 0, 1, 0x68, 2] ++ [0, 0, 0, 1, 0x65, 3] ++
        [0, 0, 0, 1, 0x68, 2] ++ tooLong ++ [0, 0, 0, 1, 0x65, 4] ++ [0, 0, 0, 1, 0x65, 5] ++
        [0, 0, 0, 1]
    let clean : Bytes :=
      ParameterSets.builtIn.sps ++ [0, 0, 0, 1, 0x68, 2] ++ [0, 0, 0, 1, 0x65, 3] ++
        ParameterSets.builtIn.sps ++ [0, 0, 0, 1, 0x68, 2] ++ [0, 0, 0, 1, 0x65, 4] ++
        [0, 0, 0, 1, 0x65, 5] ++ [0, 0, 0, 1]
    (scanAll recording).length ≤ 10 ∧ (scanAll clean).length ≤ 10 ∧
      cleaned 10 recording = clean ∧ cleaned 10 clean = clean := by
  intro tooLong recording clean
  have hlimit : (scanAll recording).length ≤ 10 := by decide +kernel
  have hclean : (scanAll clean).length ≤ 10 := by decide +kernel
  have hcleaned : cleaned 10 recording = clean := by decide +kernel
  have hagain := cleaned_cleaned 10 recording hlimit (by rw [hcleaned]; exact hclean)
  rw [hcleaned] at hagain
  exact ⟨hlimit, hclean, hcleaned, hagain⟩

end CamStream
