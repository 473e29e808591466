import CamStream.Proofs.Framing.Runs
import CamStream.Store.Memory
import Mathlib.Data.List.Infix

/-!
# The output as one stream

A consumer of the raw stream sees the units that went out one behind the other and has to find
them again by their start codes. `History.sent` lists what it should find: the two sets and the
slice for an IDR slice that carries the pair, and the unit itself for every other one.

* `History.Whole.genuine_of_mem_sent`: everything on the stream is a whole unit of the kind that its
  header announces, as soon as this holds of what the framer met and of the pair it started with.
* `Logged.stream_eq`: the stream is what `History.sent` lists, without anything in between.
* `output_scans_back`: a scan of the stream finds these units, and no start code arises between
  them.
-/

namespace CamStream

/-! ## What is on the stream -/

/-- The units that an event puts on the stream. -/
def Event.sent (sets : ParameterSets) : Event → List (NalKind × Bytes)
  | met unit (.emitted out) =>
    (if out.carriesSets then [(.sps, sets.sps), (.pps, sets.pps)] else []) ++
      [(unit.kind, unit.bytes)]
  | _ => []

/-- The units on the stream, in order; the pair is the one cached at the time. -/
def History.sent (seed : ParameterSets) : History → List (NalKind × Bytes)
  | [] => []
  | event :: before => History.sent seed before ++ event.sent (History.latestSets seed before)

/-- A whole unit with the kind that its header announces. -/
def Genuine (kind : NalKind) (bytes : Bytes) : Prop :=
  WholeUnit bytes ∧ kind = kindOfUnit bytes

/-- Both sets are whole units of their kind. -/
structure ParameterSets.Whole (sets : ParameterSets) : Prop where
  sps : Genuine .sps sets.sps
  pps : Genuine .pps sets.pps

theorem ParameterSets.whole_builtIn : ParameterSets.builtIn.Whole where
  sps := ⟨⟨0x67, ParameterSets.builtIn.sps.drop 5, rfl, by unfold CodeFree; decide⟩, by decide⟩
  pps := ⟨⟨0x68, ParameterSets.builtIn.pps.drop 5, rfl, by unfold CodeFree; decide⟩, by decide⟩

/-- Every unit that was met is a whole unit of its kind. -/
def History.Whole (history : History) : Prop :=
  ∀ unit ∈ history.units, Genuine unit.kind unit.bytes

theorem Event.genuine_of_mem_sent {sets : ParameterSets} (hsets : sets.Whole) {event : Event}
    (h : ∀ unit, event.unit? = some unit → Genuine unit.kind unit.bytes) :
    ∀ sent ∈ event.sent sets, Genuine sent.1 sent.2 := by
  intro sent hsent
  match event with
  | .met unit (.emitted out) =>
    rcases List.mem_append.mp hsent with hpair | hunit
    · split at hpair
      · rcases List.mem_pair.mp hpair with rfl | rfl
        · exact hsets.sps
        · exact hsets.pps
      · cases hpair
    · obtain rfl := List.mem_singleton.mp hunit
      exact h unit rfl
  | .met _ .withheld | .met _ (.cached _) | .met _ (.refused _) | .restarted => cases hsent

namespace History

variable {seed : ParameterSets} {event : Event} {history : History}

theorem Whole.of_cons (h : History.Whole (event :: history)) :
    (∀ unit, event.unit? = some unit → Genuine unit.kind unit.bytes) ∧ History.Whole history :=
  ⟨fun unit hunit => h unit (mem_units_cons.mpr (Or.inl hunit)),
    fun unit hunit => h unit (mem_units_cons.mpr (Or.inr hunit))⟩

/-- The latest set of a kind was met, unless it is the one at the start. -/
theorem Whole.latest (h : history.Whole) {kind : NalKind} {first : Bytes}
    (hfirst : Genuine kind first) : Genuine kind (history.latest kind first) :=
  latest_of_met hfirst fun unit hunit _ => h unit hunit

theorem Whole.latestSets (h : history.Whole) (hseed : seed.Whole) :
    (latestSets seed history).Whole := ⟨h.latest hseed.sps, h.latest hseed.pps⟩

theorem Whole.genuine_of_mem_sent (h : history.Whole) (hseed : seed.Whole) :
    ∀ sent ∈ history.sent seed, Genuine sent.1 sent.2 := by
  induction history with
  | nil => simp [History.sent]
  | cons event history ih =>
    obtain ⟨hevent, hrest⟩ := h.of_cons
    have hsets : (History.latestSets seed history).Whole := hrest.latestSets hseed
    intro sent hsent
    rcases List.mem_append.mp hsent with hbefore | hnow
    · exact ih hrest sent hbefore
    · exact Event.genuine_of_mem_sent hsets hevent sent hnow

end History

/-- The outputs of a run, one behind the other, are the units it sent, one behind the other. -/
theorem Logged.stream_eq {seed : ParameterSets} {history : History} {framer : Framer}
    (h : Logged seed history framer) :
    history.outputs.flatMap (·.bytes) = ((history.sent seed).map (·.2)).flatten := by
  induction h with
  | start limit => rfl
  | @met history framer next unit fate before step ih =>
    rw [History.outputs_met, List.flatMap_append, ih, History.sent, List.map_append,
      List.flatten_append, List.append_cancel_left_eq]
    cases fate with
    | emitted out =>
      obtain ⟨-, hbytes, -⟩ := step.bytes_of_emitted
      rw [before.tracks.sets] at hbytes
      cases hcarries : out.carriesSets <;>
        simp [Fate.unit?, Event.sent, ParameterSets.toBlob, hbytes, hcarries]
    | withheld | cached _ | refused _ => rfl
  | @restarted history _ _ ih =>
    have hsent : History.sent seed (.restarted :: history) = history.sent seed :=
      List.append_nil _
    rw [hsent]
    exact ih
  | limited limit _ ih => exact ih

/-- Frames that do not end in a bare start code hold whole units only. -/
theorem genuine_of_mem_unitsLookedAt {limit : Nat} {calls : List FramerCall}
    (hcalls : ∀ frame, .process frame ∈ calls → ¬ startCode <:+ frame) :
    ∀ unit ∈ unitsLookedAt limit calls, Genuine unit.kind unit.bytes := by
  intro unit hunit
  obtain ⟨frame, hframe, hscanned⟩ := mem_unitsLookedAt hunit
  exact whole_of_mem_scan (hcalls frame hframe) hscanned

/-! ## The stream of a run -/

/-- **The output can be scanned back.** In every run of a framer that starts with the built-in
pair, over frames none of which ends in a bare start code, with any store or none and any limits:
a scan of the outputs, one behind the other, finds exactly the units that were sent, in order,
each with its kind and its bytes. Every start code of the stream lies inside one of these units.
There it is the unit's own, or it begins with a header byte of zero, so none arises at a seam or
within a pair. -/
theorem output_scans_back {σ : Type} (keeper? : Option (Keeper (StateM σ))) (limit : Nat)
    (tally : Tally) (calls : List FramerCall)
    (hcalls : ∀ frame, .process frame ∈ calls → ¬ startCode <:+ frame) (world : σ) :
    let log := ((({ framer := { limit }, tally } : FramerLog).callAll keeper? calls).run world).1
    let stream := log.history.outputs.flatMap (·.bytes)
    let sent := log.history.sent .builtIn
    (scanAll stream).map (fun unit => (unit.kind, unit.bytes)) = sent ∧
    ∀ ahead behind, stream = ahead ++ startCode ++ behind →
      ∃ earlier kind inside rest later,
        sent = earlier ++ (kind, inside ++ startCode ++ rest) :: later ∧
        ahead = (earlier.map (·.2)).flatten ++ inside ∧
        (inside = [] ∨ inside = startCode ∧ kind = .other 0) := by
  intro log stream sent
  have hlogged : Logged .builtIn log.history log.framer :=
    FramerLog.logged_callAll keeper? _ calls world (.start limit)
  have hunits : log.history.units = unitsLookedAt limit calls :=
    FramerLog.units_callAll keeper? _ calls world
  have hmet : log.history.Whole := by
    unfold History.Whole
    rw [hunits]
    exact genuine_of_mem_unitsLookedAt hcalls
  have hgenuine : ∀ unit ∈ sent, Genuine unit.1 unit.2 :=
    hmet.genuine_of_mem_sent ParameterSets.whole_builtIn
  have hwhole : ∀ bytes ∈ sent.map (·.2), WholeUnit bytes := by
    intro bytes hbytes
    obtain ⟨unit, hunit, rfl⟩ := List.mem_map.mp hbytes
    exact (hgenuine unit hunit).1
  have hstream : stream = (sent.map (·.2)).flatten := hlogged.stream_eq
  constructor
  · rw [hstream, scanAll_flatten hwhole, layOut_map, List.map_map]
    refine (List.map_congr_left fun unit hunit => ?_).trans (List.map_id _)
    exact Prod.ext (hgenuine unit hunit).2.symm rfl
  · intro ahead behind heq
    rw [hstream] at heq
    obtain ⟨earlier, inside, rest, later, hsplit, hahead⟩ := startCode_place_flatten hwhole heq
    obtain ⟨before, after, hsent, rfl, hafter⟩ := List.map_eq_append_iff.mp hsplit
    obtain ⟨⟨kind, bytes⟩, more, rfl, rfl, rfl⟩ := List.map_eq_cons_iff.mp hafter
    have hmem : (kind, inside ++ startCode ++ rest) ∈ sent := by
      rw [hsent]
      exact List.mem_append_right _ List.mem_cons_self
    obtain ⟨hunit, rfl⟩ : Genuine kind (inside ++ startCode ++ rest) := hgenuine _ hmem
    exact ⟨before, _, inside, rest, more, hsent, hahead, hunit.startCode_place rfl⟩

/-- An IDR slice that ends in a zero, a unit whose header byte is zero with what looks like a start
code behind its own, and a keyframe without the pair. -/
theorem output_scans_back_zeros :
    let calls : List FramerCall :=
      [.process [0, 0, 0, 1, 0x67, 0x64, 0, 0, 0, 1, 0x65, 0x88, 0,
          0, 0, 0, 1, 0, 0, 0, 1, 0xAA],
        .process [0, 0, 0, 1, 0x65, 0x89]]
    let keeper : Keeper (StateM Shelf) := { store := .memory, device := "0" }
    let log := ((({ framer := {} } : FramerLog).callAll (some keeper) calls).run []).1
    (∀ frame, .process frame ∈ calls → ¬ startCode <:+ frame) ∧
    (scanAll (log.history.outputs.flatMap (·.bytes))).map (fun unit => (unit.kind, unit.bytes)) =
      [(.sps, [0, 0, 0, 1, 0x67, 0x64]), (.pps, [0, 0, 0, 1, 0x68, 0xEE, 0x3C, 0xB0]),
        (.idrSlice, [0, 0, 0, 1, 0x65, 0x88, 0]), (.other 0, [0, 0, 0, 1, 0, 0, 0, 1, 0xAA]),
        (.idrSlice, [0, 0, 0, 1, 0x65, 0x89])] := by
  intro calls keeper log
  have hcalls : ∀ frame, .process frame ∈ calls → ¬ startCode <:+ frame := by
    intro frame hframe
    rcases List.mem_pair.mp hframe with heq | heq <;> cases heq <;> decide
  refine ⟨hcalls, ?_⟩
  rw [(output_scans_back (some keeper) defaultUnitLimit {} calls hcalls []).1]
  decide +kernel

end CamStream
