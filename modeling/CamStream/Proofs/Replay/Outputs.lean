import CamStream.CommandLine.Replay
import CamStream.Proofs.Files.Output
import Mathlib.Data.Option.Basic

/-!
# What a replay writes out

The framed stream takes the data of the units one behind the other. The times take their first line
and then a row for each unit that has a time. The two are written in turn, and neither disturbs the
other as long as they lie at different places.

* `Outputs.Hold`: the outputs that are asked for are there, and hold what belongs to some units.
* `Outputs.hold_of_createOutputs`: so they do at first, with no unit.
* `Outputs.Hold.putUnit`: with a unit more they hold what belongs to it.
* `Outputs.Hold.flush`: in the end it is on the disk.
-/

namespace CamStream

open FileSystem

/-! ## What belongs to units -/

/-- The framed stream of units. -/
def streamOf (units : List AccessUnit) : Bytes := units.flatMap (·.data)

/-- The row of a unit that has a time. -/
def timesRow? (unit : AccessUnit) : Option String :=
  unit.timing.map fun timing => s!"{timing.pts},{timing.duration},{unit.keyframe.toNat}\n"

/-- The times of units: the first line, and the rows in order. -/
def timesOf (units : List AccessUnit) : Bytes :=
  Bytes.ofText (timesHeader ++ String.join (units.filterMap timesRow?))

theorem streamOf_concat (units : List AccessUnit) (unit : AccessUnit) :
    streamOf (units ++ [unit]) = streamOf units ++ unit.data := by
  simp [streamOf]

/-- The bytes that are counted are those of the framed stream. -/
theorem count_bytes (units : List AccessUnit) (bytes : Nat) :
    units.foldl (fun bytes unit => bytes + unit.data.length) bytes = bytes + (streamOf units).length := by
  induction units generalizing bytes with
  | nil => rfl
  | cons unit units ih =>
    rw [List.foldl_cons, ih, streamOf, streamOf, List.flatMap_cons, List.length_append, Nat.add_assoc]

theorem timesOf_nil : timesOf [] = Bytes.ofText timesHeader := by
  simp [timesOf]

/-- The pieces of a line make up the row. -/
theorem join_timesLine (unit : AccessUnit) :
    String.join (timesLine unit) = String.join ([unit].filterMap timesRow?) := by
  cases htiming : unit.timing with
  | none => simp [timesLine, timesRow?, htiming]
  | some timing =>
    have hrow : timesRow? unit =
        some s!"{timing.pts},{timing.duration},{unit.keyframe.toNat}\n" := by
      rw [timesRow?, htiming, Option.map_some]
    rw [List.filterMap_cons_some hrow, timesLine, htiming]
    simp only [String.join_cons, String.join_nil, List.filterMap_nil, String.append_empty,
      String.append_assoc]
    rfl

theorem timesOf_concat (units : List AccessUnit) (unit : AccessUnit) :
    timesOf (units ++ [unit]) = timesOf units ++ ((timesLine unit).map Bytes.ofText).flatten := by
  rw [← Bytes.ofText_join, join_timesLine, timesOf, timesOf, ← Bytes.ofText_append,
    List.filterMap_append, String.join_append, String.append_assoc]

/-! ## Outputs that are asked for -/

/-- Where the outputs lie that are asked for: at two places, if there are two. -/
structure OutputPlaces where
  stream : Option Location
  times : Option Location
  apart : ∀ place ∈ stream, place ∉ times

/-- All places of outputs. -/
def OutputPlaces.toList (places : OutputPlaces) : List Location :=
  places.stream.toList ++ places.times.toList

/-- A statement on an output and the files, at which ever place the output lies. -/
abbrev OutputState := Location → OutputFile → FileSystem → Prop

/-- What happens at other places does not matter to it. -/
def OutputState.Local (state : OutputState) : Prop :=
  ∀ {place file files after others}, state place file files →
    FileSystem.Spares others files after → place ∉ others → state place file after

/-- Work on an output cannot fail, takes it from one state to another, and leaves all other places
alone. -/
def Works (work : OutputFile → Script.Fallible OutputFile) (before after : OutputState) : Prop :=
  ∀ {place file files}, files.Sound → before place file files →
    ∃ worked last, (work file).run.run files = (.ok worked, last) ∧ after place worked last ∧
      files.Spares [place] last

/-- There is an output exactly if it is asked for, and it is in the given state. -/
def Asked (state : OutputState) (files : FileSystem) : Option Location → Option OutputFile → Prop :=
  Option.Rel fun place file => state place file files

section Work

variable {before after : OutputState} {work : OutputFile → Script.Fallible OutputFile}
  {files last : FileSystem} {place? : Option Location} {file? : Option OutputFile}

theorem Asked.spared {others : List Location} (h : Asked before files place? file?)
    (hlocal : before.Local) (hspares : files.Spares others last)
    (hothers : ∀ place ∈ place?, place ∉ others) : Asked before last place? file? := by
  cases h with
  | none => exact .none
  | some hbefore => exact .some (hlocal hbefore hspares (hothers _ rfl))

theorem Works.run_mapM (hwork : Works work before after) (hsound : files.Sound)
    (h : Asked before files place? file?) :
    ∃ worked? last, (file?.mapM work).run.run files = (.ok worked?, last) ∧
      Asked after last place? worked? ∧ files.Spares place?.toList last := by
  cases h with
  | none => exact ⟨none, files, rfl, .none, .refl hsound⟩
  | some hbefore =>
    obtain ⟨worked, last, hrun, hafter, hspares⟩ := hwork hsound hbefore
    refine ⟨some worked, last, ?_, .some hafter, hspares⟩
    show ((work _).run >>= _ : Script _).run files = _
    rw [Script.run_bind, hrun]
    rfl

end Work

namespace OutputFile

/-- The output holds the given contents. -/
def Holding (contents : Bytes) : OutputState := fun place file files => file.Holds place files contents

/-- The given contents are on the disk. -/
def Stored (contents : Bytes) : OutputState :=
  fun place _ files => ∃ number, files.node? place = some (.file number contents)

theorem local_holding (contents : Bytes) : (Holding contents).Local :=
  fun h hspares hplace => h.spared hspares hplace

theorem local_stored (contents : Bytes) : (Stored contents).Local := by
  intro place file files after others h hspares hplace
  obtain ⟨number, hnode⟩ := h
  exact ⟨number, hspares.file hplace hnode⟩

theorem works_put (contents bytes : Bytes) :
    Works (·.put bytes) (Holding contents) (Holding (contents ++ bytes)) :=
  fun hsound h => h.put hsound bytes

theorem works_putAll (contents : Bytes) (pieces : List Bytes) :
    Works (pieces.foldlM OutputFile.put) (Holding contents) (Holding (contents ++ pieces.flatten)) :=
  fun hsound h => h.putAll hsound pieces

theorem works_flush (contents : Bytes) : Works OutputFile.flush (Holding contents) (Stored contents) :=
  fun hsound h => h.flush hsound

end OutputFile

namespace Outputs

open OutputFile

/-- Both outputs are in the given states, as far as they are asked for. -/
structure Are (outputs : Outputs) (stream times : OutputState) (places : OutputPlaces)
    (files : FileSystem) : Prop where
  stream : Asked stream files places.stream outputs.stream
  times : Asked times files places.times outputs.times

/-- The outputs hold what belongs to the units. -/
abbrev Hold (outputs : Outputs) (places : OutputPlaces) (files : FileSystem)
    (units : List AccessUnit) : Prop :=
  outputs.Are (Holding (streamOf units)) (Holding (timesOf units)) places files

variable {places : OutputPlaces} {files after : FileSystem} {units : List AccessUnit}
  {outputs : Outputs}

theorem Are.spared {stream times : OutputState} {others : List Location}
    (h : outputs.Are stream times places files) (hstream : stream.Local) (htimes : times.Local)
    (hspares : files.Spares others after) (hothers : ∀ place ∈ places.toList, place ∉ others) :
    outputs.Are stream times places after where
  stream := h.stream.spared hstream hspares fun place hplace =>
    hothers place (List.mem_append_left _ (Option.mem_toList.mpr hplace))
  times := h.times.spared htimes hspares fun place hplace =>
    hothers place (List.mem_append_right _ (Option.mem_toList.mpr hplace))

theorem Hold.spared {others : List Location} (h : outputs.Hold places files units)
    (hspares : files.Spares others after) (hothers : ∀ place ∈ places.toList, place ∉ others) :
    outputs.Hold places after units :=
  Are.spared h (local_holding _) (local_holding _) hspares hothers

/-- Work on the stream, and then on the times. -/
def workOn (outputs : Outputs) (work other : OutputFile → Script.Fallible OutputFile) :
    Script.Fallible Outputs := do
  return { stream := ← outputs.stream.mapM work, times := ← outputs.times.mapM other }

theorem Are.workOn {stream stream' times times' : OutputState}
    (h : outputs.Are stream times places files) (hsound : files.Sound)
    {work other : OutputFile → Script.Fallible OutputFile} (hwork : Works work stream stream')
    (hother : Works other times times') (hstream : stream'.Local) (htimes : times.Local) :
    ∃ worked last, (outputs.workOn work other).run.run files = (.ok worked, last) ∧
      worked.Are stream' times' places last ∧ files.Spares places.toList last := by
  obtain ⟨first, between, hfirst, hstreamed, hspares⟩ := hwork.run_mapM hsound h.stream
  have hwaiting : Asked times between places.times outputs.times := by
    apply h.times.spared htimes hspares
    intro place hplace hmem
    exact places.apart place (Option.mem_toList.mp hmem) hplace
  obtain ⟨second, last, hsecond, htimed, hrest⟩ := hother.run_mapM hspares.sound hwaiting
  refine ⟨{ stream := first, times := second }, last, ?_, ⟨?_, htimed⟩, ?_⟩
  · rw [Outputs.workOn, Script.run_fallible_bind, hfirst]
    dsimp only
    rw [Script.run_fallible_bind, hsecond]
    rfl
  · apply hstreamed.spared hstream hrest
    intro place hplace hmem
    exact places.apart place hplace (Option.mem_toList.mp hmem)
  · exact (hspares.mono (List.subset_append_left _ _)).trans
      (hrest.mono (List.subset_append_right _ _))

theorem Hold.putUnit (h : outputs.Hold places files units) (hsound : files.Sound)
    (unit : AccessUnit) :
    ∃ filled last, (outputs.putUnit unit).run.run files = (.ok filled, last) ∧
      filled.Hold places last (units ++ [unit]) ∧ files.Spares places.toList last := by
  have hwork := Are.workOn h hsound (works_put _ unit.data)
    (works_putAll _ ((timesLine unit).map Bytes.ofText)) (local_holding _) (local_holding _)
  rw [← streamOf_concat, ← timesOf_concat] at hwork
  exact hwork

theorem Hold.flush (h : outputs.Hold places files units) (hsound : files.Sound) :
    ∃ flushed last, outputs.flush.run.run files = (.ok flushed, last) ∧
      flushed.Are (Stored (streamOf units)) (Stored (timesOf units)) places last ∧
      files.Spares places.toList last :=
  Are.workOn h hsound (works_flush _) (works_flush _) (local_stored _) (local_holding _)

end Outputs

/-! ## Making the outputs -/

namespace ReplayCommand

open OutputFile

variable {files after : FileSystem}

theorem run_adapt {α : Type} (message : FileError → String) (action : Script.Fallible α)
    (files : FileSystem) :
    (action.adapt message : Step α).run.run files =
      ((action.run.run files).1.mapError message, (action.run.run files).2) := by
  show ((action.run >>= _ : Script _)).run files = _
  rw [Script.run_bind]
  rfl

theorem run_adapt_eq_ok_iff {α : Type} {message : FileError → String} {action : Script.Fallible α}
    {value : α} :
    (action.adapt message : Step α).run.run files = (.ok value, after) ↔
      action.run.run files = (.ok value, after) := by
  rw [run_adapt]
  rcases action.run.run files with ⟨answer, last⟩
  cases answer <;> simp [Except.mapError]

/-- An output that was made is empty. -/
theorem asked_of_createOutput {path? : Option Path} {file? : Option OutputFile}
    (hsound : files.Sound) (h : (createOutput path?).run.run files = (.ok file?, after)) :
    Asked (Holding []) after (path?.map (target files.workingDirectory)) file? ∧
      files.Spares (path?.map (target files.workingDirectory)).toList after ∧
      ∀ path ∈ path?, ∃ parent name, files.Names path parent name := by
  cases path? with
  | none =>
    cases h
    exact ⟨.none, .refl hsound, fun _ hpath => nomatch hpath⟩
  | some path =>
    obtain ⟨file, last, hrun, hfile⟩ := Script.run_fallible_bind_eq_ok_iff.mp h
    obtain ⟨hholds, hspares, hnames⟩ := holds_of_create hsound (run_adapt_eq_ok_iff.mp hrun)
    cases hfile
    refine ⟨.some hholds, hspares, ?_⟩
    rintro _ ⟨⟩
    exact hnames

/-- The outputs that were made hold what belongs to no unit. -/
theorem hold_of_createOutputs {arguments : Arguments} {outputs : Outputs} (places : OutputPlaces)
    (hstream : places.stream = arguments.output.map (target files.workingDirectory))
    (htimes : places.times = arguments.timestamps.map (target files.workingDirectory))
    (hsound : files.Sound) (h : (createOutputs arguments).run.run files = (.ok outputs, after)) :
    outputs.Hold places after [] ∧ files.Spares places.toList after ∧
      (∀ path ∈ arguments.output, ∃ parent name, after.Names path parent name) ∧
      ∀ path ∈ arguments.timestamps, ∃ parent name, after.Names path parent name := by
  obtain ⟨stream, first, hrun, h⟩ := Script.run_fallible_bind_eq_ok_iff.mp h
  obtain ⟨hstreamed, hspares, hnamed⟩ := asked_of_createOutput hsound hrun
  obtain ⟨times, second, hrun, h⟩ := Script.run_fallible_bind_eq_ok_iff.mp h
  obtain ⟨htimed, hmore, hnames⟩ := asked_of_createOutput hspares.sound hrun
  rw [hspares.workingDirectory] at htimed hmore
  rw [← hstream] at hstreamed hspares
  rw [← htimes] at htimed hmore
  obtain ⟨headed, last, hrun, hheaded, hlast⟩ :=
    Works.run_mapM (works_put [] (Bytes.ofText timesHeader)) hmore.sound htimed
  have hput := run_adapt_eq_ok_iff.mp h
  rw [Outputs.putHeader, Script.run_fallible_bind, hrun] at hput
  cases hput
  have hafter := hmore.trans hlast
  have hall : files.Spares places.toList after :=
    (hspares.mono (List.subset_append_left _ _)).trans (hafter.mono (List.subset_append_right _ _))
  refine ⟨⟨?_, ?_⟩, hall, ?_, ?_⟩
  · apply hstreamed.spared (local_holding _) hafter
    intro place hplace hmem
    exact places.apart place hplace (Option.mem_toList.mp hmem)
  · rw [timesOf_nil]
    exact hheaded
  · intro path hpath
    obtain ⟨parent, name, h⟩ := hnamed path hpath
    exact ⟨parent, name, h.spared hall⟩
  · intro path hpath
    obtain ⟨parent, name, h⟩ := hnames path hpath
    exact ⟨parent, name, h.spared hafter⟩

end ReplayCommand

end CamStream
