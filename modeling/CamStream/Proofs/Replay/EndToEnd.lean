import CamStream.Proofs.CommandLine.Overrides
import CamStream.Proofs.Replay.Command
import CamStream.Proofs.Replay.Progress

/-!
# What a replay comes to

A replay whose queue does not discard gives the units of its recording, whoever acts when: the consumer
receives exactly those that the frames give one after the other, and is then told that the stream has
ended. So the outputs and the summary depend on the recording alone. For this the outputs have to be
different files, and neither may be the recording or belong to the store: the store replaces its own
files by others, and what was written to an output in their place is lost.

* `replay_result`: this holds of all orders in which the parties can act, and of the command.
* `output_replaced`: an output in the place of the kept pair is lost.
-/

namespace CamStream

open FileSystem

/-- The outputs are different files, and neither is the input or belongs to the store. -/
structure Arguments.Apart (arguments : Arguments) (settings : Settings) (home : Option String)
    (working : Location) : Prop where
  outputs : ∀ output ∈ arguments.output, ∀ timestamps ∈ arguments.timestamps,
    target working output ≠ target working timestamps
  input : ∀ path, path ∈ arguments.output ∨ path ∈ arguments.timestamps →
    target working path ≠ target working arguments.input
  store : ∀ path, path ∈ arguments.output ∨ path ∈ arguments.timestamps →
    target working path ∉ settings.persistence.places working home settings.device

namespace Arguments.Apart

variable {arguments : Arguments} {settings : Settings} {home : Option String} {working : Location}

/-- Where the outputs lie. -/
def places (h : arguments.Apart settings home working) : OutputPlaces where
  stream := arguments.output.map (target working)
  times := arguments.timestamps.map (target working)
  apart := by
    intro place hstream htimes
    obtain ⟨output, houtput, rfl⟩ := Option.map_eq_some_iff.mp hstream
    obtain ⟨timestamps, htimestamps, hsame⟩ := Option.map_eq_some_iff.mp htimes
    exact h.outputs output houtput timestamps htimestamps hsame.symm

/-- A place of an output is one to which its path leads. -/
theorem exists_path (h : arguments.Apart settings home working) {place : Location}
    (hplace : place ∈ h.places.toList) :
    ∃ path, (path ∈ arguments.output ∨ path ∈ arguments.timestamps) ∧ place = target working path := by
  rcases List.mem_append.mp hplace with hstream | htimes
  · obtain ⟨path, hpath, rfl⟩ := Option.map_eq_some_iff.mp (Option.mem_toList.mp hstream)
    exact ⟨path, Or.inl hpath, rfl⟩
  · obtain ⟨path, hpath, rfl⟩ := Option.map_eq_some_iff.mp (Option.mem_toList.mp htimes)
    exact ⟨path, Or.inr hpath, rfl⟩

end Arguments.Apart

/-- How a replay ends that gave the units of so many frames, and what it leaves. -/
structure ReplayPlan.Outcome (plan : ReplayPlan) (frames : Nat) (units : List AccessUnit)
    (ending : ReplayEnding) (files : FileSystem) : Prop where
  summary : ∃ summary, ending.summary = some summary ∧ summary.Tells frames units
  failure : ending.failure.isSome = true ↔ units = []
  stream : ∀ path ∈ plan.arguments.output, files.read path = .ok (streamOf units)
  times : ∀ path ∈ plan.arguments.timestamps, files.read path = .ok (timesOf units)

/-- Whoever acts when, a replay gives the units of so many frames, and then it ends. -/
structure ReplayPlan.Settles (plan : ReplayPlan) (start : Playback) (frames : Nat)
    (units : List AccessUnit) : Prop where
  inOrder : ∀ schedule time, (stateAt plan.step start schedule time).received <+: units
  closed : ∀ schedule time failure,
    (stateAt plan.step start schedule time).consumer = .popping (.failed failure) →
      failure = .closed ∧ (stateAt plan.step start schedule time).received = units
  ending : ∀ schedule time ending, (stateAt plan.step start schedule time).consumer = .ended ending →
    (stateAt plan.step start schedule time).failure = some .closed ∧
      (stateAt plan.step start schedule time).received = units ∧
      plan.Outcome frames units ending (stateAt plan.step start schedule time).files
  ends : ∀ schedule, Fair schedule →
    ∃ time ending, (stateAt plan.step start schedule time).consumer = .ended ending

namespace ReplayPlan

variable {plan : ReplayPlan} {places : OutputPlaces} {begun last : FileSystem} {outputs : Outputs}
  {frames : Nat} {units : List AccessUnit}

/-- A file in the place of an output is read by its path. -/
theorem read_of_asked {others : List Location} (hspares : begun.Spares others last) {path : Path}
    {place? : Option Location} (hplace : place? = some (target begun.workingDirectory path))
    (hnames : ∃ parent name, begun.Names path parent name) {contents : Bytes}
    {file? : Option OutputFile} (h : Asked (OutputFile.Stored contents) last place? file?) :
    last.read path = .ok contents := by
  obtain ⟨parent, name, hnames⟩ := hnames
  rw [hplace, ← hspares.workingDirectory] at h
  cases h with
  | some hstored =>
    obtain ⟨number, hnode⟩ := hstored
    exact (hnames.spared hspares).read hnode

theorem Ready.outcome (hready : plan.Ready places begun outputs) {summary : ReplaySummary}
    (htells : summary.Tells frames units) {others : List Location}
    (hspares : begun.Spares others last) {flushed : Outputs}
    (hstored : flushed.Are (OutputFile.Stored (streamOf units)) (OutputFile.Stored (timesOf units))
      places last) : plan.Outcome frames units (plan.endingOf summary) last where
  summary := ⟨summary, rfl, htells⟩
  failure := by
    rw [endingOf, htells.count]
    cases units <;> simp
  stream := fun path hpath =>
    read_of_asked hspares (hready.stream path hpath).1 (hready.stream path hpath).2 hstored.stream
  times := fun path hpath =>
    read_of_asked hspares (hready.times path hpath).1 (hready.times path hpath).2 hstored.times

/-- What has been received while a replay is under way are the first units. -/
theorem received_prefix {now : Playback} (h : now.Sane plan begun places frames units) :
    now.received <+: units := by
  cases h with
  | underWay h =>
    rw [← h.order]
    exact ⟨_, by simp only [List.append_assoc]; rfl⟩
  | settled h =>
    exact ⟨[], (List.append_nil _).trans h.received⟩

theorem Ready.settles (hready : plan.Ready places begun outputs) (framer : Framer)
    (recording : Bytes) : plan.Settles (plan.start framer recording outputs begun)
      (splitFrames recording).length (plan.unitsOf framer recording) := by
  have hsane := Playback.sane_stateAt hready framer recording
  refine ⟨?_, ?_, ?_, ?_⟩
  · intro schedule time
    exact received_prefix (hsane schedule time)
  · intro schedule time failure hconsumer
    cases hsane schedule time with
    | underWay h =>
      have hfits := h.consumer
      rw [hconsumer] at hfits
      cases hfits with
      | closed _ hgone hempty =>
        exact ⟨rfl, (h.received_eq hgone hempty (by rw [hconsumer]; rfl)).2⟩
    | settled h =>
      obtain ⟨summary, hended, -⟩ := h.consumer
      rw [hconsumer] at hended
      cases hended
  · intro schedule time ending hconsumer
    cases hsane schedule time with
    | underWay h =>
      have hfits := h.consumer
      rw [hconsumer] at hfits
      cases hfits
    | settled h =>
      obtain ⟨summary, hended, htells⟩ := h.consumer
      rw [hconsumer] at hended
      cases hended
      exact ⟨h.failure, h.received, hready.outcome htells h.files h.outputs⟩
  · intro schedule hfair
    obtain ⟨time, -, hover⟩ := (Playback.progress hready.fast).exists_done (hsane schedule) hfair 0
    exact ⟨time, hover⟩

end ReplayPlan

/-- With its outputs made, a replay that is to keep apart from everything else is ready. -/
theorem ReplayPlan.ready_of_createOutputs {plan : ReplayPlan} {files created : FileSystem}
    {outputs : Outputs} (hfast : plan.arguments.fast = true) (hsound : files.Sound)
    (hqueue : plan.settings.queue.capacity = 0 ∨ plan.settings.queue.overflow = .block)
    (happart : plan.arguments.Apart plan.settings plan.home files.workingDirectory)
    (hcreate : (ReplayCommand.createOutputs plan.arguments).run.run files = (.ok outputs, created)) :
    plan.Ready happart.places created outputs ∧ files.Spares happart.places.toList created := by
  obtain ⟨hhold, hspares, hstream, htimes⟩ :=
    ReplayCommand.hold_of_createOutputs happart.places rfl rfl hsound hcreate
  have htarget : target created.workingDirectory = target files.workingDirectory :=
    congrArg target hspares.workingDirectory
  refine ⟨⟨hfast, hqueue, hspares.sound, ?_, hhold, ?_, ?_⟩, hspares⟩
  · intro place hplace
    obtain ⟨path, hpath, rfl⟩ := happart.exists_path hplace
    rw [hspares.workingDirectory]
    exact happart.store path hpath
  · intro path hpath
    refine ⟨?_, hstream path hpath⟩
    rw [htarget]
    exact congrArg (Option.map _) hpath
  · intro path hpath
    refine ⟨?_, htimes path hpath⟩
    rw [htarget]
    exact congrArg (Option.map _) hpath

/-- A replay that does not wait and whose queue does not discard comes to the same under every
schedule, and so does the command. -/
theorem replay_result {arguments : Arguments} {home : Option String} {settings : Settings}
    {files created : FileSystem} {outputs : Outputs} {recording : Bytes}
    (hfast : arguments.fast = true) (hrate : arguments.framerate ≠ some 0) (hsound : files.Sound)
    (hsettings : (ReplayCommand.readSettings arguments).run.run files = (.ok settings, files))
    (hqueue : settings.queue.capacity = 0 ∨ settings.queue.overflow = .block)
    (happart : arguments.Apart settings home files.workingDirectory)
    (hcreate : (ReplayCommand.createOutputs arguments).run.run files = (.ok outputs, created))
    (hinput : files.read arguments.input = .ok recording) :
    ∃ format, selectFormat [settings.replay.capability] arguments.constraint.best = .ok format ∧
      let plan : ReplayPlan := { arguments, home, settings, format }
      let framer := settings.framer home files
      let frames := (splitFrames recording).length
      let units := plan.unitsOf framer recording
      plan.Settles (plan.start framer recording outputs created) frames units ∧
        ∃ ending last, (ReplayCommand.run arguments home).run files = (ending, last) ∧
          plan.Outcome frames units ending last := by
  obtain ⟨format, hformat⟩ := ReplayCommand.exists_format hrate hsettings
  refine ⟨format, hformat, ?_⟩
  intro plan framer frames units
  obtain ⟨hready, hspares⟩ :=
    plan.ready_of_createOutputs hfast hsound hqueue happart hcreate
  have hread : created.read arguments.input = .ok recording := by
    apply hspares.read hinput
    intro hplace
    obtain ⟨path, hpath, hsame⟩ := happart.exists_path hplace
    exact happart.input path hpath hsame.symm
  obtain ⟨summary, last, hrun, htells, hkept, flushed, hstored⟩ :=
    ReplayPlan.run_command hready hsettings hformat hcreate hread
  exact ⟨hready.settles framer recording, _, last, hrun, hready.outcome htells hkept hstored⟩

/-! ## One picture -/

/-- A recording of one picture. -/
def onePicture : Bytes := [0, 0, 0, 1, 0x67, 0x42, 0, 0x1F, 0, 0, 0, 1, 0x65, 0x88]

/-- Files with the recording, and with a directory for the store. -/
def onePictureFiles : FileSystem where
  nodes := [(["store"], .directory openMode), (["in"], .file 0 onePicture)]
  nextNumber := 1

/-- A replay of the recording to an output and to a file for the times. -/
def replayInto (output : Path) : Arguments where
  input := ⟨"in"⟩
  output := some output
  timestamps := some ⟨"times"⟩
  storeDirectory := some ⟨"store"⟩
  fast := true

/-- The outputs when they are made. -/
def madeOutputs : Outputs where
  stream := some { handle := { number := 1 } }
  times := some {
    handle := { number := 2 }, buffer := { waiting := (Bytes.ofText timesHeader).toArray } }

/-- The files then, with the output at the given place. -/
def madeFiles (place : Location) : FileSystem where
  nodes := [(["times"], .file 2 []), (place, .file 1 [])] ++ onePictureFiles.nodes
  nextNumber := 3

theorem sound_onePictureFiles : onePictureFiles.Sound := by
  have hnode : ∀ {location number bytes},
      onePictureFiles.node? location = some (.file number bytes) →
        location = ["in"] ∧ number = 0 := by
    intro location number bytes hfile
    simp only [FileSystem.node?, onePictureFiles, KeyedList.get?_cons, KeyedList.get?_nil] at hfile
    grind
  refine ⟨fun hfile => ?_, fun hfile hother => (hnode hfile).1.trans (hnode hother).1.symm⟩
  rw [(hnode hfile).2]
  decide

theorem apart_out : (replayInto ⟨"out"⟩).Apart ((replayInto ⟨"out"⟩).override {}) none [] := by
  refine ⟨?_, ?_, ?_⟩
  · rintro _ ⟨⟩ _ ⟨⟩
    decide +kernel
  · rintro _ (⟨⟨⟩⟩ | ⟨⟨⟩⟩) <;> decide +kernel
  · rintro _ (⟨⟨⟩⟩ | ⟨⟨⟩⟩) <;> decide +kernel

theorem made_out :
    (ReplayCommand.createOutputs (replayInto ⟨"out"⟩)).run.run onePictureFiles =
      (.ok madeOutputs, madeFiles ["out"]) := by
  with_unfolding_all rfl

theorem replay_result_one_picture :
    let arguments := replayInto ⟨"out"⟩
    let settings := arguments.override {}
    let frames := (splitFrames onePicture).length
    onePictureFiles.Sound ∧ arguments.Apart settings none [] ∧
    ∃ format, selectFormat [settings.replay.capability] arguments.constraint.best = .ok format ∧
      let plan : ReplayPlan := { arguments, home := none, settings, format }
      let framer := settings.framer none onePictureFiles
      let units := plan.unitsOf framer onePicture
      plan.Settles (plan.start framer onePicture madeOutputs (madeFiles ["out"])) frames units ∧
        ∃ ending last, (ReplayCommand.run arguments none).run onePictureFiles = (ending, last) ∧
          plan.Outcome frames units ending last :=
  ⟨sound_onePictureFiles, apart_out,
    replay_result rfl (by decide) sound_onePictureFiles rfl (Or.inl rfl) apart_out made_out rfl⟩

/-- The thread and the consumer take turns. -/
def inTurn (time : Nat) : Party := if time % 2 = 0 then .thread else .consumer

/-- An output in the place of the kept pair is lost, though every path is another one and everything
else goes well. And for a framerate of zero nothing is replayed at all. -/
theorem output_replaced :
    let arguments := replayInto ⟨"store/0"⟩
    let settings := arguments.override {}
    let plan : ReplayPlan :=
      { arguments, home := none, settings, format := { width := 1920, height := 1080, framerate := 30 } }
    let framer := settings.framer none onePictureFiles
    let last := stateAt plan.step
      (plan.start framer onePicture madeOutputs (madeFiles ["store", "0"])) inTurn 26
    ([⟨"in"⟩, ⟨"store/0"⟩, ⟨"times"⟩, ⟨"store"⟩].map (target [])).Nodup ∧
    (ReplayCommand.readSettings arguments).run.run onePictureFiles = (.ok settings, onePictureFiles) ∧
    settings.queue.capacity = 0 ∧
    selectFormat [settings.replay.capability] arguments.constraint.best = .ok plan.format ∧
    (ReplayCommand.createOutputs arguments).run.run onePictureFiles =
      (.ok madeOutputs, madeFiles ["store", "0"]) ∧
    onePictureFiles.read arguments.input = .ok onePicture ∧
    last.consumer = .ended (plan.endingOf (.ofReplayed
      { units := last.received, ending := .failed .closed, tally := last.tally })) ∧
    last.received = plan.unitsOf framer onePicture ∧
    last.files.read ⟨"store/0"⟩ ≠ .ok (streamOf (plan.unitsOf framer onePicture)) ∧
    (ReplayCommand.run { replayInto ⟨"out"⟩ with framerate := some 0 } none).run onePictureFiles =
      ({ failure := some "no compatible format among 1 device capabilities" }, onePictureFiles) := by
  refine ⟨by decide +kernel, rfl, rfl, rfl, by with_unfolding_all rfl, rfl, by decide +kernel,
    by decide +kernel, fun hread => ?_, by decide +kernel⟩
  exact absurd (congrArg Except.toOption hread) (by decide +kernel)

end CamStream
