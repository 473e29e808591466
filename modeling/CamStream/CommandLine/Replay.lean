import CamStream.CommandLine.Arguments
import CamStream.Files.Output
import CamStream.Replay.Delivery
import CamStream.Settings.Document
import CamStream.Settings.Store

/-!
# The replay command

A recording goes through the pipeline as if it came from a camera, and what a consumer would
receive is written out: the framed stream, and a line of text with the times of each timed unit.

The order of effects is fixed. The settings are read first, then the kept pair; both outputs are
made before the recording is read; the units go into them at the end, one after the other.
-/

namespace CamStream

/-- What the command prints at the end of a replay. -/
structure ReplaySummary where
  tally : Tally
  units : Nat
  bytes : Nat
  /-- The time of the last timed unit. -/
  lastPts : Option Nat
deriving DecidableEq, Repr

/-- How the command ends. -/
structure ReplayEnding where
  /-- What went wrong, if anything did. -/
  failure : Option String := none
  /-- The summary, if the replay came to an end. -/
  summary : Option ReplaySummary := none
deriving DecidableEq, Repr

namespace ReplaySummary

/-- The summary of what the consumer received. -/
def ofReplayed (replayed : Replayed) : ReplaySummary where
  tally := replayed.tally
  units := replayed.units.length
  bytes := replayed.units.foldl (fun bytes unit => bytes + unit.data.length) 0
  lastPts := (replayed.units.filterMap (·.pts?)).getLast?

/-- A time that may be missing. -/
def optionalTime : Option Nat → String
  | none => "None"
  | some time => s!"Some({time})"

/-- The summary as a line of text. -/
def line (summary : ReplaySummary) : String :=
  let tally := summary.tally
  " ".intercalate
    [s!"frames={tally.framesReceived}", s!"empty={tally.emptyFrames}", s!"units={summary.units}",
      s!"bytes={summary.bytes}", s!"dropped_before_keyframe={tally.unitsBeforeKeyframe}",
      s!"malformed={tally.malformedUnits}", s!"param_set_writes={tally.setWrites}",
      s!"param_set_write_failures={tally.setWriteFailures}",
      s!"overflow_drops={tally.overflowDrops}",
      "last_pts_ns=" ++ optionalTime summary.lastPts]

end ReplaySummary

/-! ## The outputs -/

/-- The first line of the times. -/
def timesHeader : String := "pts_ns,duration_ns,keyframe\n"

/-- The line of a timed unit, in the pieces in which it is put into the output; other units have
none. -/
def timesLine (unit : AccessUnit) : List String :=
  match unit.timing with
  | some timing =>
    [toString timing.pts, ",", toString timing.duration, ",", toString unit.keyframe.toNat, "\n"]
  | none => []

/-- The outputs that are asked for. -/
structure Outputs where
  /-- The framed stream. -/
  stream : Option OutputFile := none
  /-- The times of the timed units. -/
  times : Option OutputFile := none
deriving DecidableEq, Repr

namespace Outputs

open Script (Fallible)

/-- Put the first line into the times. -/
def putHeader (outputs : Outputs) : Fallible Outputs := do
  return { outputs with times := ← outputs.times.mapM (·.put (Bytes.ofText timesHeader)) }

/-- Put a unit into the outputs. -/
def putUnit (outputs : Outputs) (unit : AccessUnit) : Fallible Outputs := do
  let pieces := (timesLine unit).map Bytes.ofText
  return {
    stream := ← outputs.stream.mapM (·.put unit.data)
    times := ← outputs.times.mapM fun times => pieces.foldlM OutputFile.put times }

/-- Write what still waits, the framed stream first. -/
def flush (outputs : Outputs) : Fallible Outputs := do
  return { stream := ← outputs.stream.mapM (·.flush), times := ← outputs.times.mapM (·.flush) }

end Outputs

namespace Arguments

/-! ## The settings in force -/

/-- Settings with what the arguments say in their place. An additional framerate is put last. -/
def override (arguments : Arguments) (settings : Settings) : Settings :=
  let replay := settings.replay
  let framerates := match arguments.framerate with
    | some rate =>
      if replay.framerates.contains rate then replay.framerates else replay.framerates ++ [rate]
    | none => replay.framerates
  let (width, height) := match arguments.width, arguments.height with
    | some width, some height => (width, height)
    | _, _ => (replay.width, replay.height)
  { settings with
    device := arguments.device.getD settings.device
    persistence := { settings.persistence with
      directory := arguments.storeDirectory.orElse fun _ => settings.persistence.directory }
    replay := { width, height, framerates } }

/-- What the arguments accept. -/
def constraint (arguments : Arguments) : FormatFilter :=
  match arguments.framerate with
  | some rate => FormatFilter.onlyFramerate {} rate
  | none => {}

end Arguments

/-! ## The command -/

namespace ReplayCommand

/-- What the command does, in one line. -/
def about : String := "Replay an H.264 capture file"

/-- A script that can end the command with a message for the user. -/
abbrev Step := ExceptT String Script

/-- Make a request whose failure ends the command with the given message. -/
def orEnd {α : Type} (message : String) (action : Script.Fallible α) : Step α :=
  action.adapt fun _ => message

/-- Read the settings in force. -/
def readSettings (arguments : Arguments) : Step Settings := do
  match arguments.settings with
  | none => return arguments.override {}
  | some path =>
    let contents : Except FileError Bytes ← Script.request (.read path none)
    match Settings.ofFile path contents with
    | .ok settings => return arguments.override settings
    | .error error => throw error.message

/-- Make a request whose failure ends the command and speaks for itself. -/
def orReport {α : Type} (action : Script.Fallible α) : Step α := action.adapt FileError.message

/-- Make an output file, if it is asked for. -/
def createOutput (path? : Option Path) : Step (Option OutputFile) :=
  path?.mapM fun path => orEnd s!"creating {path.text}" (OutputFile.create path)

/-- Make the output files that are asked for. -/
def createOutputs (arguments : Arguments) : Step Outputs := do
  let stream ← createOutput arguments.output
  let times ← createOutput arguments.timestamps
  orReport ({ stream, times : Outputs }.putHeader)

/-- Write units to the outputs. -/
def writeUnits (outputs : Outputs) (units : List AccessUnit) : Script.Fallible Unit := do
  let outputs ← units.foldlM Outputs.putUnit outputs
  let _ ← outputs.flush

/-- The clock reading at which a frame is delivered: paced delivery waits until it is due. -/
def clock (arguments : Arguments) (due : Nat) : Keeping Nat :=
  if arguments.fast then return due else Script.request (.wait due)

/-- Replay a recording with the format and the framer given. -/
def replay (arguments : Arguments) (home : Option String) (settings : Settings) (format : CaptureFormat)
    (keeper? : Option (Keeper Keeping)) (framer : Framer) (recording : Bytes) :
    Script Replayed := do
  let delivery : Delivery := {
    session := { framer, clock := .new format.interval settings.smoothing }
    exchange := .opened settings.queue.capacity settings.queue.overflow }
  let deliver : Keeping Replayed := do
    let delivery ← delivery.deliverAll keeper? (clock arguments)
      (dueFrames recording format.interval)
    settings.persistence.flush home
    return delivery.close
  return (← deliver.run []).1

/-- The command up to the summary. -/
def steps (arguments : Arguments) (home : Option String) : Step ReplaySummary := do
  let settings ← readSettings arguments
  let format ← match selectFormat [settings.replay.capability] arguments.constraint.best with
    | .ok format => pure format
    | .error failure => throw failure.message
  let keeper? := settings.persistence.openKeeper home settings.device
  let (framer, _) ← ((settings.openFramer keeper?).run [] : Script _)
  let outputs ← createOutputs arguments
  let contents : Except FileError Bytes ← Script.request (.read arguments.input none)
  match contents with
  | .error _ =>
    orReport (writeUnits outputs [])
    throw s!"replaying {arguments.input.text}"
  | .ok recording =>
    let replayed ← replay arguments home settings format keeper? framer recording
    orReport (writeUnits outputs replayed.units)
    return .ofReplayed replayed

/-- The command. A replay that gave no unit has failed, but its summary is printed. -/
def run (arguments : Arguments) (home : Option String) : Script ReplayEnding := do
  match ← (steps arguments home).run with
  | .error message => return { failure := some message }
  | .ok summary =>
    let failure :=
      if summary.units = 0 then some s!"no decodable units in {arguments.input.text}" else none
    return { failure, summary := some summary }

end ReplayCommand

end CamStream
