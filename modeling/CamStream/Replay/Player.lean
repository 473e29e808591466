import CamStream.Files.FileError
import CamStream.Files.Path
import CamStream.Replay.Recording
import CamStream.Session
import CamStream.Settings.Basic

/-!
# Players: recordings as capture devices

A player behaves like a camera. While it runs, a worker delivers the frames of a recording one by
one to a callback. A paced player waits until a frame is due and stamps it with the clock; any
other one delivers frames back to back and stamps them with the times at which they are due.

`Player.advance` is one step of the worker. A callback that fails takes the worker with it but
leaves the player marked as running, until it is stopped.
-/

namespace CamStream

/-- How a callback behaves. -/
structure Callback where
  /-- How many nanoseconds it takes for a frame. -/
  duration : Nat := 0
  /-- The number of the frame at which it fails, counted from one. -/
  failsAt : Option Nat := none
deriving DecidableEq, Repr

/-- The worker of a player. -/
structure Worker where
  /-- The frames that are still to be delivered, with the times at which they are due. -/
  frames : List (Bytes × Nat)
  callback : Callback
  /-- How many frames have been delivered. -/
  delivered : Nat := 0
  /-- When the worker was last free, in nanoseconds from the start. -/
  free : Nat := 0
deriving DecidableEq, Repr

/-- Why a player does not start. -/
inductive StartError where
  | alreadyStreaming
  | unreadable (error : FileError)
deriving DecidableEq, Repr

namespace StartError

/-- What the user is told. -/
def message : StartError → String
  | alreadyStreaming => "capture device is already streaming"
  | unreadable error => s!"capture I/O error: {error.message}"

end StartError

/-- A capture device that plays a recording. -/
structure Player where
  path : Path
  /-- The name under which parameter sets are kept. -/
  device : String
  capability : Capability
  paced : Bool := true
  running : Bool := false
  worker : Option Worker := none
deriving DecidableEq, Repr

namespace Player

/-- The player of a recording, with the device and the format that the settings give. -/
def ofSettings (path : Path) (settings : Settings) : Player where
  path := path
  device := settings.device
  capability := settings.replay.capability

/-- What the device can deliver. -/
def capabilities (player : Player) : List Capability := [player.capability]

/-- Begin to deliver frames. The recording is read at once: what happens to the file afterwards
does not matter. -/
def start (player : Player) (recording : Except FileError Bytes) (format : CaptureFormat)
    (callback : Callback) : Except StartError Player :=
  if player.running then .error .alreadyStreaming
  else
    match recording with
    | .error error => .error (.unreadable error)
    | .ok recording =>
      .ok { player with
        running := true
        worker := some { frames := dueFrames recording format.interval, callback } }

/-- One step of the worker: deliver a frame, or end. -/
def advance (player : Player) : Option CaptureFrame × Player :=
  match player.worker with
  | none => (none, player)
  | some worker =>
    if player.running then
      match worker.frames with
      | [] => (none, { player with running := false, worker := none })
      | (data, due) :: frames =>
        let timestamp := if player.paced then max due worker.free else due
        let delivered := worker.delivered + 1
        let free := max due worker.free + worker.callback.duration
        let worker :=
          if worker.callback.failsAt = some delivered then none
          else some { worker with frames, delivered, free }
        (some { data, timestamp }, { player with worker })
    else (none, { player with worker := none })

/-- Let the worker deliver so many frames, or as many as it has. -/
def deliver (player : Player) : Nat → List CaptureFrame × Player
  | 0 => ([], player)
  | count + 1 =>
    match player.advance with
    | (none, _) => ([], player)
    | (some frame, player) =>
      let (frames, player) := player.deliver count
      (frame :: frames, player)

/-- How many frames the worker has still to deliver. -/
def remaining (player : Player) : Nat := (player.worker.map (·.frames.length)).getD 0

/-- Let the worker deliver all that it has, and end. -/
def finish (player : Player) : List CaptureFrame × Player :=
  let (frames, player) := player.deliver player.remaining
  (frames, player.advance.2)

/-- Stop delivering. The callback is not called again. -/
def stop (player : Player) : Player := { player with running := false, worker := none }

end Player

end CamStream
