import CamStream.Files.Path
import CamStream.Files.FileError
import CamStream.CaptureFormat
import CamStream.Framing
import CamStream.FrameQueue

/-!
# Settings of a capture

The settings in force, and why given ones are turned down.
-/

namespace CamStream

/-- The version of the settings that this library knows. -/
def settingsVersion : Nat := 1

/-- The device when none is given. -/
def defaultDevice : String := "0"

/-- Where parameter sets are kept. -/
structure Persistence where
  enabled : Bool := true
  /-- The directory; nothing for the one in the home directory. -/
  directory : Option Path := none
  /-- Whether writing is left to a background worker. -/
  background : Bool := false
deriving DecidableEq, Repr, Inhabited

/-- How units are handed on. -/
structure QueueSettings where
  /-- The most units that wait; zero for no bound. -/
  capacity : Nat := 0
  overflow : Overflow := .dropOldest
deriving DecidableEq, Repr, Inhabited

/-- The format that a replayed recording advertises. -/
structure ReplaySettings where
  width : Nat := 1920
  height : Nat := 1080
  framerates : List Nat := [30]
deriving DecidableEq, Repr, Inhabited

namespace ReplaySettings

/-- The one capability of a replayed recording. -/
def capability (replay : ReplaySettings) : Capability where
  width := replay.width
  height := replay.height
  rates := .discrete replay.framerates

end ReplaySettings

/-- The settings of a capture. -/
structure Settings where
  version : Nat := settingsVersion
  /-- Which device; parameter sets are kept under this name. -/
  device : String := defaultDevice
  /-- How many units of a frame are looked at. -/
  unitLimit : Nat := defaultUnitLimit
  persistence : Persistence := {}
  smoothing : Smoothing := {}
  queue : QueueSettings := {}
  replay : ReplaySettings := {}
deriving DecidableEq, Repr, Inhabited

/-- Why settings of the right shape make no sense. -/
inductive SettingsFault where
  | overflow (unknown : UnknownOverflow)
  | noFramerate
  | emptySize (width height : Nat)
deriving DecidableEq, Repr

namespace SettingsFault

/-- What the user is told. -/
def message : SettingsFault → String
  | overflow unknown => unknown.message
  | noFramerate => "replay.framerates needs at least one non-zero entry"
  | emptySize width height => s!"replay size {width}x{height} is empty"

end SettingsFault

/-- Why there are no settings. -/
inductive SettingsError where
  | unsupportedVersion (version : Nat)
  /-- The text is not a TOML document of the expected shape. -/
  | malformed
  | invalid (fault : SettingsFault)
  | unreadable (path : Path) (error : FileError)
deriving DecidableEq, Repr

namespace SettingsError

/-- What the user is told. -/
def message : SettingsError → String
  | unsupportedVersion version => s!"unsupported config version {version}"
  | malformed => "invalid config TOML: the document does not describe settings"
  | invalid fault => "invalid config: " ++ fault.message
  | unreadable path error => s!"failed to read config file '{path.text}': {error.message}"

end SettingsError

end CamStream
