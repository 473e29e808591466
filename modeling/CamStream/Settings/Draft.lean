import CamStream.Settings.Basic

/-!
# Drafts of settings

A draft leaves open whatever its author did not say. Resolving it fills the gaps, moves numbers
into range and turns down what makes no sense. When several things are wrong, the version is named
first, then the overflow policy, then the framerates, then the picture size.
-/

namespace CamStream

/-- Settings in which everything may be left open. -/
structure SettingsDraft where
  /-- Zero stands for the current version. -/
  version : Nat := 0
  device : Option String := none
  unitLimit : Option Nat := none
  persistenceEnabled : Option Bool := none
  directory : Option String := none
  background : Option Bool := none
  updateSlices : Option Nat := none
  divisor : Option Nat := none
  tolerance : Option Nat := none
  capacity : Option Nat := none
  overflow : Option String := none
  width : Option Nat := none
  height : Option Nat := none
  framerates : Option (List Nat) := none
deriving DecidableEq, Repr, Inhabited

namespace SettingsDraft

/-- The version, when it is one this library knows. -/
def resolveVersion (draft : SettingsDraft) : Except SettingsError Nat :=
  let version := if draft.version = 0 then settingsVersion else draft.version
  if version = settingsVersion then .ok version else .error (.unsupportedVersion version)

/-- The device without blanks around its name; a blank name stands for the default. -/
def resolveDevice (draft : SettingsDraft) : String :=
  ((draft.device.map Text.trim).filter (· ≠ "")).getD defaultDevice

/-- Where parameter sets are kept; an empty directory stands for the default. -/
def resolvePersistence (draft : SettingsDraft) : Persistence where
  enabled := draft.persistenceEnabled.getD true
  directory := (draft.directory.filter (· ≠ "")).map Path.mk
  background := draft.background.getD false

/-- The smoothing, with no parameter zero. -/
def resolveSmoothing (draft : SettingsDraft) : Smoothing :=
  let default : Smoothing := {}
  { updateSlices := draft.updateSlices.getD default.updateSlices
    divisor := draft.divisor.getD default.divisor
    tolerance := draft.tolerance.getD default.tolerance : Smoothing }.clamped

/-- How units are handed on. -/
def resolveQueue (draft : SettingsDraft) : Except SettingsError QueueSettings := do
  let capacity := draft.capacity.getD 0
  match draft.overflow with
  | none => return { capacity }
  | some name =>
    match Overflow.ofName name with
    | .ok overflow => return { capacity, overflow }
    | .error unknown => throw (.invalid (.overflow unknown))

/-- The format of a replay: framerates of zero are passed over, and something has to remain. -/
def resolveReplay (draft : SettingsDraft) : Except SettingsError ReplaySettings := do
  let default : ReplaySettings := {}
  let framerates := (draft.framerates.map (·.filter (0 < ·))).getD default.framerates
  if framerates.isEmpty then throw (.invalid .noFramerate)
  let width := draft.width.getD default.width
  let height := draft.height.getD default.height
  if width = 0 || height = 0 then throw (.invalid (.emptySize width height))
  return { width, height, framerates }

/-- The settings that a draft stands for. -/
def resolve (draft : SettingsDraft) : Except SettingsError Settings := do
  let version ← draft.resolveVersion
  let queue ← draft.resolveQueue
  let replay ← draft.resolveReplay
  return {
    version, queue, replay
    device := draft.resolveDevice
    unitLimit := max (draft.unitLimit.getD defaultUnitLimit) 1
    persistence := draft.resolvePersistence
    smoothing := draft.resolveSmoothing }

end SettingsDraft

end CamStream
