import CamStream.Settings.Draft
import CamStream.Toml.Document

/-!
# Settings as a TOML document

Every section of the document is a group of fields. A group can be written as a table, in which
unknown keys are passed over, or as an array with the fields in a fixed order, of which the last
ones may be missing. What comes behind them in the array is not looked at, whereas the value of an
unknown key must be readable. A document of blanks alone stands for the default settings.
-/

namespace CamStream

open Toml (Value Table)

namespace SettingsDraft

/-! ## Fields -/

/-- An unsigned integer of so many bits. -/
def unsigned? (bits : Nat) : Value → Option Nat
  | .number (.integer (some value)) =>
    if 0 ≤ value && value < Nat.pow 2 bits then some value.toNat else none
  | _ => none

/-- A text. -/
def text? : Value → Option String
  | .text text => some text
  | _ => none

/-- A truth value. -/
def boolean? : Value → Option Bool
  | .boolean value => some value
  | _ => none

/-- A list of unsigned integers of so many bits. -/
def unsignedList? (bits : Nat) : Value → Option (List Nat)
  | .array items => items.mapM (unsigned? bits)
  | _ => none

/-- Read a field that may be missing. -/
def field? {α : Type} (read : Value → Option α) : Option Value → Option (Option α)
  | none => some none
  | some value => (read value).map some

/-! ## Groups of fields -/

/-- The values of the fields with the given names, in order. Other keys of a table must at least
be readable; a date has no field at all. -/
def fields? (names : List String) : Value → Option (List (Option Value))
  | .table table =>
    if table.entries.all fun (key, value) => names.contains key || value.isReadable then
      some (names.map table.get?)
    else none
  | .array items => some ((List.range names.length).map fun i => items[i]?)
  | .rows rows => some ((List.range names.length).map fun i => (rows[i]?).map Value.table)
  | .dateTime => some (names.map fun _ => none)
  | _ => none

/-- The values of the fields of a group that may be missing as a whole. -/
def group? (names : List String) : Option Value → Option (List (Option Value))
  | none => some (names.map fun _ => none)
  | some value => fields? names value

/-- Take over the device. -/
def withDevice (draft : SettingsDraft) (value : Option Value) : Option SettingsDraft := do
  let [index] ← group? ["index"] value | none
  return { draft with device := ← field? text? index }

/-- Take over the limit on units. -/
def withAssembler (draft : SettingsDraft) (value : Option Value) : Option SettingsDraft := do
  let [limit] ← group? ["max_units_per_frame"] value | none
  return { draft with unitLimit := ← field? (unsigned? 64) limit }

/-- Take over where parameter sets are kept. -/
def withPersistence (draft : SettingsDraft) (value : Option Value) : Option SettingsDraft := do
  let [enabled, directory, background] ← group? ["enabled", "dir", "background"] value | none
  return { draft with
    persistenceEnabled := ← field? boolean? enabled
    directory := ← field? text? directory
    background := ← field? boolean? background }

/-- Take over the smoothing. -/
def withTiming (draft : SettingsDraft) (value : Option Value) : Option SettingsDraft := do
  let names := ["interval_update_frames", "smoothing_divisor", "hysteresis_intervals"]
  let [updateSlices, divisor, tolerance] ← group? names value | none
  return { draft with
    updateSlices := ← field? (unsigned? 32) updateSlices
    divisor := ← field? (unsigned? 32) divisor
    tolerance := ← field? (unsigned? 32) tolerance }

/-- Take over how units are handed on. -/
def withQueue (draft : SettingsDraft) (value : Option Value) : Option SettingsDraft := do
  let [capacity, overflow] ← group? ["capacity", "overflow"] value | none
  return { draft with
    capacity := ← field? (unsigned? 64) capacity
    overflow := ← field? text? overflow }

/-- Take over the format of a replay. -/
def withReplay (draft : SettingsDraft) (value : Option Value) : Option SettingsDraft := do
  let [width, height, framerates] ← group? ["width", "height", "framerates"] value | none
  return { draft with
    width := ← field? (unsigned? 32) width
    height := ← field? (unsigned? 32) height
    framerates := ← field? (unsignedList? 32) framerates }

/-- The draft that a document describes. -/
def ofTable? (document : Table) : Option SettingsDraft := do
  let names :=
    ["version", "device", "assembler", "persistence", "timing", "queue", "replay"]
  let [version, device, assembler, persistence, timing, queue, replay] ←
    fields? names (.table document) | none
  let version ← field? (unsigned? 32) version
  let draft : SettingsDraft := { version := version.getD 0 }
  let draft ← draft.withDevice device
  let draft ← draft.withAssembler assembler
  let draft ← draft.withPersistence persistence
  let draft ← draft.withTiming timing
  let draft ← draft.withQueue queue
  draft.withReplay replay

end SettingsDraft

namespace Settings

/-- The settings that a TOML text describes. -/
def ofToml (text : String) : Except SettingsError Settings :=
  if (Text.trim text).isEmpty then .ok {}
  else
    match (Toml.Document.parse? text).bind SettingsDraft.ofTable? with
    | some draft => draft.resolve
    | none => .error .malformed

/-- The settings in a file, given what reading it gave. -/
def ofFile (path : Path) (contents : Except FileError Bytes) : Except SettingsError Settings :=
  match contents with
  | .error error => .error (.unreadable path error)
  | .ok bytes =>
    match Bytes.toText? bytes with
    | none => .error (.unreadable path .invalidText)
    | some text => ofToml text

end Settings

end CamStream
