import CamStream.Files.Path
import CamStream.KeyedList

/-!
# Command-line arguments

Every argument is a long option, alone or with a value: `--option value` or `--option=value`. A
value that begins with a dash has to be written behind an equals sign. No option is given twice.

Arguments are read from left to right, so a fault counts only if it comes before a request for
help.
-/

namespace CamStream

/-- What a replay is asked to do. -/
structure Arguments where
  /-- The recording to replay. -/
  input : Path
  /-- Where the framed stream goes. -/
  output : Option Path := none
  /-- Where the times of the units go. -/
  timestamps : Option Path := none
  device : Option String := none
  /-- Where parameter sets are kept. -/
  storeDirectory : Option Path := none
  /-- The only framerate to accept. -/
  framerate : Option Nat := none
  width : Option Nat := none
  height : Option Nat := none
  /-- A file with settings. -/
  settings : Option Path := none
  /-- Whether to deliver frames without waiting until they are due. -/
  fast : Bool := false
deriving DecidableEq, Repr

/-- What is wrong with arguments. -/
inductive ArgumentFault where
  | unexpected (argument : String)
  | repeated (option : String)
  | missingValue (option : String)
  | needlessValue (option : String)
  | invalidValue (option value : String)
  | missing (option : String)
  | missingCompanion (option companion : String)
deriving DecidableEq, Repr

namespace ArgumentFault

/-- What the user is told. -/
def message : ArgumentFault → String
  | unexpected argument => s!"unexpected argument '{argument}'"
  | repeated option => s!"'--{option}' is given more than once"
  | missingValue option => s!"'--{option}' needs a value"
  | needlessValue option => s!"'--{option}' takes no value"
  | invalidValue option value => s!"'{value}' is no value for '--{option}'"
  | missing option => s!"'--{option}' is required"
  | missingCompanion option companion => s!"'--{option}' needs '--{companion}'"

end ArgumentFault

/-- What the arguments ask for. -/
inductive Command where
  | help
  | replay (arguments : Arguments)
deriving DecidableEq, Repr

namespace Arguments

/-! ## Options and their values -/

/-- What an option takes. -/
inductive ValueKind where
  | nothing
  | path
  | text
  | number
deriving DecidableEq, Repr

/-- The options, apart from the one for help. -/
def options : List (String × ValueKind) :=
  [("input", .path), ("output", .path), ("timestamps", .path), ("device", .text),
    ("spspps-dir", .path), ("fps", .number), ("width", .number), ("height", .number),
    ("config", .path), ("fast", .nothing)]

/-- The option for help. -/
def helpOption : String := "help"

/-- Decimal digits with an optional sign; nothing else. -/
def integer? (text : String) : Option Int :=
  let (sign, digits) : Int × List Char := match text.toList with
    | '+' :: digits => (1, digits)
    | '-' :: digits => (-1, digits)
    | digits => (1, digits)
  if digits.isEmpty || !digits.all Char.isDigit then none
  else some (sign * digits.foldl (fun value c => value * 10 + (c.toNat - '0'.toNat)) 0)

/-- The greatest number that an option takes. -/
def maxNumber : Nat := 0xFFFFFFFF

/-- A number that an option takes. -/
def number? (text : String) : Option Nat :=
  (integer? text).bind fun value => if 0 ≤ value && value ≤ maxNumber then some value.toNat else none

/-- Whether a text is a value of a kind. -/
def isValue : ValueKind → String → Bool
  | .nothing, _ => false
  | .path, text => text ≠ ""
  | .text, _ => true
  | .number, text => (number? text).isSome

/-! ## Reading -/

/-- The options given so far, with their texts. -/
abbrev Given := KeyedList String String

/-- Take over an option. -/
def give (given : Given) (option : String) (kind : ValueKind) (text : String) :
    Except ArgumentFault Given :=
  if (given.get? option).isSome then .error (.repeated option)
  else if kind ≠ .nothing && !isValue kind text then .error (.invalidValue option text)
  else .ok (given.put option text)

/-- An argument cut at its first equals sign. -/
def cutAtEquals (chars : List Char) : String × Option String :=
  match chars.span (· ≠ '=') with
  | (name, []) => (String.ofList name, none)
  | (name, _ :: value) => (String.ofList name, some (String.ofList value))

/-- Whether an argument can stand for the value of the option before it. -/
def standsAlone (argument : String) : Bool :=
  argument = "-" || argument.toList.head? ≠ some '-'

/-- Read arguments: the options given, or nothing when help is asked for. -/
def readFrom (given : Given) : List String → Except ArgumentFault (Option Given)
  | [] => .ok (some given)
  | argument :: rest =>
    match argument.toList with
    | ['-', '-'] =>
      match rest with
      | [] => .ok (some given)
      | extra :: _ => .error (.unexpected extra)
    | '-' :: '-' :: chars =>
      let (name, attached) := cutAtEquals chars
      if name = helpOption then
        if attached.isSome then .error (.needlessValue name) else .ok none
      else
        match options.lookup name, attached, rest with
        | none, _, _ => .error (.unexpected argument)
        | some .nothing, some _, _ => .error (.needlessValue name)
        | some .nothing, none, rest => do readFrom (← give given name .nothing "") rest
        | some kind, some text, rest => do readFrom (← give given name kind text) rest
        | some kind, none, text :: rest =>
          if standsAlone text then do readFrom (← give given name kind text) rest
          else .error (.missingValue name)
        | some _, none, [] => .error (.missingValue name)
    | '-' :: 'h' :: _ => .ok none
    | _ => .error (.unexpected argument)

/-- Fail unless an option comes with its companion. -/
def requireCompanion (given : Given) (option companion : String) : Except ArgumentFault Unit :=
  if (given.get? option).isSome && (given.get? companion).isNone then
    .error (.missingCompanion option companion)
  else .ok ()

/-- The arguments with the given options. -/
def ofGiven (given : Given) : Except ArgumentFault Arguments := do
  let path? (option : String) : Option Path := (given.get? option).map Path.mk
  let number? (option : String) : Option Nat := (given.get? option).bind number?
  let some input := path? "input" | throw (.missing "input")
  requireCompanion given "width" "height"
  requireCompanion given "height" "width"
  return {
    input
    output := path? "output"
    timestamps := path? "timestamps"
    device := given.get? "device"
    storeDirectory := path? "spspps-dir"
    framerate := number? "fps"
    width := number? "width"
    height := number? "height"
    settings := path? "config"
    fast := (given.get? "fast").isSome }

end Arguments

namespace Command

/-- What arguments ask for. -/
def ofArguments (arguments : List String) : Except ArgumentFault Command := do
  match ← Arguments.readFrom [] arguments with
  | none => return .help
  | some given => return .replay (← Arguments.ofGiven given)

end Command

end CamStream
