import CamStream.Toml.Quoted
import CamStream.Toml.Value

/-!
# The lines of a TOML document

The grammar is that of TOML 1.1: inline tables may span lines and end in a comma, a time of day may
leave out its seconds, and strings know the escapes `\e` and `\xHH`. Arrays and inline tables may
be nested `maxDepth` deep, and a key may have `maxParts` parts.

A word ends only at a character that means something else, so a word can be far from any value.
Whether it stands for one is decided when all of it is known.
-/

namespace CamStream.Toml

open Reader

/-! ## Keys -/

/-- A key with dots: the parts before the last one lead to the table that holds the last one. -/
structure Key where
  path : List String
  name : String
deriving DecidableEq, Repr

/-- How many parts a key may have. -/
def maxParts : Nat := 80

/-- Characters of a key without quotes. -/
def isBare (c : Char) : Bool := c.isAlphanum || c = '_' || c = '-'

/-- One part of a key. -/
def simpleKey : Reader String := do
  match ← lineString? with
  | some name => return name
  | none => return String.ofList (← takeSome isBare)

/-- A key: one or more parts with dots between them. -/
def key : Reader Key := do
  let first ← simpleKey
  let dot : Reader Bool := do
    skipBlanks
    accept ['.']
  let part : Reader String := do
    skipBlanks
    simpleKey
  let others ← collectWhile dot part
  let parts := first :: others
  if maxParts < parts.length then failure
  return { path := parts.dropLast, name := parts.getLast (List.cons_ne_nil _ _) }

/-! ## Values -/

/-- How deep arrays and inline tables may be nested. -/
def maxDepth : Nat := 80

/-- Characters of a word: all but blanks, line ends, and what has a meaning between values. -/
def isWordChar (c : Char) : Bool :=
  !(isInlineBlank c || ['=', ',', '[', ']', '{', '}', '#', '\r', '\n'].contains c)

/-- Whether a word goes on behind blanks with a character: unless a string begins there. -/
def resumesWord (c : Char) : Bool := isWordChar c && c ≠ '"' && c ≠ '\''

/-- A word. It goes on behind blanks, as a time behind a date does. -/
def word : Reader (List Char) := do
  let first ← takeSome isWordChar
  let goesOn : Reader Bool := do
    return ((← get).dropWhile isInlineBlank).head?.any resumesWord
  let part : Reader (List Char) := do
    let blanks ← takeWhile isInlineBlank
    return blanks ++ (← takeSome isWordChar)
  return first ++ (← collectWhile goesOn part).flatten

/-- The value in whose form a word is. -/
def ofWord? (word : List Char) : Option Value :=
  if word = "true".toList then some (.boolean true)
  else if word = "false".toList then some (.boolean false)
  else if isDateTime word then some .dateTime
  else (Number.ofWord? word).map .number

/-- A value that holds no other values. -/
def scalar : Reader Value := do
  match ← string? with
  | some text => return .text text
  | none =>
    match ofWord? (← word) with
    | some value => return value
    | none => failure

/-- What follows a member of an array or an inline table: a comma, or the end, left in place. -/
def finishMember (close : Char) : Reader Unit := do
  skipSpace
  if ← accept [','] then skipSpace
  else if (← peek?) ≠ some close then failure

/-- The members of an array or an inline table, behind the opening bracket. -/
def members {α : Type} (close : Char) (member : Reader α) : Reader (List α) := do
  skipSpace
  let part : Reader α := do
    let item ← member
    finishMember close
    return item
  return (← collectUntil (closes close) part).1

/-- A key with its value. What may stand on both sides of the sign between them is skipped by
`gap`. -/
def pair (gap : Reader Unit) (item : Reader Value) : Reader (Key × Value) := do
  let key ← key
  gap
  expect '='
  gap
  return (key, ← item)

/-- The inline table with the given keys and values. -/
def inlineTable (pairs : List (Key × Value)) : Reader Value := do
  let add (table : Table) : Key × Value → Option Table
    | (key, value) => table.insert key.path key.name value
  match pairs.foldlM add (Table.empty .implied) with
  | some table => return .table (table.withOrigin .inline)
  | none => failure

/-- A value in which arrays and inline tables are nested at most so deep. Between braces, lines may
end anywhere but within a key. -/
def value : Nat → Reader Value
  | 0 => scalar
  | depth + 1 => do
    if ← accept ['['] then return .array (← members ']' (value depth))
    if ← accept ['{'] then return ← inlineTable (← members '}' (pair skipSpace (value depth)))
    scalar

/-! ## Lines -/

/-- A line of a document that says something. -/
inductive Line where
  /-- A header in single brackets. -/
  | table (key : Key)
  /-- A header in double brackets. -/
  | row (key : Key)
  | pair (key : Key) (value : Value)

/-- A header, behind its opening bracket or brackets. -/
def header (close : List Char) : Reader Key := do
  skipBlanks
  let key ← key
  skipBlanks
  if ← accept close then return key else failure

/-- A line that says something, without its end. -/
def line : Reader Line := do
  if ← accept ['[', '['] then return .row (← header [']', ']'])
  if ← accept ['['] then return .table (← header [']'])
  let (key, value) ← pair skipBlanks (value maxDepth)
  return .pair key value

/-- Skip blanks and what says nothing, and tell whether another line follows. -/
def nextLine : Reader Bool := do
  skipSpace
  return !(← atEnd)

/-- All lines that say something. A byte order mark may come first. -/
def lines : Reader (List Line) := do
  let _ ← accept ['\uFEFF']
  let part : Reader Line := do
    let line ← line
    finishLine
    return line
  collectWhile nextLine part

end CamStream.Toml
