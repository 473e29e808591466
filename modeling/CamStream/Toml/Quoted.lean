import CamStream.Toml.Number
import CamStream.Toml.Reader

/-!
# Blanks, comments and strings of a TOML document

A string stands between double quotes, with escapes, or between single quotes, without. Between
three quotes it may go on over several lines.
-/

namespace CamStream.Toml

open Reader

/-! ## Blanks and comments -/

/-- Blanks within a line. -/
def isInlineBlank (c : Char) : Bool := c = ' ' || c = '\t'

/-- Characters that may stand in comments and strings: all but control characters, tabs apart. -/
def isPlain (c : Char) : Bool := c = '\t' || (' ' ≤ c && c ≠ '\x7f')

/-- Skip blanks within a line. -/
def skipBlanks : Reader Unit := do let _ ← takeWhile isInlineBlank

/-- Skip the end of a line, if it comes next, and say whether it did. -/
def skipNewline : Reader Bool := do
  if ← accept ['\n'] then return true else accept ['\r', '\n']

/-- Skip a comment, if one comes next. -/
def skipComment : Reader Unit := do
  if ← accept ['#'] then
    let _ ← takeWhile isPlain

/-- Skip blanks, comments and ends of lines. -/
def skipSpace : Reader Unit := do
  let lineEnds : Reader Bool := do
    skipBlanks
    skipComment
    skipNewline
  let _ ← collectWhile lineEnds (return ())

/-- Skip the rest of a line: blanks, a comment, and the end of the line or of the text. -/
def finishLine : Reader Unit := do
  skipBlanks
  skipComment
  if !(← skipNewline) then
    if !(← atEnd) then failure

/-! ## Strings -/

/-- The character with a code given by so many digits in base sixteen. -/
def codePoint (count : Nat) : Reader Char := do
  let text ← get
  let digits := text.take count
  set (text.drop count)
  let code := ofDigits 16 digits
  if digits.length = count && digits.all isHexDigit && code.isValidChar then
    return Char.ofNat code
  else failure

/-- The character that an escape stands for, behind the backslash. -/
def escape : Reader Char := do
  match ← take fun _ => true with
  | 'b' => return '\x08'
  | 't' => return '\t'
  | 'n' => return '\n'
  | 'f' => return '\x0c'
  | 'r' => return '\r'
  | 'e' => return '\x1b'
  | '"' => return '"'
  | '\\' => return '\\'
  | 'x' => codePoint 2
  | 'u' => codePoint 4
  | 'U' => codePoint 8
  | _ => failure

/-- The rest of a string on one line, behind its opening quote. -/
def lineString (quote : Char) (escapes : Bool) : Reader String := do
  let part : Reader Char := do
    if escapes then
      if ← accept ['\\'] then return ← escape
    take isPlain
  return String.ofList (← collectUntil (closes quote) part).1

/-- Skip blanks up to the end of a line, and all blanks and ends of lines behind it, if nothing
else stands in the line, and say whether this was so. -/
def skipLineJoin : Reader Bool := do
  let text ← get
  skipBlanks
  if ← skipNewline then
    let emptyLine : Reader Bool := do
      skipBlanks
      skipNewline
    let _ ← collectWhile emptyLine (return ())
    return true
  else
    set text
    return false

/-- The end of a string over several lines, if it comes next: three quotes. Up to two quotes more
belong to the string. -/
def closeBlock? (quote : Char) : Reader (Option (List Char)) := do
  if ← accept [quote, quote, quote] then
    let text ← get
    let extra := (text.takeWhile (· == quote)).take 2
    set (text.drop extra.length)
    return some extra
  else return none

/-- A part of a string over several lines. -/
def blockPart (escapes : Bool) : Reader (List Char) := do
  if ← accept ['\r', '\n'] then return ['\r', '\n']
  if escapes then
    if ← accept ['\\'] then
      if ← skipLineJoin then return []
      return [← escape]
  return [← take fun c => c = '\n' || isPlain c]

/-- The rest of a string over several lines, behind its three opening quotes. The end of a line
directly behind the quotes is skipped. -/
def blockString (quote : Char) (escapes : Bool) : Reader String := do
  let _ ← skipNewline
  let (parts, extra) ← collectUntil (closeBlock? quote) (blockPart escapes)
  return String.ofList (parts.flatten ++ extra)

/-- A string on one line, if one comes next. -/
def lineString? : Reader (Option String) := do
  if ← accept ['"'] then return some (← lineString '"' true)
  if ← accept ['\''] then return some (← lineString '\'' false)
  return none

/-- A string, if one comes next. -/
def string? : Reader (Option String) := do
  if ← accept ['"', '"', '"'] then return some (← blockString '"' true)
  if ← accept ['\'', '\'', '\''] then return some (← blockString '\'' false)
  lineString?

end CamStream.Toml
