/-!
# Readers

A reader takes characters from the front of a text and fails when they are not what it wants.
Loops are bounded by the number of characters that are left: every round takes at least one.
-/

namespace CamStream.Toml

/-- Takes characters from the front of a text, or fails. -/
abbrev Reader := StateT (List Char) Option

namespace Reader

variable {α β : Type}

/-- The next character, left in place. -/
def peek? : Reader (Option Char) := do return (← get).head?

/-- Whether the text is used up. -/
def atEnd : Reader Bool := do return (← get).isEmpty

/-- Take a character that satisfies a condition. -/
def take (condition : Char → Bool) : Reader Char := do
  match ← get with
  | c :: rest => if condition c then set rest; return c else failure
  | [] => failure

/-- Take one given character. -/
def expect (c : Char) : Reader Unit := do let _ ← take (· == c)

/-- Take the given characters if they come next, and say whether they did. -/
def accept (chars : List Char) : Reader Bool := do
  let text ← get
  if chars.isPrefixOf text then
    set (text.drop chars.length)
    return true
  else return false

/-- Take characters as long as they satisfy a condition. -/
def takeWhile (condition : Char → Bool) : Reader (List Char) := do
  let text ← get
  set (text.dropWhile condition)
  return text.takeWhile condition

/-- Take at least one character that satisfies a condition, and all that follow. -/
def takeSome (condition : Char → Bool) : Reader (List Char) := do
  let chars ← takeWhile condition
  if chars.isEmpty then failure else return chars

/-- Read parts until the end comes, for as many rounds as `fuel` says. -/
def repeatUntil (close? : Reader (Option β)) (part : Reader α) : Nat → Reader (List α × β)
  | 0 => failure
  | fuel + 1 => do
    match ← close? with
    | some last => return ([], last)
    | none =>
      let first ← part
      let (others, last) ← repeatUntil close? part fuel
      return (first :: others, last)

/-- Read parts until the end comes. Every part takes at least one character, so there cannot be
more parts than characters. -/
def collectUntil (close? : Reader (Option β)) (part : Reader α) : Reader (List α × β) := do
  repeatUntil close? part ((← get).length + 1)

/-- Read parts as long as `more` says that one follows. -/
def collectWhile (more : Reader Bool) (part : Reader α) : Reader (List α) := do
  let close? : Reader (Option Unit) := do return if ← more then none else some ()
  return (← collectUntil close? part).1

/-- Take a character that ends something, if it comes next. -/
def closes (c : Char) : Reader (Option Unit) := do
  return if ← accept [c] then some () else none

/-- Read a whole text. -/
def readAll (reader : Reader α) (text : List Char) : Option α :=
  match reader.run text with
  | some (value, []) => some value
  | _ => none

end Reader

end CamStream.Toml
