/-!
# Numbers and times of a TOML document

Each of these is read from a word.

A word can have the form of an integer and still denote none: `0x` has no digits, and `1_a` has a
letter behind its underscore. Such a word is part of a document like any other, as long as nobody
asks for its value.

* `Number.ofWord?`: the form of a number decides whether a document can be read.
* `Number.isReadable`: whether a number can be passed over as a value.
* `overflowsDouble`: exact; a power of ten is computed only when the exponent is within reach.
-/

namespace CamStream.Toml

/-- The value of a digit, in any base up to sixteen. -/
def digitValue (c : Char) : Nat :=
  if c.isDigit then c.toNat - '0'.toNat else c.toLower.toNat - 'a'.toNat + 10

/-- Whether a character is a digit in base sixteen. -/
def isHexDigit (c : Char) : Bool :=
  c.isDigit || ('a' ≤ c && c ≤ 'f') || ('A' ≤ c && c ≤ 'F')

/-- Whether a character is a digit in a base up to sixteen. -/
def isDigitIn (base : Nat) (c : Char) : Bool := isHexDigit c && digitValue c < base

/-- The number that digits denote in a base. -/
def ofDigits (base : Nat) (digits : List Char) : Nat :=
  digits.foldl (fun value c => value * base + digitValue c) 0

/-- The sign of a word, and the rest. -/
def signOf : List Char → Int × List Char
  | '+' :: rest => (1, rest)
  | '-' :: rest => (-1, rest)
  | rest => (1, rest)

/-! ## Underscores -/

/-- Whether every underscore has a digit on both sides. The second argument says whether a digit
comes before the first character. -/
def betweenDigits (isDigit : Char → Bool) : Bool → List Char → Bool
  | _, [] => true
  | before, '_' :: rest =>
    before && rest.head?.any isDigit && betweenDigits isDigit false rest
  | _, c :: rest => betweenDigits isDigit (isDigit c) rest

/-- Whether the underscores of a word are where they may be. None comes first; one that comes
second may follow a sign; all others stand between digits. -/
def underscoresFit (isDigit : Char → Bool) : List Char → Bool
  | [] => true
  | first :: rest => first ≠ '_' && betweenDigits isDigit true rest

/-- The number that digits denote in a base, if there is a digit and nothing else. Underscores do
not count. -/
def ofDigits? (base : Nat) (chars : List Char) : Option Nat :=
  let digits := chars.filter (· ≠ '_')
  if !digits.isEmpty && digits.all (isDigitIn base) then some (ofDigits base digits) else none

/-! ## Integers -/

/-- The base that the front of a word stands for, and what comes behind it. -/
def base? : List Char → Option (Nat × List Char)
  | '0' :: 'x' :: rest => some (16, rest)
  | '0' :: 'o' :: rest => some (8, rest)
  | '0' :: 'b' :: rest => some (2, rest)
  | _ => none

/-- Whether characters can stand behind the sign of a base: digits and underscores, or nothing. -/
def hasBasedForm (base : Nat) (chars : List Char) : Bool :=
  chars.all (fun c => c = '_' || isDigitIn base c) && underscoresFit isHexDigit chars

/-- Whether a word has the form of a decimal integer: digits without a leading zero. Behind an
underscore there may be other characters, but none that make it a float, and no space. -/
def hasDecimalForm (word : List Char) : Bool :=
  let (_, unsigned) := signOf word
  match unsigned.dropWhile Char.isDigit with
  | [] => !unsigned.isEmpty && (unsigned.head? ≠ some '0' || unsigned.length = 1)
  | '_' :: rest =>
    unsigned.head? ≠ some '0' && !rest.any ['.', 'e', 'E', ' '].contains &&
      underscoresFit isHexDigit word
  | _ => false

/-- The integer that a decimal word denotes. -/
def decimal? (word : List Char) : Option Int :=
  let (sign, unsigned) := signOf word
  (ofDigits? 10 unsigned).map fun digits => sign * digits

/-! ## Floats -/

/-- The least number that is rounded to more than the largest double: halfway between
`2 ^ 1024 - 2 ^ 971`, which is the largest, and `2 ^ 1024`. -/
def doubleLimit : Nat := Nat.pow 2 1024 - Nat.pow 2 970

/-- Whether `digits · 10 ^ exponent` is rounded to more than the largest double, which has 309
digits. -/
def overflowsDouble (digits : Nat) (exponent : Int) : Bool :=
  let places : Int := (Nat.toDigits 10 digits).length + exponent
  if digits = 0 || places ≤ 0 then false
  else if 309 < places then true
  else doubleLimit * Nat.pow 10 (-exponent).toNat ≤ digits * Nat.pow 10 exponent.toNat

/-- The digits at the front of a word, of which there must be one at least, and the rest.
Underscores among them are dropped. -/
def takeDigits? (word : List Char) : Option (List Char × List Char) :=
  let belongs (c : Char) : Bool := c = '_' || c.isDigit
  let digits := (word.takeWhile belongs).filter (· ≠ '_')
  if digits.isEmpty then none else some (digits, word.dropWhile belongs)

/-- The digits behind a point, which may be absent, and the rest. -/
def takeFraction? : List Char → Option (List Char × List Char)
  | '.' :: rest => takeDigits? rest
  | rest => some ([], rest)

/-- The exponent at the end of a float, zero when there is none. Its digits may begin with
zeros. -/
def exponent? : List Char → Option Int
  | [] => some 0
  | mark :: rest => do
    if mark ≠ 'e' && mark ≠ 'E' then none
    let (sign, rest) := signOf rest
    let (digits, []) ← takeDigits? rest | none
    return sign * ofDigits 10 digits

/-- Whether the float that a word denotes overflows; nothing when the word is no float. A float
has a fraction or an exponent, or is infinite or not a number. -/
def float? (word : List Char) : Option Bool :=
  let (_, unsigned) := signOf word
  if unsigned = "inf".toList || unsigned = "nan".toList then some false
  else do
    let (whole, rest) ← takeDigits? unsigned
    if unsigned.head? = some '0' && whole.length ≠ 1 then none
    if rest.isEmpty || !underscoresFit Char.isDigit word then none
    let (fraction, rest) ← takeFraction? rest
    let exponent ← exponent? rest
    return overflowsDouble (ofDigits 10 (whole ++ fraction)) (exponent - fraction.length)

/-! ## Numbers -/

/-- A number of a document. -/
inductive Number where
  /-- A word in the form of an integer, and the integer that it denotes, if it denotes one. -/
  | integer (value? : Option Int)
  /-- A float. Only this is kept: whether its digits denote a number beyond the largest double. -/
  | float (overflows : Bool)
deriving DecidableEq, Repr

/-- Whether an integer fits in 128 bits, with or without a sign. -/
def fits128 (value : Int) : Bool := -Nat.pow 2 127 ≤ value && value < Nat.pow 2 128

namespace Number

/-- The number in whose form a word is. Only decimal integers have a sign. -/
def ofWord? (word : List Char) : Option Number :=
  match base? word with
  | some (base, rest) =>
    if hasBasedForm base rest then some (.integer ((ofDigits? base rest).map Int.ofNat)) else none
  | none =>
    if hasDecimalForm word then some (.integer (decimal? word))
    else (float? word).map .float

/-- Whether a number can be read, so that it can be passed over. -/
def isReadable : Number → Bool
  | integer value? => value?.any fits128
  | float overflows => !overflows

end Number

/-! ## Dates and times -/

/-- Two digits whose number lies within bounds, and the rest. -/
def twoDigits? (low high : Nat) : List Char → Option (Nat × List Char)
  | a :: b :: rest =>
    let value := ofDigits 10 [a, b]
    if a.isDigit && b.isDigit && low ≤ value && value ≤ high then some (value, rest) else none
  | _ => none

/-- The rest of a word behind a character that has to come first. -/
def behind? (c : Char) : List Char → Option (List Char)
  | first :: rest => if first = c then some rest else none
  | [] => none

/-- The number of days of a month. -/
def daysOfMonth (year month : Nat) : Nat :=
  if month = 2 then
    if year % 4 = 0 && (year % 100 ≠ 0 || year % 400 = 0) then 29 else 28
  else if month = 4 || month = 6 || month = 9 || month = 11 then 30
  else 31

/-- The rest of a word behind a calendar date. -/
def date? (word : List Char) : Option (List Char) := do
  let year := word.take 4
  if !(year.length = 4 && year.all Char.isDigit) then none
  let rest ← behind? '-' (word.drop 4)
  let (month, rest) ← twoDigits? 1 12 rest
  let rest ← behind? '-' rest
  let (_, rest) ← twoDigits? 1 (daysOfMonth (ofDigits 10 year) month) rest
  return rest

/-- The rest of a word behind a fraction of a second, which may be absent. -/
def fraction? (word : List Char) : Option (List Char) :=
  match word with
  | '.' :: rest =>
    let digits := rest.takeWhile Char.isDigit
    if digits.isEmpty then none else some (rest.dropWhile Char.isDigit)
  | _ => some word

/-- The rest of a word behind a time of day. The seconds may be absent. -/
def time? (word : List Char) : Option (List Char) := do
  let (_, rest) ← twoDigits? 0 23 word
  let rest ← behind? ':' rest
  let (_, rest) ← twoDigits? 0 59 rest
  match rest with
  | ':' :: rest => do
    let (_, rest) ← twoDigits? 0 60 rest
    fraction? rest
  | _ => return rest

/-- Whether a word is the offset of a time zone, or empty. -/
def isOffset : List Char → Bool
  | [] => true
  | ['Z'] | ['z'] => true
  | sign :: rest =>
    (sign = '+' || sign = '-') &&
      (do
        let (_, rest) ← twoDigits? 0 23 rest
        let rest ← behind? ':' rest
        let (_, rest) ← twoDigits? 0 59 rest
        return rest) == some []

/-- Whether a word is a date, a time of day, or both. -/
def isDateTime (word : List Char) : Bool :=
  match date? word with
  | some [] => true
  | some (separator :: rest) =>
    (separator = 'T' || separator = 't' || separator = ' ') && (time? rest).any isOffset
  | none => time? word = some []

end CamStream.Toml
