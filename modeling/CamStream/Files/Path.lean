/-!
# Paths

A path is a text. Slashes separate its parts; empty parts and `.` stand for nothing, `..` leads
up, and every other part is a name to go into. A path that begins with a slash starts at the root,
any other one at the working directory.

* `parts_append`: a slash between two texts separates their parts.
-/

namespace CamStream

/-- A path, as it was written. -/
structure Path where
  text : String
deriving DecidableEq, Repr

namespace Path

/-- The parts of a text that slashes separate: the first one, and the others. -/
def partsOf : List Char → List Char × List (List Char)
  | [] => ([], [])
  | c :: rest =>
    let (part, others) := partsOf rest
    if c = '/' then ([], part :: others) else (c :: part, others)

/-- The parts of a path, empty ones included. -/
def parts (path : Path) : List String :=
  let (part, others) := partsOf path.text.toList
  (part :: others).map String.ofList

/-- The first part takes all of a text without slashes. -/
theorem partsOf_of_noSlash {chars : List Char} (h : '/' ∉ chars) : partsOf chars = (chars, []) := by
  induction chars with
  | nil => rfl
  | cons c rest ih =>
    simp only [List.mem_cons, not_or] at h
    have hc : ¬ c = '/' := fun e => h.1 e.symm
    simp [partsOf, ih h.2, hc]

theorem partsOf_append (before after : List Char) :
    partsOf (before ++ '/' :: after) =
      ((partsOf before).1, (partsOf before).2 ++ (partsOf after).1 :: (partsOf after).2) := by
  induction before with
  | nil => simp [partsOf]
  | cons c rest ih =>
    by_cases hc : c = '/' <;> simp [partsOf, ih, hc]

/-- One step along a path. -/
inductive Step where
  | up
  | into (name : String)
deriving DecidableEq, Repr

/-- The step that a part stands for, if it stands for one. -/
def Step.ofPart? (part : String) : Option Step :=
  if part = "" || part = "." then none
  else if part = ".." then some .up
  else some (.into part)

/-- The steps of a path. -/
def steps (path : Path) : List Step := path.parts.filterMap Step.ofPart?

/-- Whether the path starts at the root. -/
def isAbsolute (path : Path) : Bool := path.text.toList.head? = some '/'

/-- Whether the path ends in a slash. -/
def endsInSlash (path : Path) : Bool := path.text.toList.getLast? = some '/'

/-- The last part that is not empty. -/
def lastPart? (path : Path) : Option String := (path.parts.filter (· ≠ "")).getLast?

/-- Whether the path can only lead to a directory: it ends in a slash or in `.`. -/
def endsInDirectory (path : Path) : Bool := path.endsInSlash || path.lastPart? = some "."

/-- The name in the last place, when it is neither `.` nor `..`. -/
def lastName? (path : Path) : Option String :=
  path.lastPart?.filter fun part => part ≠ "." && part ≠ ".."

/-- The path of a name inside a directory. The empty path stands for the working directory. -/
def join (directory : Path) (name : String) : Path :=
  if directory.text = "" || directory.endsInSlash then ⟨directory.text ++ name⟩
  else ⟨directory.text ++ "/" ++ name⟩

/-! ## Ancestors -/

/-- The parts that remain when a path is read part by part: a leading `.` counts, later ones do
not. -/
def components (path : Path) : List String :=
  match path.parts with
  | [] => []
  | first :: others =>
    [first].filter (· ≠ "") ++ others.filter fun part => part ≠ "" && part ≠ "."

/-- The path with the given components. -/
def ofComponents (absolute : Bool) (components : List String) : Path :=
  ⟨(if absolute then "/" else "") ++ "/".intercalate components⟩

/-- The proper ancestors of a path, nearest first, without the empty path. -/
def ancestors (path : Path) : List Path :=
  let components := path.components
  let counts := (List.range components.length).reverse
  (counts.map fun n => ofComponents path.isAbsolute (components.take n)).filter (·.text ≠ "")

end Path

end CamStream
