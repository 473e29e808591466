import CamStream.KeyedList
import CamStream.Toml.Number

/-!
# Values of a TOML document

A document is a table of values. How a table came about decides what may still be added to it, so
every table remembers it.
-/

namespace CamStream.Toml

/-- How a table came about. -/
inductive Origin where
  /-- On the way to another table, by a header. -/
  | implied
  /-- On the way to a value, by a dotted key. -/
  | dotted
  /-- By a header of its own, or as the document itself. -/
  | declared
  /-- Between braces: nothing can be added to it. -/
  | inline
deriving DecidableEq, Repr

mutual

/-- A value. -/
inductive Value where
  | text (text : String)
  | number (number : Number)
  | boolean (value : Bool)
  | dateTime
  | array (items : List Value)
  /-- Tables that headers in double brackets have added one by one. -/
  | rows (rows : List Table)
  | table (table : Table)

/-- A table: keys with their values. -/
inductive Table where
  | mk (origin : Origin) (entries : List (String × Value))

end

namespace Table

/-- How the table came about. -/
def origin : Table → Origin
  | mk origin _ => origin

/-- The keys of a table with their values. -/
def entries : Table → List (String × Value)
  | mk _ entries => entries

/-- A table without keys. -/
def empty (origin : Origin) : Table := mk origin []

instance : Inhabited Table := ⟨empty .declared⟩

/-- The table with another origin. -/
def withOrigin (table : Table) (origin : Origin) : Table := mk origin table.entries

/-- The value of a key. -/
def get? (table : Table) (key : String) : Option Value :=
  KeyedList.get? table.entries key

/-- The table with another value for a key. -/
def set (table : Table) (key : String) (value : Value) : Table :=
  mk table.origin (KeyedList.put table.entries key value)

/-- Whether dotted keys may add to the table. -/
def isOpenToDottedKeys (table : Table) : Bool :=
  table.origin = .implied || table.origin = .dotted

/-- Change the table that a path of keys leads to. Tables that are missing on the way are made. An
array of tables leads to its last table. A dotted key cannot go through a table that a header
declared, and nothing can go through a table between braces. -/
def update (dotted : Bool) (change : Table → Option Table) : List String → Table → Option Table
  | [], table => change table
  | key :: path, table =>
    match table.get? key with
    | none => do
      let child ← update dotted change path (empty (if dotted then .dotted else .implied))
      return table.set key (.table child)
    | some (.table child) => do
      if child.origin = .inline || (dotted && !child.isOpenToDottedKeys) then none
      let child ← update dotted change path child
      return table.set key (.table child)
    | some (.rows rows) => do
      let last ← rows.getLast?
      let last ← update dotted change path last
      return table.set key (.rows (rows.dropLast ++ [last]))
    | some _ => none

/-- Add a value under a dotted key. No key is given twice, and a table that a header named on the
way is not added to by dotted keys. -/
def insert (table : Table) (path : List String) (key : String) (value : Value) : Option Table :=
  let add (parent : Table) : Option Table :=
    let fits := decide (parent.origin = .dotted) == !path.isEmpty
    if fits && (parent.get? key).isNone then some (parent.set key value) else none
  table.update (!path.isEmpty) add path

end Table

/-! ## Values that can be passed over -/

mutual

/-- Whether a value can be read at all, so that it can be passed over. -/
def Value.isReadable : Value → Bool
  | .text _ | .boolean _ | .dateTime => true
  | .number number => number.isReadable
  | .array items => allReadable items
  | .rows rows => rowsReadable rows
  | .table table => table.isReadable

/-- Whether every value of a list can be read. -/
def allReadable : List Value → Bool
  | [] => true
  | item :: items => item.isReadable && allReadable items

/-- Whether every table of a list can be read. -/
def rowsReadable : List Table → Bool
  | [] => true
  | row :: rows => row.isReadable && rowsReadable rows

/-- Whether every value of a table can be read. -/
def Table.isReadable : Table → Bool
  | .mk _ entries => entriesReadable entries

/-- Whether every value among the entries of a table can be read. -/
def entriesReadable : List (String × Value) → Bool
  | [] => true
  | (_, value) :: entries => value.isReadable && entriesReadable entries

end

end CamStream.Toml
