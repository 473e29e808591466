import CamStream.Toml.Line

/-!
# TOML documents

A header opens a section; the keys on the lines below it are gathered in the section, which goes
into the document when the next header closes it. No table is declared twice and no key is given
twice.
-/

namespace CamStream.Toml

/-- What a header opened. -/
structure Section where
  key : Key
  /-- Whether the section is one more table of an array. -/
  isRow : Bool
  table : Table

/-- A document while its lines are read. -/
structure Document where
  root : Table := .empty .declared
  current : Option Section := none

namespace Document

/-- The table that a path of keys leads to; an array of tables leads to its last one. -/
def follow? : List String → Table → Option Table
  | [], table => some table
  | name :: path, table =>
    match table.get? name with
    | some (.table child) => follow? path child
    | some (.rows rows) => rows.getLast?.bind (follow? path)
    | _ => none

/-- Put a section into the table that holds it. -/
def keep (closed : Section) (parent : Table) : Option Table :=
  let name := closed.key.name
  if closed.isRow then
    match parent.get? name with
    | none => some (parent.set name (.rows [closed.table]))
    | some (.rows rows) => some (parent.set name (.rows (rows ++ [closed.table])))
    | some _ => none
  else some (parent.set name (.table closed.table))

/-- The document with its open section put in. -/
def close (document : Document) : Option Table :=
  match document.current with
  | none => some document.root
  | some closed => document.root.update false (keep closed) closed.key.path

/-- The table to go on with below a header: a new one, or one that other headers implied. -/
def tableBelow? (root : Table) (key : Key) : Option Table :=
  match (follow? key.path root).bind (·.get? key.name) with
  | none => some (.empty .declared)
  | some (.table table) =>
    if table.origin = .implied then some (table.withOrigin .declared) else none
  | some _ => none

/-- The document after one more line. -/
def add (document : Document) : Line → Option Document
  | .table key => do
    let root ← document.close
    let table ← tableBelow? root key
    return { root, current := some { key, isRow := false, table } }
  | .row key => do
    let root ← document.close
    return { root, current := some { key, isRow := true, table := .empty .declared } }
  | .pair key value =>
    match document.current with
    | none => do return { document with root := ← document.root.insert key.path key.name value }
    | some opened => do
      let table ← opened.table.insert key.path key.name value
      return { document with current := some { opened with table } }

/-- The table that a text describes, if it is a TOML document. -/
def parse? (text : String) : Option Table := do
  let lines ← Reader.readAll lines text.toList
  let document ← lines.foldlM add {}
  document.close

end Document

end CamStream.Toml
