import AddressExport.Toml.Value

/-!
# Documents

A document is a list of lines, each of which is blank, has a key with its value, or is the header of
the table that the keys below it belong to.  Arrays of tables are refused, as no setting is one.
-/

namespace AddressExport.Toml

/-- What a line says. -/
inductive Statement where
  /-- The keys below belong to a table, given by the tables around it and its own key. -/
  | header (around : List String) (key : String)
  /-- A key of the table has a value. -/
  | assign (tables : List String) (key : String) (value : Value)

/-- A header. -/
def header : Reader Statement := do
  Reader.exactly "["
  let path ← key
  Reader.exactly "]"
  return .header path.1 path.2

/-- A key with its value. -/
def assignment : Reader Statement := do
  let (path, v) ← pair (value deepest)
  return .assign path.1 path.2 v

/-- The content of a line. -/
def content : Reader (Option Statement) := do
  gap
  let statement ← Reader.optional (header.or assignment)
  gap
  let _ ← Reader.optional comment
  return statement

/-- The lines of a document.  The last one need not be ended. -/
def statements : Reader (List Statement) := do
  let _ ← Reader.optional (Reader.exactly "\ufeff")
  let ended ← Reader.many do
    let statement ← content
    lineEnd
    return statement
  let last ← content
  return (ended ++ [last]).filterMap id

/-- A document while it is read: the table that keys belong to, and all entries so far. -/
structure Draft where
  table : List String
  entries : Entries

namespace Draft

/-- Takes a statement in, unless it contradicts an earlier one. -/
def add (d : Draft) : Statement → Option Draft
  | .header around key =>
    (Entries.within (Entries.state key) around d.entries).map fun entries =>
      ⟨around ++ [key], entries⟩
  | .assign tables key v =>
    (Entries.within (Entries.define key v tables) d.table d.entries).map fun entries =>
      ⟨d.table, entries⟩

end Draft

/-- The entries of a document. -/
def read? (document : String) : Option Entries := do
  let lines ← statements.whole document
  let draft ← lines.foldlM Draft.add ⟨[], []⟩
  return draft.entries

end AddressExport.Toml
