import AddressExport.Toml.Number

/-!
# Values

The values of a file of settings.  A table remembers how it was made, as that decides what may be
added to it later.
-/

namespace AddressExport.Toml

/-- How a table was made. -/
inductive Origin where
  /-- By a header for a table inside of it. -/
  | implied
  /-- By a header of its own. -/
  | stated
  /-- By a key with several parts. -/
  | dotted
  /-- In braces. -/
  | inBraces
  deriving DecidableEq, Repr

/-- A value. -/
inductive Value where
  | string (s : String)
  | boolean (b : Bool)
  /-- A number or a date, which no setting is. -/
  | other
  | array (values : List Value)
  | table (origin : Origin) (entries : List (String × Value))

/-- The keys of a table with their values. -/
abbrev Entries := List (String × Value)

namespace Entries

/-- Gives a key that is there another value. -/
def replace (entries : Entries) (key : String) (value : Value) : Entries :=
  entries.map fun e => if e.1 = key then (key, value) else e

/-- Adds a key, which must be new. -/
def add (entries : Entries) (key : String) (value : Value) : Option Entries :=
  match entries.lookup key with
  | some _ => none
  | none => some (entries ++ [(key, value)])

/-- Gives a key with several parts its value, in the tables that its parts name.  The tables are
made where they are missing; only those that keys have made can be added to. -/
def define (key : String) (value : Value) : List String → Entries → Option Entries
  | [], entries => entries.add key value
  | part :: parts, entries =>
    match entries.lookup part with
    | none => (define key value parts []).map fun inner => entries ++ [(part, .table .dotted inner)]
    | some (.table origin inner) =>
      if origin = .dotted ∨ (origin = .implied ∧ parts ≠ []) then
        (define key value parts inner).map fun inner => entries.replace part (.table origin inner)
      else none
    | some _ => none

/-- Changes the table that a path leads to.  Tables on the way are made where they are missing;
tables in braces cannot be entered. -/
def within (change : Entries → Option Entries) : List String → Entries → Option Entries
  | [], entries => change entries
  | part :: parts, entries =>
    match entries.lookup part with
    | none =>
      (within change parts []).map fun inner => entries ++ [(part, .table .implied inner)]
    | some (.table origin inner) =>
      if origin = .inBraces then none
      else (within change parts inner).map fun inner => entries.replace part (.table origin inner)
    | some _ => none

/-- Makes a table by its header.  Only a table that other headers have implied may be there. -/
def state (key : String) (entries : Entries) : Option Entries :=
  match entries.lookup key with
  | none => some (entries ++ [(key, .table .stated [])])
  | some (.table .implied inner) => some (entries.replace key (.table .stated inner))
  | some _ => none

end Entries

/-! ## Reading values -/

/-- Values parted by commas. -/
def separated {α : Type} (item between : Reader α) : Reader (List α) := do
  match ← Reader.optional item with
  | none => return []
  | some first => return first :: (← Reader.many between)

/-- An array.  A comma may follow the last value. -/
def array (value : Reader Value) : Reader Value := do
  Reader.exactly "["
  wideGap
  let item : Reader Value := do
    let v ← value
    wideGap
    return v
  let values ← separated item do
    Reader.exactly ","
    wideGap
    item
  if values.isEmpty then
    Reader.exactly "]"
  else
    let _ ← Reader.optional do
      Reader.exactly ","
      wideGap
    Reader.exactly "]"
  return .array values

/-- A key with its value. -/
def pair (value : Reader Value) : Reader ((List String × String) × Value) := do
  let path ← key
  Reader.exactly "="
  gap
  return (path, ← value)

/-- A table in braces, which stands on one line but for what its values hold. -/
def braces (value : Reader Value) : Reader Value := do
  Reader.exactly "\x7b"
  gap
  let item : Reader ((List String × String) × Value) := do
    let entry ← pair value
    gap
    return entry
  let pairs ← separated item do
    Reader.exactly ","
    item
  Reader.exactly "\x7d"
  match pairs.foldlM (fun (es : Entries) p => Entries.define p.1.2 p.2 p.1.1 es) [] with
  | some entries => return .table .inBraces entries
  | none => Reader.refuse

/-- A value that holds no others. -/
def simpleValue : Reader Value :=
  (do return .string (← text) : Reader Value).or <|
    (do Reader.exactly "true"; return .boolean true : Reader Value).or <|
      (do Reader.exactly "false"; return .boolean false : Reader Value).or do
        numberOrDate
        return .other

/-- A value that may hold others, which are read by `inner`. -/
def anyValue (inner : Reader Value) : Reader Value :=
  (array inner).or ((braces inner).or simpleValue)

/-- A value in which arrays and tables are nested up to `depth` times. -/
def value : Nat → Reader Value
  | 0 => simpleValue
  | depth + 1 => anyValue (value depth)

/-- How deep arrays and tables can be nested. -/
def deepest : Nat := 79

end AddressExport.Toml
