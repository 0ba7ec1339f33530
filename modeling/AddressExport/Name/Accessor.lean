import AddressExport.Hash.Word
import AddressExport.Name.Qualified

/-!
# Accessor names

A function is exported through an accessor, a function without parameters that returns the
function's address.  The name of the accessor is derived from the name of the function:

| name | accessor |
|---|---|
| `foo` | `get_foo_address` |
| `ns::ns2::bar` | `get_ns__ns2__bar_address` |
| one `f` of several | `get_f___` and a tag of sixteen hexadecimal digits, `_address` |

A segment is *name-safe* if it is an identifier that starts with a letter, contains no `__` and does
not end with `_`.  Only names of such segments are exported, and for them the derivation can be
undone: `decode` gives back the name, and the tag if there is one.
-/

namespace AddressExport

/-! ## Segments -/

/-- Whether a segment can be joined to others by `__` without ambiguity. -/
def isNameSafe (segment : String) : Bool :=
  match segment.toList with
  | [] => false
  | c :: r =>
    c.isAlpha && r.all (fun d => d.isAlphanum || d == '_') &&
      !Text.contains ['_', '_'] (c :: r) && (c :: r).getLast? != some '_'

/-- Refuses a segment that is not name-safe. -/
def validateSegment (segment : String) : Except NameError Unit :=
  if isNameSafe segment then .ok () else .error (.invalidSegment segment segment)

/-! ## Tags -/

/-- The spelling of a signature that counts: its words, each parted from the next by one space. -/
def normalizeSignature (signature : String) : String := Text.respace signature

/-- The tag that tells overloads of one name apart: the hash of the signature that counts. -/
def overloadTag (signature : String) : String :=
  String.ofList (Hash.hexadecimal (Hash.hash (normalizeSignature signature).toUTF8.data.toList))

/-- Whether a text can be a tag. -/
def isTag (text : List Char) : Bool := text.length == 16 && text.all Hash.isDigit

/-! ## Derivation -/

namespace QualifiedName

/-- The segments joined by `__`.  The first segment that is not name-safe is refused. -/
def mangle (n : QualifiedName) : Except NameError String :=
  match n.segments.find? fun s => !isNameSafe s with
  | some segment => .error (.invalidSegment segment n.path)
  | none => .ok ("__".intercalate n.segments)

end QualifiedName

/-- The accessor of a symbol. -/
def accessorOfSymbol (symbol : String) : String := "get_" ++ symbol ++ "_address"

/-- The accessor of a name that is not overloaded. -/
def accessorOfName (n : QualifiedName) : Except NameError String :=
  n.mangle.map accessorOfSymbol

/-- The symbol of one of several functions of a name. -/
def taggedSymbol (n : QualifiedName) (signature : String) : Except NameError String :=
  n.mangle.map fun symbol => symbol ++ "___" ++ overloadTag signature

/-! ## Decoding -/

/-- The symbol that an accessor name holds. -/
def accessorBody? (accessor : List Char) : Option (List Char) :=
  (Text.afterStart? "get_".toList accessor).bind (Text.beforeEnd? "_address".toList)

/-- Parts a symbol from its tag, if there is one behind the last `___`. -/
def splitTag? (symbol : List Char) : Option (List Char × Option (List Char)) :=
  match Text.splitLast? "___".toList symbol with
  | some (plain, tag) => if isTag tag then some (plain, some tag) else none
  | none => some (symbol, none)

/-- The name of a symbol without tag. -/
def nameOfSymbol? (symbol : List Char) : Option QualifiedName :=
  let segments := (Text.splitTwice '_' symbol).map String.ofList
  if segments.all isNameSafe then QualifiedName.ofSegments? segments else none

/-- The name that an accessor was derived from, and its tag. -/
def decode? (accessor : String) : Option (QualifiedName × Option String) := do
  let body ← accessorBody? accessor.toList
  let (symbol, tag) ← splitTag? body
  let name ← nameOfSymbol? symbol
  return (name, tag.map String.ofList)

/-- The name that an accessor was derived from, and its tag. -/
def decodeAccessor (accessor : String) : Except NameError (QualifiedName × Option String) :=
  match decode? accessor with
  | some decoded => .ok decoded
  | none => .error (.malformedAccessor accessor)

end AddressExport
