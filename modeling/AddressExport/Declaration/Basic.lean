import AddressExport.Text.Lines
import AddressExport.Text.Pieces
import AddressExport.Tree

/-!
# Declarations

A compiler lists what a header declares as a tree of nodes.  Of each node are known its kind, a
detail (the part of it that matters here, which depends on the kind) and the file in which it
starts.  Only nodes whose kind ends in `Decl` are declarations; the others are statements, types,
comments and the like.
-/

namespace AddressExport

/-- The keyword that a record is defined with. -/
inductive RecordTag where
  | classTag
  | structTag
  | unionTag
  deriving DecidableEq, Repr

namespace RecordTag

/-- The keyword itself. -/
def keyword : RecordTag → String
  | .classTag => "class"
  | .structTag => "struct"
  | .unionTag => "union"

/-- The tag that a word is the keyword of. -/
def ofKeyword? (word : String) : Option RecordTag :=
  [classTag, structTag, unionTag].find? fun tag => tag.keyword = word

/-- Whether members are public before the first access specifier. -/
def publicAtStart : RecordTag → Bool
  | .classTag => false
  | _ => true

end RecordTag

/-- What is known of a node besides its kind. -/
inductive Detail where
  /-- The root of a dump has no detail. -/
  | translationUnit
  /-- A namespace, which may have no name. -/
  | scope (name : Option String) (isInline : Bool)
  /-- A node of which only one word matters. -/
  | word (name : String)
  /-- A name with its declared type, and what is said behind the type. -/
  | typed (name signature trailing : String)
  /-- The definition of a class, a struct or a union. -/
  | record (tag : RecordTag) (name : String)
  /-- A declaration of which nothing is kept. -/
  | omitted
  /-- The text of any other node. -/
  | verbatim (text : String)
  deriving DecidableEq, Repr

namespace Detail

/-- The name that is declared. -/
def name? : Detail → Option String
  | scope name _ => name
  | word name => some name
  | typed name _ _ => some name
  | record _ name => some name
  | _ => none

/-- The detail as it is shown in a listing. -/
def text : Detail → String
  | translationUnit => ""
  | scope name isInline => name.getD "(anonymous)" ++ if isInline then " inline" else ""
  | word name => name
  | typed name signature trailing =>
    name ++ " '" ++ signature ++ "'" ++ if trailing = "" then "" else " " ++ trailing
  | record tag name => tag.keyword ++ " " ++ name
  | omitted => "..."
  | verbatim text => text

end Detail

/-- A node of the tree that a compiler lists. -/
structure Declaration where
  kind : String
  detail : Detail
  /-- The file in which the node starts, if one has been mentioned so far. -/
  file : Option String
  deriving DecidableEq, Repr

/-- Whether nodes of a kind are declarations. -/
def isDeclarationKind (kind : String) : Bool := Text.endsWith kind "Decl"

namespace Declaration

/-- The name that is declared. -/
def name? (d : Declaration) : Option String := d.detail.name?

/-- Whether the node is a declaration. -/
def isDeclaration (d : Declaration) : Bool := isDeclarationKind d.kind

/-- The line of a node at some depth in a listing. -/
def line (row : Nat × Declaration) : String :=
  String.ofList (List.replicate (2 * row.1) ' ') ++ row.2.kind ++ ":" ++ row.2.detail.text

end Declaration

/-- The listing of a tree: a line for the root and for every declaration that is reached through
declarations, indented by two spaces for each level. -/
def listing (t : Tree Declaration) : String :=
  Text.unlines ((t.restrict Declaration.isDeclaration).rows.map Declaration.line)

end AddressExport
