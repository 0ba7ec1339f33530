import AddressExport.Declaration.Basic
import AddressExport.Journal
import AddressExport.Text.Blank

/-!
# Reading details

Behind the kind of a node a dump has its address, its place in the file and then what it declares.
The kind decides how this text is read.  A declared name is always the last word before something
that is easy to find (the end, the word `inline`, the quoted type), so the words in front of it
are not looked at.
-/

namespace AddressExport

/-- The kinds whose text ends in a quoted type, with the name in front of it. -/
def typedKinds : List String :=
  ["TypedefDecl", "CXXMethodDecl", "CXXConstructorDecl", "CXXDestructorDecl", "ParmVarDecl",
    "TypeAliasDecl", "EnumConstantDecl", "FunctionDecl", "VarDecl", "FieldDecl",
    "IndirectFieldDecl", "UnresolvedUsingValueDecl"]

/-- The kinds of declarations of which nothing is kept. -/
def omittedKinds : List String :=
  ["UsingShadowDecl", "CXXConversionDecl", "NonTypeTemplateParmDecl", "UsingDirectiveDecl",
    "FriendDecl", "EnumDecl", "ClassTemplateDecl", "TemplateTypeParmDecl",
    "ClassTemplateSpecializationDecl", "TypeAliasTemplateDecl", "FunctionTemplateDecl", "UsingDecl",
    "ClassTemplatePartialSpecializationDecl", "TemplateTemplateParmDecl", "StaticAssertDecl",
    "VarTemplateDecl"]

/-- Whether a word is a name, and not a part of an address, a place or a range. -/
def isNameWord (word : String) : Bool :=
  !word.toList.contains ':' && !Text.startsWith word "<" && !Text.startsWith word "0x"

/-- The last of some words, if it is a name. -/
def lastName? (words : List String) : Option String :=
  words.getLast?.filter isNameWord

namespace Detail

/-- Reads a namespace: its name, if it has one, and behind it the word `inline`, if it is. -/
def ofScope (text : String) : Detail :=
  let words := Text.words text
  if words.getLast? = some "inline" then scope (lastName? words.dropLast) true
  else scope (lastName? words) false

/-- Reads a record.  Only a definition has the word `definition` at the end; its name is what
stands between that word and the first keyword. -/
def ofRecord (text : String) : Detail :=
  let words := Text.words text
  if words.getLast? = some "definition" then
    match words.dropWhile fun w => (RecordTag.ofKeyword? w).isNone with
    | first :: second :: rest =>
      match RecordTag.ofKeyword? first, rest with
      | some tag, _ :: _ => record tag (" ".intercalate (second :: rest).dropLast)
      | _, _ => omitted
    | _ => omitted
  else omitted

/-- Reads a name with a quoted type.  Of several quoted texts the first is the type; what follows
the last quote is the trailing text. -/
def ofTyped? (text : String) : Option Detail :=
  match Text.splitAll (· == '\'') text.toList with
  | front :: signature :: rest =>
    rest.getLast?.map fun trailing =>
      typed ((lastName? (Text.words (String.ofList front))).getD "") (String.ofList signature)
        (String.ofList (Text.trimBlanks trailing))
  | _ => none

/-- The detail of a node of the given kind. -/
def ofText (kind text : String) : Detail :=
  if kind = "TranslationUnitDecl" then translationUnit
  else if kind = "NamespaceDecl" then ofScope text
  else if kind = "AccessSpecDecl" ∨ kind = "LinkageSpecDecl" then
    word ((Text.words text).getLast?.getD "")
  else if kind = "CXXRecordDecl" then ofRecord text
  else if kind ∈ typedKinds then (ofTyped? text).getD (verbatim text)
  else if kind ∈ omittedKinds then omitted
  else verbatim text

/-- What there is to note about a node: that it is a declaration, and its text was kept because
nothing could be read from it. -/
def notes (kind text : String) : List Entry :=
  match ofText kind text with
  | verbatim _ =>
    if kind ∈ typedKinds then [⟨.debug, s!"{kind} without a quoted type: {text}"⟩]
    else if isDeclarationKind kind then
      [⟨.debug, s!"Uninterpreted declaration kind {kind}: {text}"⟩]
    else []
  | _ => []

end Detail

end AddressExport
