import AddressExport.Journal
import AddressExport.Text.Blank
import AddressExport.Text.Pieces

/-!
# Parts of a signature

The signature of a function is written `result (parameters) trailing`, as in
`int (char, double) noexcept`.  The last closing parenthesis ends the parameter list, and the
parenthesis that opens it is found by counting backwards.  Parameters are parted by the commas that
no bracket of the list encloses.
-/

namespace AddressExport

/-- What can be wrong with a signature. -/
inductive SignatureError where
  /-- The text is not that of a function type. -/
  | malformed (signature : String)
  /-- A type in the signature cannot be written in the generated Python module. -/
  | unsupportedType (type signature : String)
  deriving DecidableEq, Repr

namespace SignatureError

/-- What the user is told. -/
def diagnostic : SignatureError → Diagnostic
  | malformed signature =>
    { code := "CODEGEN-001"
      message := s!"Cannot split signature `{signature}` into return and parameter types"
      help := none }
  | unsupportedType type signature =>
    { code := "CODEGEN-002"
      message := s!"Type `{type}` in `{signature}` has no ctypes equivalent"
      help := some ("Only scalar, fixed-width integer and pointer types can be declared on the " ++
        "Python side") }

/-- The sentence of a failure. -/
def message (e : SignatureError) : String := e.diagnostic.message

end SignatureError

/-- The parts of a signature. -/
structure Signature where
  /-- The type of the result. -/
  result : String
  parameters : List String
  /-- What follows the parameter list, such as `noexcept`. -/
  trailing : String
  deriving DecidableEq, Repr

/-! ## The parameter list -/

/-- Cuts a text that is read backwards at the parenthesis that opens the list it began inside of.
`inner` lists are open in that one. -/
def splitAtOpening? (inner : Nat) : List Char → Option (List Char × List Char)
  | [] => none
  | '(' :: r =>
    match inner with
    | 0 => some ([], r)
    | n + 1 => (splitAtOpening? n r).map fun (list, front) => ('(' :: list, front)
  | c :: r =>
    (splitAtOpening? (if c = ')' then inner + 1 else inner) r).map
      fun (list, front) => (c :: list, front)

/-- How much deeper or less deep the brackets are nested behind a character. -/
def nesting (c : Char) : Int :=
  if c = '(' ∨ c = '<' ∨ c = '[' then 1
  else if c = ')' ∨ c = '>' ∨ c = ']' then -1
  else 0

/-- The pieces of a list between the commas at which its brackets are closed, `depth` of them being
open at the start. -/
def splitParameters (depth : Int) : List Char → List (List Char)
  | [] => [[]]
  | c :: r =>
    if c = ',' ∧ depth = 0 then [] :: splitParameters depth r
    else
      match splitParameters (depth + nesting c) r with
      | p :: ps => (c :: p) :: ps
      | [] => [[c]]

/-- The parameters in the text between the parentheses. -/
def parametersOf (list : List Char) : List String :=
  let inner := Text.trimBlanks list
  if inner = [] ∨ inner = "void".toList then []
  else (splitParameters 0 inner).map fun p => String.ofList (Text.trimBlanks p)

namespace Signature

/-- The parts of a signature, if it has a parameter list and a result in front of it. -/
def ofText? (signature : String) : Option Signature :=
  match Text.splitFirst? (· == ')') signature.toList.reverse with
  | some (trailing, front) =>
    match splitAtOpening? 0 front with
    | some (list, result) =>
      let result := Text.trimBlanks result.reverse
      if result = [] then none
      else
        some ⟨String.ofList result, parametersOf list.reverse,
          String.ofList (Text.trimBlanks trailing.reverse)⟩
    | none => none
  | none => none

/-- The parts of a signature. -/
def ofText (signature : String) : Except SignatureError Signature :=
  match ofText? signature with
  | some s => .ok s
  | none => .error (.malformed signature)

/-- The type of a pointer to a function with this signature. -/
def pointerType (s : Signature) : String :=
  s.result ++ " (*)(" ++ ", ".intercalate s.parameters ++ ")" ++
    if s.trailing = "" then "" else " " ++ s.trailing

end Signature

/-- The type of a pointer to a function with the given signature. -/
def pointerType (signature : String) : Except SignatureError String :=
  (Signature.ofText signature).map Signature.pointerType

end AddressExport
