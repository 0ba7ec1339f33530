import AddressExport.Journal
import AddressExport.Name.Accessor
import AddressExport.Repeat

/-!
# Targets and their bindings

A target is a function whose address is to be exported.  `assign` gives every target of a list a
symbol and an accessor.  Targets that share their name are overloads of each other, and all of them
get a tag; a name that stands alone gets none.
-/

namespace AddressExport

/-- What kind of function a target is. -/
inductive TargetKind where
  /-- A free function, possibly in a namespace. -/
  | function
  /-- A static member function of a class. -/
  | staticMethod
  deriving DecidableEq, Repr

/-- A function whose address is to be exported. -/
structure Target where
  name : QualifiedName
  /-- The declared type, such as `double (double)`. -/
  signature : String
  kind : TargetKind
  deriving DecidableEq

/-- A target with the names it is exported under. -/
structure Binding where
  target : Target
  /-- The mangled name, with a tag if the target is an overload. -/
  symbol : String
  accessor : String
  deriving DecidableEq

namespace Target

/-- The target as it is named in a failure. -/
def describe (t : Target) : String := s!"{t.name.path} `{t.signature}`"

/-- What makes two targets one: the name, and the spelling of the signature that counts. -/
def identity (t : Target) : QualifiedName × String := (t.name, normalizeSignature t.signature)

end Target

namespace Binding

/-- Whether the symbol has a tag. -/
def isOverload (b : Binding) : Bool := Text.contains "___".toList b.symbol.toList

end Binding

/-! ## Assignment -/

/-- Whether several of the targets have the name.  In a list in which no target comes twice, their
signatures are different. -/
def isOverloaded (targets : List Target) (n : QualifiedName) : Bool :=
  1 < targets.countP fun t => t.name = n

/-- The symbol of one of the targets. -/
def symbolAmong (targets : List Target) (t : Target) : Except NameError String :=
  if isOverloaded targets t.name then taggedSymbol t.name t.signature else t.name.mangle

/-- The binding of one of the targets. -/
def bindAmong (targets : List Target) (t : Target) : Except NameError Binding :=
  (symbolAmong targets t).map fun symbol => ⟨t, symbol, accessorOfSymbol symbol⟩

/-- Refuses a list in which one target comes twice. -/
def checkDistinct (targets : List Target) : Except NameError Unit :=
  match firstRepeat? Target.identity targets with
  | some (_, t) => .error (.duplicateTarget t.name.path (normalizeSignature t.signature))
  | none => .ok ()

/-- Refuses bindings of which two have one accessor. -/
def checkUnique (bindings : List Binding) : Except NameError Unit :=
  match firstRepeat? Binding.accessor bindings with
  | some (a, b) => .error (.collision b.accessor a.target.describe b.target.describe)
  | none => .ok ()

/-- The bindings of the targets, in their order. -/
def assign (targets : List Target) : Except NameError (List Binding) := do
  checkDistinct targets
  let bindings ← targets.mapM (bindAmong targets)
  checkUnique bindings
  return bindings

/-- What there is to note about an assignment: which targets got a tag. -/
def assignNotes (targets : List Target) : List Entry :=
  match checkDistinct targets with
  | .error _ => []
  | .ok () =>
    targets.filterMap fun t =>
      if isOverloaded targets t.name then
        (taggedSymbol t.name t.signature).toOption.map fun symbol =>
          ⟨.debug, s!"`{t.name.path}` is overloaded, tagging `{t.signature}` as `{symbol}`"⟩
      else none

/-! ## Leaving out what cannot be named -/

/-- The failure of a target whose name cannot be exported. -/
def Target.nameError? (t : Target) : Option NameError :=
  match t.name.mangle with
  | .error e => some e
  | .ok _ => none

/-- The targets whose names can be exported.  A strict run fails instead if some cannot, with the
failure of each of them. -/
def keepNameable (strict : Bool) (targets : List Target) : Except (List NameError) (List Target) :=
  let errors := targets.filterMap Target.nameError?
  if strict && !errors.isEmpty then .error errors
  else .ok (targets.filter fun t => t.nameError?.isNone)

/-- What there is to note about the targets that are left out. -/
def keepNameableNotes (targets : List Target) : List Entry :=
  targets.filterMap fun t =>
    t.nameError?.map fun e => ⟨.warn, s!"Skipping `{t.name.path}`: {e.message}"⟩

end AddressExport
