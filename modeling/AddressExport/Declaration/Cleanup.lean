import AddressExport.Declaration.Basic

/-!
# Cleanup

Before functions are looked for, a tree is pruned of what must not be exported: what system headers
declare, `std` and reserved names, allocation functions, members that are not public, and
declarations that hold no functions.
-/

namespace AddressExport

/-- The beginnings of the paths of system headers, unless others are asked for. -/
def defaultSystemPrefixes : List String := ["/usr/"]

/-- The functions that allocate and free memory. -/
def allocationFunctions : List String := ["new", "delete", "new[]", "delete[]"]

/-- Whether a name is reserved for the implementation. -/
def isReserved (name : String) : Bool := Text.startsWith name "_"

namespace Declaration

/-- Whether a system header declares the node. -/
def isSystem (systemPrefixes : List String) (d : Declaration) : Bool :=
  d.file.any fun file => systemPrefixes.any fun start => Text.startsWith file start

/-- Whether the node is of a kind, or has a name, that is never exported. -/
def isExcluded (d : Declaration) : Bool :=
  let name := d.name?.getD ""
  if d.kind = "NamespaceDecl" then
    (d.detail matches .scope none _) || name = "std" || isReserved name
  else if d.kind = "FunctionDecl" then isReserved name || allocationFunctions.contains name
  else if d.kind = "EnumDecl" ∨ d.kind = "TypedefDecl" then true
  else if d.kind = "CXXRecordDecl" then !(d.detail matches .record _ _) || isReserved name
  else false

/-- Whether the node can stay. -/
def isKept (systemPrefixes : List String) (d : Declaration) : Bool :=
  !d.isExcluded && !d.isSystem systemPrefixes

/-- Whether the members of the node are public before the first access specifier. -/
def publicAtStart (d : Declaration) : Bool :=
  match d.detail with
  | .record tag _ => tag.publicAtStart
  | _ => true

/-- Whether members are public from this one on, if they were or were not before it. -/
def publicFrom (before : Bool) (d : Declaration) : Bool :=
  if d.kind = "AccessSpecDecl" then d.name? = some "public" else before

end Declaration

mutual

/-- The tree without what must not be exported, if the root itself can stay.  A linkage
specification stays only for what it holds. -/
def prune (systemPrefixes : List String) : Tree Declaration → Option (Tree Declaration)
  | .node d members =>
    if d.isKept systemPrefixes then
      let kept := pruneMembers systemPrefixes d.publicAtStart members
      if d.kind = "LinkageSpecDecl" ∧ kept.isEmpty then none else some (.node d kept)
    else none

/-- The public ones of some members, each pruned. -/
def pruneMembers (systemPrefixes : List String) (isPublic : Bool) :
    List (Tree Declaration) → List (Tree Declaration)
  | [] => []
  | t :: ts =>
    let isPublic := t.label.publicFrom isPublic
    let rest := pruneMembers systemPrefixes isPublic ts
    if isPublic then
      match prune systemPrefixes t with
      | some kept => kept :: rest
      | none => rest
    else rest

end

end AddressExport
