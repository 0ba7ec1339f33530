import AddressExport.Declaration.Cleanup
import AddressExport.Dump.Basic
import AddressExport.Name.Binding

/-!
# Exported functions

The functions whose addresses are exported are the free functions of a tree, in namespaces or not,
and the static member functions of its records.  `targets` lists the free functions first.  What is
deleted has no address, and what is inside a template or a friend declaration is not looked at.
-/

namespace AddressExport

/-- A function that a tree declares, with the names of the scopes around it and its own, which comes
last. -/
structure Candidate where
  segments : List String
  signature : String
  kind : TargetKind
  deriving DecidableEq, Repr

namespace Candidate

/-- The function's own name. -/
def name (c : Candidate) : String := c.segments.getLast?.getD ""

/-- The target, if there is no empty name among the segments. -/
def target? (c : Candidate) : Option Target :=
  (QualifiedName.ofSegments? c.segments).map fun name => ⟨name, c.signature, c.kind⟩

/-- What there is to note about a candidate: that it is left out. -/
def note? (c : Candidate) : Option Entry :=
  match QualifiedName.ofSegments c.segments with
  | .ok _ => none
  | .error e => some ⟨.warn, s!"Skipping declaration `{c.name}`: {e.message}"⟩

end Candidate

namespace Declaration

/-- The kinds of nodes that are not looked into. -/
def closedKinds : List String :=
  ["FunctionTemplateDecl", "ClassTemplateDecl", "ClassTemplatePartialSpecializationDecl",
    "FriendDecl"]

/-- What a node means to the search for functions. -/
inductive Role where
  /-- Nothing in it counts. -/
  | closed
  /-- A scope that adds its name to those of its members. -/
  | scope (name : String) (isRecord : Bool)
  /-- A function with its signature and what is said behind it. -/
  | function (name signature trailing : String)
  /-- A member function. -/
  | method (name signature trailing : String)
  /-- Only its members count. -/
  | transparent
  deriving DecidableEq, Repr

/-- The role of a node. -/
def role (d : Declaration) : Role :=
  if d.kind ∈ closedKinds then .closed
  else
    match d.detail with
    | .scope (some name) _ => if d.kind = "NamespaceDecl" then .scope name false else .transparent
    | .record _ name => if d.kind = "CXXRecordDecl" then .scope name true else .transparent
    | .typed name signature trailing =>
      if d.kind = "FunctionDecl" then .function name signature trailing
      else if d.kind = "CXXMethodDecl" then .method name signature trailing
      else .transparent
    | _ => .transparent

end Declaration

/-- Whether the text behind a signature says that the function is deleted. -/
def isDeleted (trailing : String) : Bool := Text.hasWord trailing "delete"

/-- Whether the text behind a signature says that the member function is static. -/
def isStatic (trailing : String) : Bool := Text.hasWord trailing "static"

mutual

/-- The functions of a tree in preorder.  The tree lies in the given scope, and right in a record or
not. -/
def candidatesIn (scope : List String) (inRecord : Bool) : Tree Declaration → List Candidate
  | .node d members =>
    match d.role with
    | .closed => []
    | .scope name isRecord => candidatesInAll (scope ++ [name]) isRecord members
    | .function name signature trailing =>
      if isDeleted trailing then [] else [⟨scope ++ [name], signature, .function⟩]
    | .method name signature trailing =>
      if inRecord && isStatic trailing && !isDeleted trailing then
        [⟨scope ++ [name], signature, .staticMethod⟩]
      else []
    | .transparent => candidatesInAll scope false members

/-- The functions of trees that stand side by side. -/
def candidatesInAll (scope : List String) (inRecord : Bool) :
    List (Tree Declaration) → List Candidate
  | [] => []
  | t :: ts => candidatesIn scope inRecord t ++ candidatesInAll scope inRecord ts

end

/-- The functions of a tree in preorder. -/
def candidates (t : Tree Declaration) : List Candidate := candidatesIn [] false t

/-- The functions of a tree to export: free functions, then member functions. -/
def targets (t : Tree Declaration) : List Target :=
  let found := (candidates t).filterMap Candidate.target?
  found.filter (·.kind = .function) ++ found.filter (·.kind = .staticMethod)

/-- What there is to note about the functions of a tree. -/
def targetsNotes (t : Tree Declaration) : List Entry :=
  (candidates t).filterMap Candidate.note?

/-! ## From a dump -/

/-- What is found in a dump: the tree that is left after cleanup, if any, and its functions. -/
structure Discovery where
  tree : Option (Tree Declaration)
  targets : List Target

/-- Reads a dump, prunes its tree and lists the functions. -/
def discover (systemPrefixes : List String) (dump : String) : Except DumpError Discovery :=
  (Dump.read dump).map fun t =>
    let kept := prune systemPrefixes t
    ⟨kept, (kept.map targets).getD []⟩

/-- What there is to note about a dump and its functions. -/
def discoverNotes (systemPrefixes : List String) (dump : String) : List Entry :=
  Dump.readNotes dump ++
    match Dump.read dump with
    | .error _ => []
    | .ok t =>
      let kept := prune systemPrefixes t
      [⟨.debug, s!"Parsed AST dump with {t.size} nodes"⟩] ++
        ((kept.map targetsNotes).getD []) ++
        [⟨.info, s!"Found {((kept.map targets).getD []).length} exportable functions"⟩]

end AddressExport
