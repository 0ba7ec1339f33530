import AddressExport.Declaration.Exported

/-!
# The search for functions, step by step

`targets` lists the functions of a tree by what stands around each.  The same list can be made in
one walk over the tree that remembers only the names of the scopes it is in: it adds a name on the
way into a scope and takes it off again on the way out.
-/

namespace AddressExport

/-- A walk that looks for functions: the names of the scopes that it is in, the outermost first, and
what it has found and noted so far. -/
structure Search where
  scope : List String := []
  functions : List Target := []
  methods : List Target := []
  journal : List Entry := []

namespace Search

/-- Goes into a scope. -/
def enter (s : Search) (name : String) : Search := { s with scope := s.scope ++ [name] }

/-- Goes back out of the scope that was entered last. -/
def leave (s : Search) : Search := { s with scope := s.scope.dropLast }

/-- Takes a function that is declared in the current scope.  One with an empty segment is left
out. -/
def add (s : Search) (name signature : String) (kind : TargetKind) : Search :=
  match QualifiedName.ofSegments (s.scope ++ [name]), kind with
  | .ok n, .function => { s with functions := s.functions ++ [⟨n, signature, .function⟩] }
  | .ok n, .staticMethod => { s with methods := s.methods ++ [⟨n, signature, .staticMethod⟩] }
  | .error e, _ =>
    { s with journal := s.journal ++ [⟨.warn, s!"Skipping declaration `{name}`: {e.message}"⟩] }

mutual

/-- Walks over a tree that lies right in a record or not. -/
def visit (s : Search) (inRecord : Bool) : Tree Declaration → Search
  | .node d members =>
    match d.role with
    | .closed => s
    | .scope name isRecord => ((s.enter name).visitAll isRecord members).leave
    | .function name signature trailing =>
      if isDeleted trailing then s else s.add name signature .function
    | .method name signature trailing =>
      if !inRecord || !isStatic trailing || isDeleted trailing then s
      else s.add name signature .staticMethod
    | .transparent => s.visitAll false members

/-- Walks over trees that stand side by side. -/
def visitAll (s : Search) (inRecord : Bool) : List (Tree Declaration) → Search
  | [] => s
  | t :: ts => (s.visit inRecord t).visitAll inRecord ts

end

/-- The walk over a whole tree. -/
def run (t : Tree Declaration) : Search := visit {} false t

/-- What has been found, the free functions first. -/
def found (s : Search) : List Target := s.functions ++ s.methods

end Search

end AddressExport
