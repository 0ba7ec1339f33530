import AddressExport.Declaration.Detail
import AddressExport.Journal
import AddressExport.Dump.Location
import AddressExport.Dump.Row

/-!
# Reading dumps

`Dump.read` turns the text of a dump into the tree that it draws.  Its rows are taken in one after
the other, with the open branches of the tree and the file mentioned last (`Reading`).  The first
row must be the root and the only root, and no row may lie more than one level below the innermost
open branch.  The first row that does not fit is reported.
-/

namespace AddressExport

/-- What can be wrong with a dump. -/
inductive DumpError where
  /-- There is no row. -/
  | empty
  /-- A row lies too deep: its line, where the line starts, and how much of it is at fault. -/
  | indentation (line offset length : Nat)
  /-- A row behind the first is a root. -/
  | multipleRoots (line : Nat)
  deriving DecidableEq, Repr

namespace DumpError

/-- What the user is told. -/
def diagnostic : DumpError → Diagnostic
  | empty =>
    { code := "CLANG-001"
      message := "AST dump is empty"
      help := some "Check that clang was given at least one header" }
  | indentation line _ _ =>
    { code := "CLANG-002"
      message := s!"Unexpected indentation on line {line}"
      help := none }
  | multipleRoots line =>
    { code := "CLANG-003"
      message := s!"AST dump has more than one root node (line {line})"
      help := some "Pass the output of a single translation unit" }

/-- The line at fault. -/
def line? : DumpError → Option Nat
  | empty => none
  | indentation line _ _ => some line
  | multipleRoots line => some line

end DumpError

namespace Dump

/-- What has been read of a dump. -/
structure Reading where
  /-- The open branches, once there was a row. -/
  spine : Option (Tree.Spine Declaration) := none
  /-- The file mentioned last. -/
  lastFile : Option String := none

/-- The failure of a row that lies too deep. -/
def Row.tooDeep (r : Row) : DumpError := .indentation r.number r.offset (max r.width 1)

/-- The node of a row that follows a mention of the given file. -/
def Row.declaration (r : Row) (lastFile : Option String) : Declaration :=
  ⟨r.kind, Detail.ofText r.kind r.text, startFile? lastFile r.text⟩

namespace Reading

/-- Takes in the next row. -/
def add (s : Reading) (r : Row) : Except DumpError Reading :=
  let lastFile := lastFile? s.lastFile r.text
  match s.spine with
  | none =>
    if r.depth = 0 then .ok { spine := some (.root (r.declaration s.lastFile)), lastFile }
    else .error r.tooDeep
  | some spine =>
    if r.depth = 0 then .error (.multipleRoots r.number)
    else if spine.depth + 1 < r.depth then .error r.tooDeep
    else .ok { spine := some (spine.add r.depth (r.declaration s.lastFile)), lastFile }

/-- The rows that are taken in, and the one behind them that is refused. -/
def seen (s : Reading) : List Row → List Row
  | [] => []
  | r :: rs =>
    match s.add r with
    | .error _ => [r]
    | .ok s => r :: s.seen rs

/-- The tree of all that was read. -/
def tree (s : Reading) : Except DumpError (Tree Declaration) :=
  match s.spine with
  | none => .error .empty
  | some spine => .ok spine.tree

end Reading

/-- The tree that a dump draws. -/
def read (dump : String) : Except DumpError (Tree Declaration) :=
  (rows dump).foldlM Reading.add {} >>= Reading.tree

/-- What there is to note about a dump: what is said about each row, up to the one that is
refused. -/
def readNotes (dump : String) : List Entry :=
  (Reading.seen {} (rows dump)).flatMap fun r => Detail.notes r.kind r.text

end Dump

end AddressExport
