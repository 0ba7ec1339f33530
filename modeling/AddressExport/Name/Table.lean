import AddressExport.Name.Binding
import AddressExport.Text.Lines

/-!
# The table of names

The table has a line for each binding: the accessor, the kind, the name and, in backticks, the
signature.  The accessors are padded to the number of bytes of the longest one.
-/

namespace AddressExport

namespace TargetKind

/-- The word for a kind in the table. -/
def word : TargetKind → String
  | function => "fn"
  | staticMethod => "static"

end TargetKind

/-- A text with spaces behind it, up to the given number of characters. -/
def padded (width : Nat) (s : String) : String :=
  s ++ String.ofList (List.replicate (width - s.length) ' ')

/-- The number of bytes of the longest accessor. -/
def accessorWidth (bindings : List Binding) : Nat :=
  (bindings.map fun b => b.accessor.utf8ByteSize).foldl max 0

/-- The line of a binding in a table with accessors of the given width. -/
def tableLine (width : Nat) (b : Binding) : String :=
  padded width b.accessor ++ "  " ++ padded 6 b.target.kind.word ++ "  " ++ b.target.name.path ++
    " `" ++ b.target.signature ++ "`"

/-- The table of some bindings. -/
def nameTable (bindings : List Binding) : String :=
  Text.unlines (bindings.map (tableLine (accessorWidth bindings)))

end AddressExport
