import AddressExport.Text.Blank
import AddressExport.Text.Lines
import AddressExport.Text.Pieces

/-!
# Rows of a dump

A dump draws a tree, one node to a line.  A line begins with the drawing, two columns for each
level; then comes the kind of the node, up to the first blank, and the text of the node.  Blank
lines are no rows.
-/

namespace AddressExport.Dump

/-- A line of a dump that holds a node. -/
structure Row where
  /-- The number of the line, counted from 1. -/
  number : Nat
  /-- The place where the line starts. -/
  offset : Nat
  /-- The width of the drawing. -/
  width : Nat
  kind : String
  text : String
  deriving DecidableEq, Repr

/-- Whether a character belongs to the drawing. -/
def isDrawing (c : Char) : Bool := c == '|' || c == '\x60' || c == '-' || c == ' '

/-- The kind and the text of a node, from a line without the drawing. -/
def splitKind (body : List Char) : List Char × List Char :=
  match Text.splitFirst? Text.isBlank body with
  | some (kind, rest) => (kind, Text.trimBlanks rest)
  | none => (body, [])

namespace Row

/-- How deep the node lies below the root. -/
def depth (r : Row) : Nat := r.width / 2

/-- The row of a line, unless the line is blank. -/
def ofLine? (l : Text.Line) : Option Row :=
  if l.text.all Text.isBlank then none
  else
    let (kind, text) := splitKind (l.text.dropWhile isDrawing)
    some ⟨l.number, l.offset, (l.text.takeWhile isDrawing).length, String.ofList kind,
      String.ofList text⟩

end Row

/-- The rows of a dump. -/
def rows (dump : String) : List Row := (Text.numberedLines dump).filterMap Row.ofLine?

end AddressExport.Dump
