import AddressExport.Declaration.Detail
import AddressExport.Dump.Row
import AddressExport.Proofs.Dump.Places
import AddressExport.Proofs.Tree
import Mathlib.Data.List.Forall2

/-!
# How a compiler draws a dump

A compiler prints its nodes in preorder and remembers the path that it printed last: a place in the
file of that path is written without it.  In front of each node it draws the branches that lead to
it, two columns for each level.
-/

namespace AddressExport

/-! ## Branches -/

namespace Tree

mutual

/-- The lines of a drawn tree: `own` stands in front of the root, `lead` in front of what is
below. -/
def drawAt (own lead : String) : Tree String → List String
  | node line ts => (own ++ line) :: drawAll lead ts

/-- The lines of drawn trees that stand side by side, below one root. -/
def drawAll (lead : String) : List (Tree String) → List String
  | [] => []
  | t :: ts =>
    drawAt (lead ++ if ts.isEmpty then "`-" else "|-")
        (lead ++ if ts.isEmpty then "  " else "| ") t ++
      drawAll lead ts

end

/-- The lines of a drawn tree. -/
def draw (t : Tree String) : List String := drawAt "" "" t

end Tree

namespace Dump

/-- A line of a drawing: two columns for each level, and then the row. -/
def IsDrawn (line : String) (row : Nat × String) : Prop :=
  ∃ branches : List Char, line.toList = branches ++ row.2.toList ∧
    branches.all isDrawing = true ∧ branches.length = 2 * row.1

/-- What is drawn in front of the nodes of some depth. -/
def IsBranch (depth : Nat) (own : String) : Prop :=
  own.toList.all isDrawing = true ∧ own.toList.length = 2 * depth

theorem IsBranch.append {depth : Nat} {lead : String} (h : IsBranch depth lead) {b : String}
    (hb : b ∈ ["`-", "|-", "  ", "| "]) : IsBranch (depth + 1) (lead ++ b) := by
  have hcolumns : b.toList.all isDrawing = true ∧ b.toList.length = 2 := by
    revert b
    decide
  rw [IsBranch, String.toList_append, List.all_append, List.length_append, h.1, h.2, hcolumns.1,
    hcolumns.2]
  exact ⟨rfl, rfl⟩

mutual

theorem forall₂_drawAt {depth : Nat} {own lead : String} (hown : IsBranch depth own)
    (hlead : IsBranch depth lead) :
    ∀ t : Tree String, List.Forall₂ IsDrawn (Tree.drawAt own lead t) (Tree.rowsAt depth t)
  | .node line ts => by
    rw [Tree.drawAt, Tree.rowsAt]
    exact .cons ⟨own.toList, String.toList_append, hown⟩ (forall₂_drawAll hlead ts)

theorem forall₂_drawAll {depth : Nat} {lead : String} (hlead : IsBranch depth lead) :
    ∀ ts : List (Tree String),
      List.Forall₂ IsDrawn (Tree.drawAll lead ts) (Tree.forestRows (depth + 1) ts)
  | [] => .nil
  | t :: ts => by
    rw [Tree.drawAll, Tree.forestRows]
    refine List.rel_append (forall₂_drawAt ?_ ?_ t) (forall₂_drawAll hlead ts)
    · exact hlead.append (by split <;> decide)
    · exact hlead.append (by split <;> decide)

end

theorem forall₂_draw (t : Tree String) : List.Forall₂ IsDrawn t.draw t.rows :=
  forall₂_drawAt ⟨rfl, rfl⟩ ⟨rfl, rfl⟩ t

/-! ## Nodes -/

/-- A place in a file. -/
structure Spot where
  path : String
  line : Nat
  col : Nat
  /-- Whether the line is written where the path is not. -/
  showsLine : Bool
  isPath : Place.IsPath path.toList := by decide

/-- Where a node begins and ends, and where its name stands. -/
structure Extent where
  start : Spot
  stop : Spot
  name : Spot

/-- A node as the compiler has it.  What it prints at the end of a line mentions no place. -/
structure Node where
  kind : String
  address : String
  extent : Option Extent
  rest : String
  kind_ne : kind ≠ "" := by decide
  kind_not_blank : kind.toList.any Text.isBlank = false := by decide
  kind_head : kind.toList.head?.any isDrawing = false := by decide
  address_alphanum : address.toList.all Char.isAlphanum = true := by decide
  rest_line : '\n' ∉ rest.toList := by decide
  rest_places : ∀ piece ∈ Text.splitAll Place.isBreak rest.toList,
    ¬ Place.SpellsPlace (Place.unwrap piece) := by decide

/-- A place as it is written if `last` is the path printed last. -/
def Spot.spell (last : Option String) (s : Spot) : String :=
  if last = some s.path then
    if s.showsLine then "line:" ++ toString s.line ++ ":" ++ toString s.col
    else "col:" ++ toString s.col
  else s.path ++ ":" ++ toString s.line ++ ":" ++ toString s.col

namespace Node

/-- What is printed behind the kind. -/
def text (last : Option String) (n : Node) : String :=
  "0x" ++ n.address ++
    match n.extent with
    | none => " " ++ n.rest
    | some e =>
      " <" ++ e.start.spell last ++ ", " ++ e.stop.spell (some e.start.path) ++ "> " ++
        e.name.spell (some e.stop.path) ++ " " ++ n.rest

/-- The path printed last, after the node. -/
def lastPath (last : Option String) (n : Node) : Option String :=
  match n.extent with
  | none => last
  | some e => some e.name.path

/-- The line of a node without the branches, and the path printed last. -/
def print (last : Option String) (n : Node) : String × Option String :=
  (n.kind ++ " " ++ n.text last, n.lastPath last)

/-- The file of a node: the one in which it begins, and for a node without a place the one printed
last. -/
def file (last : Option String) (n : Node) : Option String :=
  match n.extent with
  | none => last
  | some e => some e.start.path

/-- What a reader makes of a node, and the path printed last. -/
def declare (last : Option String) (n : Node) : Declaration × Option String :=
  (⟨n.kind, Detail.ofText n.kind (Text.trim (n.text last)), n.file last⟩, n.lastPath last)

end Node

/-- The dump of a tree of nodes. -/
def drawing (t : Tree Node) : String := Text.unlines (t.thread Node.print none).1.draw

end Dump

end AddressExport
