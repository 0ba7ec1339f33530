/-!
# Ordered trees

A tree has a label and a list of children.  Its rows are the labels in preorder, each with its
depth.  A tree is put together again from its rows in their order, with a stack of the branches that
are still open (`Spine`): a row closes the branches that are not above it, and opens one.
-/

namespace AddressExport

/-- An ordered tree with labels. -/
inductive Tree (α : Type) where
  | node (label : α) (children : List (Tree α))

namespace Tree

variable {α β : Type}

/-- The label at the root. -/
def label : Tree α → α
  | node a _ => a

/-- The trees right below the root. -/
def children : Tree α → List (Tree α)
  | node _ ts => ts

@[simp] theorem label_node (a : α) (ts : List (Tree α)) : (node a ts).label = a := rfl

@[simp] theorem children_node (a : α) (ts : List (Tree α)) : (node a ts).children = ts := rfl

/-! ## Rows -/

mutual

/-- The labels in preorder with their depths; the root has the given one. -/
def rowsAt (depth : Nat) : Tree α → List (Nat × α)
  | node a ts => (depth, a) :: forestRows (depth + 1) ts

/-- The rows of trees that stand side by side. -/
def forestRows (depth : Nat) : List (Tree α) → List (Nat × α)
  | [] => []
  | t :: ts => rowsAt depth t ++ forestRows depth ts

end

/-- The labels in preorder with their depths, from 0 on. -/
def rows (t : Tree α) : List (Nat × α) := rowsAt 0 t

mutual

/-- The number of labels. -/
def size : Tree α → Nat
  | node _ ts => forestSize ts + 1

/-- The number of labels of trees that stand side by side. -/
def forestSize : List (Tree α) → Nat
  | [] => 0
  | t :: ts => size t + forestSize ts

end

mutual

theorem length_rowsAt (depth : Nat) : ∀ t : Tree α, (rowsAt depth t).length = size t
  | node a ts => by rw [rowsAt, size, List.length_cons, length_forestRows (depth + 1) ts]

theorem length_forestRows (depth : Nat) :
    ∀ ts : List (Tree α), (forestRows depth ts).length = forestSize ts
  | [] => rfl
  | t :: ts => by
    rw [forestRows, forestSize, List.length_append, length_rowsAt depth t,
      length_forestRows depth ts]

end

/-- There is one row for each label. -/
theorem length_rows (t : Tree α) : t.rows.length = t.size := length_rowsAt 0 t

/-! ## Trees from rows -/

/-- A node that may still get children.  Those that it has come with the last one first. -/
structure Branch (α : Type) where
  label : α
  children : List (Tree α) := []

namespace Branch

/-- The tree of a branch that gets no more children. -/
def tree (b : Branch α) : Tree α := node b.label b.children.reverse

/-- The branch with one more child. -/
def attach (b : Branch α) (t : Tree α) : Branch α := { b with children := t :: b.children }

end Branch

/-- The branches that are open while rows are read: the innermost one, and those around it from the
inside out. -/
structure Spine (α : Type) where
  inner : Branch α
  around : List (Branch α) := []

namespace Spine

/-- The spine behind the first row. -/
def root (a : α) : Spine α := { inner := { label := a } }

/-- The depth of the innermost branch. -/
def depth (s : Spine α) : Nat := s.around.length

/-- Closes branches, from the given one outwards, until `depth` are open.  Each becomes the last
child of the one around it; the root stays open. -/
def closeFrom (depth : Nat) (inner : Branch α) : List (Branch α) → Spine α
  | [] => { inner }
  | parent :: around =>
    if depth ≤ around.length + 1 then closeFrom depth (parent.attach inner.tree) around
    else { inner, around := parent :: around }

/-- Closes branches until `depth` are open. -/
def closeTo (s : Spine α) (depth : Nat) : Spine α := closeFrom depth s.inner s.around

/-- Takes in the next row: what is not above it is closed, and it is opened. -/
def add (s : Spine α) (depth : Nat) (a : α) : Spine α :=
  let above := s.closeTo depth
  { inner := { label := a }, around := above.inner :: above.around }

/-- Takes in rows, one after the other. -/
def addAll (s : Spine α) (rows : List (Nat × α)) : Spine α :=
  rows.foldl (fun s row => s.add row.1 row.2) s

/-- The tree of all that was taken in. -/
def tree (s : Spine α) : Tree α := (s.closeTo 1).inner.tree

end Spine

/-- The tree with the given root that holds all that the rows behind it make. -/
def ofRows (root : α) (behind : List (Nat × α)) : Tree α := ((Spine.root root).addAll behind).tree

/-! ## Parts of a tree -/

mutual

/-- The tree without the subtrees below the root whose label does not satisfy `p`. -/
def restrict (p : α → Bool) : Tree α → Tree α
  | node a ts => node a (restrictAll p ts)

/-- The trees whose label satisfies `p`, each restricted to such labels. -/
def restrictAll (p : α → Bool) : List (Tree α) → List (Tree α)
  | [] => []
  | t :: ts => if p t.label then restrict p t :: restrictAll p ts else restrictAll p ts

end

end Tree

end AddressExport
