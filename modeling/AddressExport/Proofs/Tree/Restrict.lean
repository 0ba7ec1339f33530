import AddressExport.Proofs.Tree
import AddressExport.Proofs.Tree.Nodes

/-!
# Parts of a tree

`Tree.restrict p` keeps the root, and every other node that satisfies `p` together with all nodes
between it and the root (`trails_restrict`).  Two trees have one shape if their rows have the same
depths (`shape_eq_of_depths`).
-/

namespace AddressExport.Tree

variable {α β : Type}

/-! ## Shapes -/

mutual

/-- The tree without its labels. -/
def shape : Tree α → Tree Unit
  | node _ ts => node () (shapes ts)

/-- The trees without their labels. -/
def shapes : List (Tree α) → List (Tree Unit)
  | [] => []
  | t :: ts => shape t :: shapes ts

end

mutual

theorem rowsAt_shape (depth : Nat) :
    ∀ t : Tree α, rowsAt depth t.shape = (rowsAt depth t).map fun r => (r.1, ())
  | node a ts => by rw [shape, rowsAt, rowsAt, forestRows_shapes (depth + 1) ts, List.map_cons]

theorem forestRows_shapes (depth : Nat) :
    ∀ ts : List (Tree α), forestRows depth (shapes ts) =
      (forestRows depth ts).map fun r => (r.1, ())
  | [] => rfl
  | t :: ts => by
    rw [shapes, forestRows, forestRows, rowsAt_shape depth t, forestRows_shapes depth ts,
      List.map_append]

end

/-- The depths of the nodes in preorder determine the shape. -/
theorem shape_eq_of_depths {t : Tree α} {u : Tree β}
    (h : t.rows.map Prod.fst = u.rows.map Prod.fst) : t.shape = u.shape := by
  apply rows_injective
  have hdepths := congrArg (List.map fun depth => (depth, ())) h
  rw [List.map_map, List.map_map] at hdepths
  rw [rows, rows, rowsAt_shape, rowsAt_shape]
  exact hdepths

/-! ## Trails and rows -/

mutual

theorem rowsAt_length (above : List α) :
    ∀ t : Tree α,
      rowsAt above.length t = (trailsBelow above t).map fun x => (x.above.length, x.label)
  | node a ts => by
    have hbelow := forestRows_length (above ++ [a]) ts
    rw [List.length_append, List.length_singleton] at hbelow
    rw [rowsAt, trailsBelow, List.map_cons, hbelow]

theorem forestRows_length (above : List α) :
    ∀ ts : List (Tree α),
      forestRows above.length ts =
        (forestTrailsBelow above ts).map fun x => (x.above.length, x.label)
  | [] => rfl
  | t :: ts => by
    rw [forestRows, forestTrailsBelow, List.map_append, rowsAt_length above t,
      forestRows_length above ts]

end

/-- A row has the number of the nodes above as its depth. -/
theorem rows_eq_map_trails (t : Tree α) :
    t.rows = t.trails.map fun x => (x.above.length, x.label) :=
  rowsAt_length [] t

/-! ## What is kept -/

/-- The nodes on the way from the root to a node, with both. -/
def Trail.path (x : Trail α) : List α := x.above ++ [x.label]

theorem prefix_path_of_mem_trailsBelow {above : List α} {t : Tree α} {x : Trail α}
    (h : x ∈ trailsBelow above t) : above ++ [t.label] <+: x.path := by
  cases t with
  | node a ts =>
    rcases List.mem_cons.1 h with rfl | h
    · exact List.prefix_rfl
    · exact (prefix_of_mem_forestTrailsBelow h).trans (List.prefix_append _ _)

/-- Whether all nodes on the way to a node satisfy `p`, but for the first `n`. -/
def Trail.allFrom (p : α → Bool) (n : Nat) (x : Trail α) : Bool := (x.path.drop n).all p

variable {p : α → Bool}

theorem Trail.allFrom_root (above : List α) (a : α) :
    (Trail.mk above a).allFrom p (above.length + 1) = true := by
  simp [allFrom, path]

theorem allFrom_of_mem_trailsBelow {above : List α} {t : Tree α} {x : Trail α}
    (h : x ∈ trailsBelow above t) :
    x.allFrom p above.length = (p t.label && x.allFrom p (above.length + 1)) := by
  obtain ⟨rest, hrest⟩ := prefix_path_of_mem_trailsBelow h
  have hdrop : above.drop (above.length + 1) = [] := List.drop_eq_nil_of_le (Nat.le_succ _)
  rw [Trail.allFrom, Trail.allFrom, ← hrest]
  simp [List.drop_append, hdrop]

mutual

theorem trailsBelow_restrict (above : List α) :
    ∀ t : Tree α, trailsBelow above (restrict p t) =
      (trailsBelow above t).filter (Trail.allFrom p (above.length + 1))
  | node a ts => by
    have hbelow := forestTrailsBelow_restrictAll (above ++ [a]) ts
    rw [List.length_append, List.length_singleton] at hbelow
    rw [restrict, trailsBelow, trailsBelow, List.filter_cons_of_pos (Trail.allFrom_root above a),
      hbelow]

theorem forestTrailsBelow_restrictAll (above : List α) :
    ∀ ts : List (Tree α), forestTrailsBelow above (restrictAll p ts) =
      (forestTrailsBelow above ts).filter (Trail.allFrom p above.length)
  | [] => rfl
  | t :: ts => by
    have hrest := forestTrailsBelow_restrictAll above ts
    rw [restrictAll, forestTrailsBelow, List.filter_append,
      List.filter_congr fun x hx => allFrom_of_mem_trailsBelow hx, ← hrest]
    by_cases ht : p t.label = true
    · simp only [ht, if_true, Bool.true_and]
      rw [forestTrailsBelow, trailsBelow_restrict above t]
    · simp [ht]

end

/-- The nodes that a restricted tree has: the root, and those that satisfy `p` with all nodes
between them and the root. -/
theorem trails_restrict (t : Tree α) :
    (t.restrict p).trails = t.trails.filter fun x => x.path.tail.all p := by
  have hfrom : Trail.allFrom p 1 = fun x : Trail α => x.path.tail.all p := by
    funext x
    rw [Trail.allFrom, List.drop_one]
  rw [← hfrom]
  exact trailsBelow_restrict [] t

end AddressExport.Tree
