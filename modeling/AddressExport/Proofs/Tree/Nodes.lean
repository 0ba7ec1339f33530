import AddressExport.Tree

/-!
# The nodes of a tree

A node is known by its position or by its trail.  The position is the list of the numbers of the
children on the way down to it from the root, counted from 0; a node stands below another if the
other's position is a prefix of its own.  The trail has the labels of the nodes on that way.
`restrictTo` keeps the nodes at some positions and changes nothing else about them.
-/

namespace AddressExport

/-- The numbers of the children on the way down from the root to a node. -/
abbrev Position := List Nat

namespace Tree

variable {α : Type}

@[elab_as_elim, induction_eliminator]
theorem inductionOnChildren {motive : Tree α → Prop}
    (node : ∀ a ts, (∀ t ∈ ts, motive t) → motive (node a ts)) (t : Tree α) : motive t := by
  cases t with
  | node a ts => exact node a ts fun t _ => inductionOnChildren node t

/-! ## Positions -/

/-- The subtree at a position, if the tree has one there. -/
def at? (t : Tree α) : Position → Option (Tree α)
  | [] => some t
  | i :: p => t.children[i]?.bind fun child => child.at? p

theorem at?_cons (t : Tree α) (i : Nat) (p : Position) :
    t.at? (i :: p) = t.children[i]?.bind fun child => child.at? p := rfl

theorem at?_append_singleton_eq_some_iff {t s : Tree α} {p : Position} {i : Nat} :
    t.at? (p ++ [i]) = some s ↔
      ∃ parent, t.at? p = some parent ∧ parent.children[i]? = some s := by
  induction p generalizing t with
  | nil => simp [at?]
  | cons j p ih =>
    rw [List.cons_append, at?_cons, at?_cons]
    cases t.children[j]? with
    | none => simp
    | some child => exact ih

mutual

/-- The tree of the nodes at the positions that satisfy `keep`.  A node is kept only with its
parent. -/
def restrictTo (keep : Position → Bool) : Tree α → Option (Tree α)
  | node a ts => if keep [] then some (node a (restrictAllTo keep 0 ts)) else none

/-- The same for trees that stand side by side, the first of them with the given number. -/
def restrictAllTo (keep : Position → Bool) (number : Nat) : List (Tree α) → List (Tree α)
  | [] => []
  | t :: ts =>
    (restrictTo (fun p => keep (number :: p)) t).toList ++ restrictAllTo keep (number + 1) ts

end

theorem restrictTo_eq_none_iff {keep : Position → Bool} {t : Tree α} :
    t.restrictTo keep = none ↔ keep [] = false := by
  cases t
  simp [restrictTo]

/-! ## Trails -/

/-- A node with the nodes above it, the root first. -/
structure Trail (α : Type) where
  above : List α
  label : α
  deriving DecidableEq, Repr

mutual

/-- The nodes of a tree in preorder, each with the nodes above it; `above` are those above the
tree. -/
def trailsBelow (above : List α) : Tree α → List (Trail α)
  | node a ts => ⟨above, a⟩ :: forestTrailsBelow (above ++ [a]) ts

/-- The nodes of trees that stand side by side. -/
def forestTrailsBelow (above : List α) : List (Tree α) → List (Trail α)
  | [] => []
  | t :: ts => trailsBelow above t ++ forestTrailsBelow above ts

end

/-- The nodes of a tree in preorder, each with the nodes above it. -/
def trails (t : Tree α) : List (Trail α) := trailsBelow [] t

mutual

theorem prefix_of_mem_trailsBelow {above : List α} {x : Trail α} :
    ∀ {t : Tree α}, x ∈ trailsBelow above t → above <+: x.above
  | node a ts, h => by
    rcases List.mem_cons.1 h with rfl | h
    · exact List.prefix_rfl
    · exact (List.prefix_append above [a]).trans (prefix_of_mem_forestTrailsBelow h)

theorem prefix_of_mem_forestTrailsBelow {above : List α} {x : Trail α} :
    ∀ {ts : List (Tree α)}, x ∈ forestTrailsBelow above ts → above <+: x.above
  | [], h => by cases h
  | t :: ts, h => by
    rcases List.mem_append.1 h with h | h
    · exact prefix_of_mem_trailsBelow h
    · exact prefix_of_mem_forestTrailsBelow h

end

mutual

theorem map_label_trailsBelow (above : List α) (depth : Nat) :
    ∀ t : Tree α, (trailsBelow above t).map Trail.label = (rowsAt depth t).map Prod.snd
  | node a ts => by
    rw [trailsBelow, rowsAt, List.map_cons, List.map_cons,
      map_label_forestTrailsBelow (above ++ [a]) (depth + 1) ts]

theorem map_label_forestTrailsBelow (above : List α) (depth : Nat) :
    ∀ ts : List (Tree α),
      (forestTrailsBelow above ts).map Trail.label = (forestRows depth ts).map Prod.snd
  | [] => rfl
  | t :: ts => by
    rw [forestTrailsBelow, forestRows, List.map_append, List.map_append,
      map_label_trailsBelow above depth t, map_label_forestTrailsBelow above depth ts]

end

mutual

theorem mem_above_trailsBelow {above : List α} {x : Trail α} {a : α} (ha : a ∈ x.above) :
    ∀ {t : Tree α}, x ∈ trailsBelow above t →
      a ∈ above ∨ a ∈ (trailsBelow above t).map Trail.label
  | node b ts, h => by
    rw [trailsBelow] at h ⊢
    rcases List.mem_cons.1 h with rfl | h
    · exact .inl ha
    · rcases mem_above_forestTrailsBelow ha h with hb | hbelow
      · rcases List.mem_append.1 hb with hb | hb
        · exact .inl hb
        · rw [List.mem_singleton.1 hb]
          exact .inr List.mem_cons_self
      · exact .inr (List.mem_cons_of_mem b hbelow)

theorem mem_above_forestTrailsBelow {above : List α} {x : Trail α} {a : α} (ha : a ∈ x.above) :
    ∀ {ts : List (Tree α)}, x ∈ forestTrailsBelow above ts →
      a ∈ above ∨ a ∈ (forestTrailsBelow above ts).map Trail.label
  | [], h => by cases h
  | t :: ts, h => by
    rw [forestTrailsBelow, List.map_append, List.mem_append]
    rcases List.mem_append.1 h with h | h
    · exact (mem_above_trailsBelow ha h).imp_right .inl
    · exact (mem_above_forestTrailsBelow ha h).imp_right .inr

end

/-- What stands above a node is a node of the tree too. -/
theorem exists_trail_of_mem_above {t : Tree α} {x : Trail α} (hx : x ∈ t.trails) {a : α}
    (ha : a ∈ x.above) : ∃ y ∈ t.trails, y.label = a :=
  List.mem_map.1 ((mem_above_trailsBelow ha hx).resolve_left List.not_mem_nil)

theorem map_label_trails (t : Tree α) : t.trails.map Trail.label = t.rows.map Prod.snd :=
  map_label_trailsBelow [] 0 t

theorem map_label_forestTrailsBelow_eq_flatMap (above : List α) (ts : List (Tree α)) :
    (forestTrailsBelow above ts).map Trail.label =
      ts.flatMap fun t => t.trails.map Trail.label := by
  induction ts with
  | nil => rfl
  | cons t ts ih =>
    -- the labels do not depend on what is above the tree
    have hlabels : (trailsBelow above t).map Trail.label = t.trails.map Trail.label := by
      rw [trails, map_label_trailsBelow above 0, map_label_trailsBelow [] 0]
    rw [forestTrailsBelow, List.map_append, List.flatMap_cons, ih, hlabels]

theorem label_mem_map_label_trails (t : Tree α) : t.label ∈ t.trails.map Trail.label := by
  cases t
  exact List.mem_cons_self

/-- The labels of a child are labels of the tree. -/
theorem map_label_trails_subset_of_mem {a : α} {t : Tree α} {ts : List (Tree α)} (ht : t ∈ ts) :
    t.trails.map Trail.label ⊆ (node a ts).trails.map Trail.label := by
  intro b hb
  rw [trails, trailsBelow, List.map_cons, map_label_forestTrailsBelow_eq_flatMap]
  exact List.mem_cons_of_mem _ (List.mem_flatMap_of_mem ht hb)

end Tree

end AddressExport
