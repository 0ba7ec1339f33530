import AddressExport.Tree

/-!
# Trees are determined by their rows

While rows are taken in, the open branches and the trees that hang below them have exactly the rows
that were taken in (`Spine.rows_add`), and the innermost branch is as deep as the last row
(`Spine.depth_add`).  Closing branches changes no row (`Spine.rows_closeTo`), so the tree that is
put together in the end has all of them (`Spine.rows_tree`).  The rows of a tree make that tree
(`ofRows_forestRows`): behind them the stack is the one from before, with the tree as one more child
(`Spine.closeTo_addAll_rowsAt`).
-/

namespace AddressExport.Tree

variable {α : Type}

theorem forestRows_append (d : Nat) (ts us : List (Tree α)) :
    forestRows d (ts ++ us) = forestRows d ts ++ forestRows d us := by
  induction ts with
  | nil => rfl
  | cons t ts ih => rw [List.cons_append, forestRows, forestRows, ih, List.append_assoc]

theorem rowsAt_attach (d : Nat) (b : Branch α) (t : Tree α) :
    rowsAt d (b.attach t).tree = rowsAt d b.tree ++ rowsAt (d + 1) t := by
  simp [Branch.tree, Branch.attach, rowsAt, forestRows_append, forestRows]

namespace Spine

/-! ## Closing branches -/

theorem closeFrom_cons_of_le {depth : Nat} {inner parent : Branch α} {around : List (Branch α)}
    (h : depth ≤ around.length + 1) :
    closeFrom depth inner (parent :: around) = closeFrom depth (parent.attach inner.tree) around :=
  if_pos h

theorem closeFrom_of_lt {depth : Nat} {inner : Branch α} {around : List (Branch α)}
    (h : around.length < depth) : closeFrom depth inner around = { inner, around } := by
  cases around with
  | nil => rfl
  | cons parent around => exact if_neg (Nat.not_le.2 h)

theorem closeTo_closeTo {d e : Nat} (h : d ≤ e) (s : Spine α) :
    (s.closeTo e).closeTo d = s.closeTo d := by
  obtain ⟨inner, around⟩ := s
  show (closeFrom e inner around).closeTo d = closeFrom d inner around
  induction around generalizing inner with
  | nil => rfl
  | cons parent around ih =>
    by_cases hclose : e ≤ around.length + 1
    · rw [closeFrom_cons_of_le hclose, closeFrom_cons_of_le (Nat.le_trans h hclose), ih]
    · rw [closeFrom_of_lt (Nat.lt_of_not_le hclose)]
      rfl

/-! ## The rows of open branches -/

/-- The rows of branches, each inside the next, and of the trees that hang below them. -/
def openRows : List (Branch α) → List (Nat × α)
  | [] => []
  | b :: around => openRows around ++ rowsAt around.length b.tree

/-- The rows of the open branches, and of the trees that hang below them. -/
def rows (s : Spine α) : List (Nat × α) := openRows (s.inner :: s.around)

theorem rows_closeFrom (depth : Nat) (inner : Branch α) (around : List (Branch α)) :
    (closeFrom depth inner around).rows = openRows (inner :: around) := by
  induction around generalizing inner with
  | nil => rfl
  | cons parent around ih =>
    rw [closeFrom]
    split
    · rw [ih, openRows, rowsAt_attach, ← List.append_assoc]
      rfl
    · rfl

theorem rows_closeTo (s : Spine α) (depth : Nat) : (s.closeTo depth).rows = s.rows :=
  rows_closeFrom depth s.inner s.around

/-! ## The depth of the innermost branch -/

theorem depth_closeFrom {depth : Nat} {inner : Branch α} {around : List (Branch α)}
    (hpos : 1 ≤ depth) (h : depth ≤ around.length + 1) :
    (closeFrom depth inner around).depth + 1 = depth := by
  induction around generalizing inner with
  | nil => exact Nat.le_antisymm hpos h
  | cons parent around ih =>
    by_cases hclose : depth ≤ around.length + 1
    · rw [closeFrom_cons_of_le hclose, ih hclose]
    · rw [closeFrom_of_lt (Nat.lt_of_not_le hclose)]
      exact Nat.le_antisymm (Nat.succ_le_of_lt (Nat.lt_of_not_le hclose)) h

theorem depth_closeTo {s : Spine α} {depth : Nat} (hpos : 1 ≤ depth) (h : depth ≤ s.depth + 1) :
    (s.closeTo depth).depth + 1 = depth :=
  depth_closeFrom hpos h

theorem depth_closeTo_le (s : Spine α) (depth : Nat) : (s.closeTo depth).depth ≤ s.depth := by
  obtain ⟨inner, around⟩ := s
  show (closeFrom depth inner around).depth ≤ around.length
  induction around generalizing inner with
  | nil => exact Nat.le_refl 0
  | cons parent around ih =>
    rw [closeFrom]
    split
    · exact Nat.le_succ_of_le (ih (parent.attach inner.tree))
    · exact Nat.le_refl _

/-- The innermost branch is as deep as the row that was taken in last. -/
theorem depth_add {s : Spine α} {depth : Nat} (hpos : 1 ≤ depth) (h : depth ≤ s.depth + 1) (a : α) :
    (s.add depth a).depth = depth :=
  depth_closeTo hpos h

/-! ## The rows that were taken in -/

/-- A row that lies below an open branch is taken in as the last one. -/
theorem rows_add {s : Spine α} {depth : Nat} (hpos : 1 ≤ depth) (h : depth ≤ s.depth + 1) (a : α) :
    (s.add depth a).rows = s.rows ++ [(depth, a)] := by
  have hdepth : (s.closeTo depth).around.length + 1 = depth := depth_closeTo hpos h
  calc (s.add depth a).rows
      = (s.closeTo depth).rows ++ rowsAt ((s.closeTo depth).around.length + 1) (node a []) := rfl
    _ = s.rows ++ [(depth, a)] := by rw [rows_closeTo, hdepth, rowsAt, forestRows]

/-- In the end the tree has the rows that were taken in. -/
theorem rows_tree (s : Spine α) : s.tree.rows = s.rows := by
  have hroot : (s.closeTo 1).around = [] :=
    List.eq_nil_of_length_eq_zero
      (Nat.succ.inj (depth_closeTo (Nat.le_refl 1) (Nat.le_add_left 1 _)))
  rw [← rows_closeTo s 1, rows, hroot]
  rfl

/-! ## The rows of a tree -/

/-- The spine with more children of the innermost branch. -/
def attachAll (s : Spine α) (ts : List (Tree α)) : Spine α :=
  { s with inner := { s.inner with children := ts.reverse ++ s.inner.children } }

theorem attachAll_append (s : Spine α) (ts us : List (Tree α)) :
    s.attachAll (ts ++ us) = (s.attachAll ts).attachAll us := by
  simp [attachAll]

theorem addAll_append (s : Spine α) (front behind : List (Nat × α)) :
    s.addAll (front ++ behind) = (s.addAll front).addAll behind :=
  List.foldl_append

mutual

/-- Behind the rows of a tree, the branches above it are as they were, with the tree as one more
child. -/
theorem closeTo_addAll_rowsAt {s : Spine α} {d : Nat} (hpos : 1 ≤ d) (h : d ≤ s.depth + 1) :
    ∀ t : Tree α, (s.addAll (rowsAt d t)).closeTo d = (s.closeTo d).attachAll [t]
  | node a ts => by
    have hdepth : (s.closeTo d).around.length + 1 = d := depth_closeTo hpos h
    have hopen : (s.add d a).closeTo (d + 1) = s.add d a :=
      closeFrom_of_lt (Nat.lt_succ_of_le (Nat.le_of_eq hdepth))
    have hbelow : ((s.add d a).addAll (forestRows (d + 1) ts)).closeTo (d + 1) =
        (s.add d a).attachAll ts := by
      rw [closeTo_addAll_forestRows (Nat.le_add_left 1 d)
        (Nat.le_of_eq (congrArg (· + 1) (depth_add hpos h a).symm)) ts, hopen]
    calc (s.addAll (rowsAt d (node a ts))).closeTo d
        = ((s.add d a).attachAll ts).closeTo d := by
          rw [← hbelow, closeTo_closeTo (Nat.le_succ d)]
          rfl
      _ = closeFrom d ((s.closeTo d).inner.attach (node a ts)) (s.closeTo d).around := by
          rw [closeTo, attachAll, add, closeFrom_cons_of_le (Nat.le_of_eq hdepth.symm)]
          simp [Branch.tree]
      _ = (s.closeTo d).attachAll [node a ts] :=
          closeFrom_of_lt (Nat.lt_of_succ_le (Nat.le_of_eq hdepth))

theorem closeTo_addAll_forestRows {s : Spine α} {d : Nat} (hpos : 1 ≤ d) (h : d ≤ s.depth + 1) :
    ∀ ts : List (Tree α), (s.addAll (forestRows d ts)).closeTo d = (s.closeTo d).attachAll ts
  | [] => rfl
  | t :: ts => by
    have htree := closeTo_addAll_rowsAt hpos h t
    have hdepth : d ≤ (s.addAll (rowsAt d t)).depth + 1 := by
      have hclosed : ((s.addAll (rowsAt d t)).closeTo d).depth + 1 = d := by
        rw [htree]
        exact depth_closeTo hpos h
      exact Nat.le_trans (Nat.le_of_eq hclosed.symm) (Nat.succ_le_succ (depth_closeTo_le _ d))
    rw [forestRows, addAll_append, closeTo_addAll_forestRows hpos hdepth ts, htree,
      ← attachAll_append, List.singleton_append]

end

end Spine

/-- The rows of a tree make that tree. -/
theorem ofRows_forestRows (a : α) (ts : List (Tree α)) :
    ofRows a (forestRows 1 ts) = node a ts := by
  have hroot : 1 ≤ (Spine.root a).depth + 1 := Nat.le_refl 1
  rw [ofRows, Spine.tree, Spine.closeTo_addAll_forestRows (Nat.le_refl 1) hroot]
  simp [Spine.attachAll, Spine.root, Spine.closeTo, Spine.closeFrom, Branch.tree]

theorem rows_injective {t u : Tree α} (h : t.rows = u.rows) : t = u := by
  obtain ⟨a, ts⟩ := t
  obtain ⟨b, us⟩ := u
  obtain ⟨hab, hrest⟩ := List.cons.inj h
  rw [← ofRows_forestRows a ts, ← ofRows_forestRows b us, hrest, (Prod.mk.inj hab).2]

/-! ## Passing a state through a tree -/

section Thread

variable {β σ : Type}

mutual

/-- The tree with each label replaced by what `f` makes of it.  In preorder, each label gets the
state that the one before it leaves. -/
def thread (f : σ → α → β × σ) (s : σ) : Tree α → Tree β × σ
  | node a ts =>
    let b := f s a
    let us := threadAll f b.2 ts
    (node b.1 us.1, us.2)

/-- The same for trees that stand side by side. -/
def threadAll (f : σ → α → β × σ) (s : σ) : List (Tree α) → List (Tree β) × σ
  | [] => ([], s)
  | t :: ts =>
    let u := thread f s t
    let us := threadAll f u.2 ts
    (u.1 :: us.1, us.2)

end

/-- The same for rows. -/
def threadRows (f : σ → α → β × σ) (s : σ) : List (Nat × α) → List (Nat × β) × σ
  | [] => ([], s)
  | r :: rs =>
    let b := f s r.2
    let bs := threadRows f b.2 rs
    ((r.1, b.1) :: bs.1, bs.2)

theorem map_fst_threadRows (f : σ → α → β × σ) (s : σ) (rs : List (Nat × α)) :
    (threadRows f s rs).1.map Prod.fst = rs.map Prod.fst := by
  induction rs generalizing s with
  | nil => rfl
  | cons r rs ih => rw [threadRows, List.map_cons, List.map_cons, ih]

theorem threadRows_append (f : σ → α → β × σ) (s : σ) (front behind : List (Nat × α)) :
    threadRows f s (front ++ behind) =
      ((threadRows f s front).1 ++ (threadRows f (threadRows f s front).2 behind).1,
        (threadRows f (threadRows f s front).2 behind).2) := by
  induction front generalizing s with
  | nil => rfl
  | cons r front ih => simp only [List.cons_append, threadRows, ih]

mutual

theorem threadRows_rowsAt (f : σ → α → β × σ) (s : σ) (d : Nat) :
    ∀ t : Tree α, threadRows f s (rowsAt d t) = (rowsAt d (thread f s t).1, (thread f s t).2)
  | node a ts => by
    simp only [rowsAt, thread, threadRows, threadRows_forestRows f (f s a).2 (d + 1) ts]

theorem threadRows_forestRows (f : σ → α → β × σ) (s : σ) (d : Nat) :
    ∀ ts : List (Tree α),
      threadRows f s (forestRows d ts) = (forestRows d (threadAll f s ts).1, (threadAll f s ts).2)
  | [] => rfl
  | t :: ts => by
    simp only [forestRows, threadAll, threadRows_append, threadRows_rowsAt f s d t,
      threadRows_forestRows f (thread f s t).2 d ts]

end

theorem rows_thread (f : σ → α → β × σ) (s : σ) (t : Tree α) :
    (thread f s t).1.rows = (threadRows f s t.rows).1 := by
  rw [rows, rows, threadRows_rowsAt]

end Thread

end AddressExport.Tree
