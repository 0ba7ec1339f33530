import AddressExport.Dump.Basic
import AddressExport.Proofs.Text.Blank
import AddressExport.Proofs.Text.Lines
import AddressExport.Proofs.Text.Pieces
import AddressExport.Proofs.Tree

/-!
# What reading a dump comes to

A line that is not blank shows a node (`Item`), and the depths of the items decide whether a dump
can be read: the first must be 0, and each later one at least 1 and at most one more than the one
before it (`Nested`).  A row that can follow is taken in as the last row of what was read, and it is
the innermost open branch then (`Reading.exists_add`); so rows that are nested are the rows of the
tree that is read.  Otherwise the failure is that of the item at the end of the shortest start of
the dump that is not nested.
-/

namespace AddressExport.Dump

/-! ## What a dump shows -/

/-- Whether a line has nothing but blanks. -/
def isBlankLine (line : String) : Bool := line.toList.all Text.isBlank

/-- What a line of a dump shows of a node. -/
structure Item where
  /-- The number of the line, counted from 1. -/
  number : Nat
  depth : Nat
  kind : String
  text : String
  deriving DecidableEq, Repr

/-- Two columns of drawing make one level.  Behind the drawing comes the kind, up to the first
blank. -/
def Item.ofLine (line : String) (number : Nat) : Item :=
  let body := line.toList.dropWhile isDrawing
  { number
    depth := (line.toList.takeWhile isDrawing).length / 2
    kind := String.ofList (body.takeWhile (!Text.isBlank ·))
    text := Text.trim (String.ofList (body.dropWhile (!Text.isBlank ·))) }

/-- What the lines of a dump show that are not blank. -/
def items (dump : String) : List Item :=
  (((Text.lines dump).zipIdx 1).filter fun x => !isBlankLine x.1).map fun x => Item.ofLine x.1 x.2

/-- What a row says of a node. -/
def Row.item (r : Row) : Item := ⟨r.number, r.depth, r.kind, r.text⟩

theorem splitKind_eq (body : List Char) :
    splitKind body =
      (body.takeWhile (!Text.isBlank ·), Text.trimBlanks (body.dropWhile (!Text.isBlank ·))) := by
  rw [splitKind, Text.splitFirst?_eq]
  cases h : body.dropWhile (!Text.isBlank ·) with
  | nil =>
    have hall := List.takeWhile_append_dropWhile (p := (!Text.isBlank ·)) (l := body)
    rw [h, List.append_nil] at hall
    rw [hall]
    rfl
  | cons c rest =>
    have hc : Text.isBlank c = true := by
      have := List.head?_dropWhile_not (!Text.isBlank ·) body
      simpa [h] using this
    simp [Text.trimBlanks, hc]

theorem item_ofLine? (l : Text.Line) :
    (Row.ofLine? l).map Row.item =
      if isBlankLine (String.ofList l.text) then none
      else some (Item.ofLine (String.ofList l.text) l.number) := by
  unfold Row.ofLine?
  simp only [isBlankLine, Item.ofLine, String.toList_ofList, Text.trim]
  split
  · rfl
  · rw [splitKind_eq]
    rfl

/-- The rows of a dump are its items, with what is known of their lines. -/
theorem map_item_rows (dump : String) : (rows dump).map Row.item = items dump := by
  have hnumbered : ∀ (lines : List (List Char)) (number offset : Nat),
      (Text.numberLines number offset lines).filterMap (fun l => (Row.ofLine? l).map Row.item) =
        (((lines.map String.ofList).zipIdx number).filter fun x => !isBlankLine x.1).map
          fun x => Item.ofLine x.1 x.2 := by
    intro lines
    induction lines with
    | nil => intros; rfl
    | cons l ls ih =>
      intro number offset
      rw [Text.numberLines, List.filterMap_cons, item_ofLine?, ih, List.map_cons, List.zipIdx_cons,
        List.filter_cons]
      cases isBlankLine (String.ofList l) <;> rfl
  rw [rows, List.map_filterMap, Text.numberedLines, hnumbered]
  rfl

theorem length_rows (dump : String) :
    (rows dump).length = ((Text.lines dump).filter (!isBlankLine ·)).length := by
  rw [← List.length_map Row.item, map_item_rows, items, List.length_map]
  have h : ((Text.lines dump).zipIdx 1).map Prod.fst = Text.lines dump := List.zipIdx_map_fst 1 _
  conv => rhs; rw [← h]
  rw [List.filter_map, List.length_map]
  rfl

/-- A row shows what its line does. -/
theorem exists_line_of_mem_rows {dump : String} {r : Row} (h : r ∈ rows dump) :
    ∃ line ∈ Text.lines dump, ∃ number, r.item = Item.ofLine line number := by
  have hitem : r.item ∈ items dump := by
    rw [← map_item_rows]
    exact List.mem_map_of_mem h
  obtain ⟨⟨line, number⟩, hline, hr⟩ := List.mem_map.1 hitem
  have hlines := List.mem_map_of_mem (f := Prod.fst) ((List.mem_filter.1 hline).1)
  rw [List.zipIdx_map_fst] at hlines
  exact ⟨line, hlines, number, hr.symm⟩

/-- The kind of a row is a word that does not go on with the drawing. -/
theorem kind_of_mem_rows {dump : String} {r : Row} (h : r ∈ rows dump) :
    (∀ c ∈ r.kind.toList, Text.isBlank c = false) ∧
      ∀ c ∈ r.kind.toList.head?, isDrawing c = false := by
  obtain ⟨line, -, number, hr⟩ := exists_line_of_mem_rows h
  have hkind : r.kind = (Item.ofLine line number).kind := congrArg Item.kind hr
  rw [hkind, Item.ofLine, String.toList_ofList]
  constructor
  · intro c hc
    simpa using List.mem_takeWhile_imp hc
  · intro c hc
    have hbody := List.head?_dropWhile_not isDrawing line.toList
    cases hrest : line.toList.dropWhile isDrawing with
    | nil =>
      rw [hrest] at hc
      cases hc
    | cons d rest =>
      rw [hrest] at hc hbody
      rw [List.takeWhile_cons] at hc
      split at hc
      · obtain rfl : d = c := by simpa using hc
        simpa using hbody
      · cases hc

/-- The text of a row has no blanks at its ends and no line feed. -/
theorem text_of_mem_rows {dump : String} {r : Row} (h : r ∈ rows dump) :
    Text.IsTrimmed r.text.toList ∧ '\n' ∉ r.text.toList := by
  obtain ⟨line, hline, number, hr⟩ := exists_line_of_mem_rows h
  have htext : r.text = (Item.ofLine line number).text := congrArg Item.text hr
  rw [htext, Item.ofLine, Text.toList_trim, String.toList_ofList]
  refine ⟨Text.isTrimmed_trimBlanks _, fun hmem => ?_⟩
  exact Text.lineFeed_not_mem_lines dump line hline
    ((List.dropWhile_sublist _).subset
      ((List.dropWhile_sublist _).subset (Text.mem_of_mem_trimBlanks hmem)))

/-- What a line shows that is written of some drawing, a kind, a space and a text. -/
theorem ofLine_of_toList_eq {line : String} {branches kind text : List Char}
    (hline : line.toList = branches ++ (kind ++ ' ' :: text))
    (hbranches : ∀ c ∈ branches, isDrawing c = true) (hne : kind ≠ [])
    (hhead : kind.head?.any isDrawing = false) (hkind : ∀ c ∈ kind, Text.isBlank c = false)
    (number : Nat) :
    isBlankLine line = false ∧
      Item.ofLine line number =
        ⟨number, branches.length / 2, String.ofList kind, Text.trim (String.ofList text)⟩ := by
  obtain ⟨c, kind', rfl⟩ := List.exists_cons_of_ne_nil hne
  have hc : ¬ isDrawing c = true := by simpa using hhead
  have hword : ∀ d ∈ c :: kind', (!Text.isBlank d) = true := by
    intro d hd
    rw [hkind d hd, Bool.not_false]
  have hspace : ¬ (!Text.isBlank ' ') = true := by decide
  have htake : line.toList.takeWhile isDrawing = branches := by
    rw [hline, List.cons_append, Text.takeWhile_append_cons hbranches hc]
  have hdrop : line.toList.dropWhile isDrawing = c :: kind' ++ ' ' :: text := by
    rw [hline, List.cons_append, Text.dropWhile_append_cons hbranches hc]
  have htrim : Text.trim (String.ofList (' ' :: text)) = Text.trim (String.ofList text) := by
    rw [Text.trim, Text.trim, String.toList_ofList, String.toList_ofList,
      Text.trimBlanks_cons_blank rfl]
  constructor
  · rw [isBlankLine, hline, List.all_eq_false]
    refine ⟨c, by simp, ?_⟩
    simp [hkind c List.mem_cons_self]
  · simp only [Item.ofLine, htake, hdrop, Text.takeWhile_append_cons hword hspace,
      Text.dropWhile_append_cons hword hspace, htrim]

/-! ## Nesting -/

/-- Whether a depth can come next, behind the given depth or as the first. -/
def CanFollow : Option Nat → Nat → Prop
  | none, d => d = 0
  | some previous, d => 1 ≤ d ∧ d ≤ previous + 1

/-- Each depth can follow the one before it. -/
def Nested : Option Nat → List Nat → Prop
  | _, [] => True
  | previous, d :: ds => CanFollow previous d ∧ Nested (some d) ds

mutual

/-- The rows of a tree fit behind every row that is not shallower than its parent, if what follows
fits behind every row that is not shallower than the tree. -/
theorem nested_rowsAt_append {α : Type} {previous depth : Nat} {behind : List Nat}
    (hdepth : CanFollow (some previous) depth)
    (hbehind : ∀ last, depth ≤ last → Nested (some last) behind) :
    ∀ t : Tree α, Nested (some previous) ((Tree.rowsAt depth t).map Prod.fst ++ behind)
  | .node _ ts => ⟨hdepth, nested_forestRows_append (Nat.le_refl depth) hbehind ts⟩

theorem nested_forestRows_append {α : Type} {previous depth : Nat} {behind : List Nat}
    (hprevious : depth ≤ previous) (hbehind : ∀ last, depth ≤ last → Nested (some last) behind) :
    ∀ ts : List (Tree α),
      Nested (some previous) ((Tree.forestRows (depth + 1) ts).map Prod.fst ++ behind)
  | [] => hbehind previous hprevious
  | t :: ts => by
    rw [Tree.forestRows, List.map_append, List.append_assoc]
    have hdepth : CanFollow (some previous) (depth + 1) :=
      ⟨Nat.succ_pos depth, Nat.succ_le_succ hprevious⟩
    exact nested_rowsAt_append hdepth
      (fun last hlast => nested_forestRows_append (Nat.le_of_succ_le hlast) hbehind ts) t

end

/-- The rows of every tree are nested. -/
theorem nested_rows {α : Type} (t : Tree α) : Nested none (t.rows.map Prod.fst) := by
  obtain ⟨a, ts⟩ := t
  have h := @nested_forestRows_append α 0 0 [] (Nat.le_refl 0) (fun _ _ => trivial) ts
  rw [List.append_nil] at h
  exact ⟨rfl, h⟩

/-! ## Taking in rows -/

/-- The failure of a row that cannot follow those before it. -/
def Row.fault (r : Row) : DumpError :=
  if r.depth = 0 then .multipleRoots r.number else r.tooDeep

/-- The nodes of rows with their depths, if the given file was mentioned before. -/
def declarations (lastFile : Option String) : List Row → List (Nat × Declaration)
  | [] => []
  | r :: rs => (r.depth, r.declaration lastFile) :: declarations (lastFile? lastFile r.text) rs

namespace Reading

/-- The depth of the innermost open branch, if there is one. -/
def depth? (s : Reading) : Option Nat := s.spine.map Tree.Spine.depth

/-- The rows of the open branches, and of the trees that hang below them. -/
def rows (s : Reading) : List (Nat × Declaration) := (s.spine.map Tree.Spine.rows).getD []

/-- What taking in a row does. -/
structure IsNext (s : Reading) (r : Row) (s' : Reading) : Prop where
  depth : s'.depth? = some r.depth
  rows : s'.rows = s.rows ++ [(r.depth, r.declaration s.lastFile)]
  lastFile : s'.lastFile = lastFile? s.lastFile r.text

theorem exists_add {s : Reading} {r : Row} (h : CanFollow s.depth? r.depth) :
    ∃ s', s.add r = .ok s' ∧ s.IsNext r s' := by
  obtain ⟨spine, lastFile⟩ := s
  cases spine with
  | none =>
    have hroot : r.depth = 0 := h
    refine ⟨_, if_pos hroot, ?_, ?_, rfl⟩
    · rw [hroot]
      rfl
    · rw [hroot]
      rfl
  | some spine =>
    obtain ⟨hpos, hle⟩ : 1 ≤ r.depth ∧ r.depth ≤ spine.depth + 1 := h
    refine ⟨_, (if_neg (Nat.ne_of_gt hpos)).trans (if_neg (Nat.not_lt.2 hle)), ?_, ?_, rfl⟩
    · exact congrArg some (Tree.Spine.depth_add hpos hle _)
    · exact Tree.Spine.rows_add hpos hle _

theorem add_of_not_canFollow {s : Reading} {r : Row} (h : ¬ CanFollow s.depth? r.depth) :
    s.add r = .error r.fault := by
  obtain ⟨spine, lastFile⟩ := s
  cases spine with
  | none =>
    have hroot : ¬ r.depth = 0 := h
    rw [add, if_neg hroot, Row.fault, if_neg hroot]
  | some spine =>
    by_cases hroot : r.depth = 0
    · simp only [add, Row.fault, if_pos hroot]
    · have hdeep : spine.depth + 1 < r.depth :=
        Nat.lt_of_not_le fun hle => h ⟨Nat.one_le_iff_ne_zero.2 hroot, hle⟩
      simp only [add, Row.fault, if_neg hroot, if_pos hdeep]

/-- Rows that are nested are taken in as they are. -/
theorem exists_foldlM_add {s : Reading} {rs : List Row} (h : Nested s.depth? (rs.map Row.depth)) :
    ∃ s', rs.foldlM add s = .ok s' ∧ s'.rows = s.rows ++ declarations s.lastFile rs := by
  induction rs generalizing s with
  | nil => exact ⟨s, rfl, (List.append_nil _).symm⟩
  | cons r rs ih =>
    obtain ⟨hr, hrs⟩ := h
    obtain ⟨next, hadd, hnext⟩ := exists_add hr
    obtain ⟨s', hrun, hrows⟩ := ih (hnext.depth ▸ hrs)
    refine ⟨s', ?_, ?_⟩
    · rw [List.foldlM_cons, hadd]
      exact hrun
    · rw [hrows, hnext.rows, hnext.lastFile, List.append_assoc]
      rfl

/-- The rows fail at the end of their shortest start that is not nested. -/
theorem exists_of_not_nested {s : Reading} {rs : List Row}
    (h : ¬ Nested s.depth? (rs.map Row.depth)) :
    ∃ before r after, rs = before ++ r :: after ∧ Nested s.depth? (before.map Row.depth) ∧
      ¬ Nested s.depth? ((before ++ [r]).map Row.depth) ∧ rs.foldlM add s = .error r.fault := by
  induction rs generalizing s with
  | nil => exact absurd trivial h
  | cons r rs ih =>
    by_cases hr : CanFollow s.depth? r.depth
    · obtain ⟨next, hadd, hnext⟩ := exists_add hr
      have hrs : ¬ Nested next.depth? (rs.map Row.depth) := by
        rw [hnext.depth]
        exact fun hrs => h ⟨hr, hrs⟩
      obtain ⟨before, e, after, rfl, hbefore, he, hrun⟩ := ih hrs
      rw [hnext.depth] at hbefore he
      refine ⟨r :: before, e, after, rfl, ⟨hr, hbefore⟩, fun hn => he hn.2, ?_⟩
      rw [List.foldlM_cons, hadd]
      exact hrun
    · refine ⟨[], r, rs, rfl, trivial, fun hn => hr hn.1, ?_⟩
      rw [List.foldlM_cons, add_of_not_canFollow hr]
      rfl

/-- The tree has the rows that were taken in. -/
theorem exists_tree {s : Reading} (h : s.rows ≠ []) : ∃ t, s.tree = .ok t ∧ t.rows = s.rows := by
  obtain ⟨spine, lastFile⟩ := s
  cases spine with
  | none => exact absurd rfl h
  | some spine => exact ⟨spine.tree, rfl, spine.rows_tree⟩

end Reading

/-- The depths, the kinds and the details that are read do not depend on the files. -/
theorem map_declarations (lastFile : Option String) (rs : List Row) :
    ((declarations lastFile rs).map fun x => (x.1, x.2.kind, x.2.detail)) =
      rs.map fun r => (r.depth, r.kind, Detail.ofText r.kind r.text) := by
  induction rs generalizing lastFile with
  | nil => rfl
  | cons r rs ih => exact congrArg (List.cons _) (ih _)

theorem map_fst_declarations (lastFile : Option String) (rs : List Row) :
    (declarations lastFile rs).map Prod.fst = rs.map Row.depth := by
  have h := congrArg (List.map Prod.fst) (map_declarations lastFile rs)
  rwa [List.map_map, List.map_map] at h

/-! ## Reading -/

theorem read_of_rows_eq_nil {dump : String} (h : rows dump = []) : read dump = .error .empty := by
  rw [read, h]
  rfl

theorem exists_read_of_nested {dump : String} (hne : rows dump ≠ [])
    (h : Nested none ((rows dump).map Row.depth)) :
    ∃ t, read dump = .ok t ∧ t.rows = declarations none (rows dump) := by
  obtain ⟨s, hrun, hrows⟩ := Reading.exists_foldlM_add (s := {}) h
  have hsome : s.rows ≠ [] := by
    intro hnil
    have hdepths := map_fst_declarations none (rows dump)
    rw [← show s.rows = declarations none (rows dump) from hrows, hnil, List.map_nil, eq_comm,
      List.map_eq_nil_iff] at hdepths
    exact hne hdepths
  obtain ⟨t, ht, htree⟩ := Reading.exists_tree hsome
  refine ⟨t, ?_, htree.trans hrows⟩
  rw [read, hrun]
  exact ht

theorem exists_fault_of_not_nested {dump : String} (h : ¬ Nested none ((rows dump).map Row.depth)) :
    ∃ before r after, rows dump = before ++ r :: after ∧ Nested none (before.map Row.depth) ∧
      ¬ Nested none ((before ++ [r]).map Row.depth) ∧ read dump = .error r.fault := by
  obtain ⟨before, r, after, hrows, hbefore, hr, hrun⟩ := Reading.exists_of_not_nested (s := {}) h
  refine ⟨before, r, after, hrows, hbefore, hr, ?_⟩
  rw [read, hrun]
  rfl

theorem read_eq_ok_iff {dump : String} {t : Tree Declaration} :
    read dump = .ok t ↔
      rows dump ≠ [] ∧ Nested none ((rows dump).map Row.depth) ∧
        t.rows = declarations none (rows dump) := by
  constructor
  · intro ht
    have hne : rows dump ≠ [] := by
      intro hnil
      rw [read_of_rows_eq_nil hnil] at ht
      cases ht
    have hnested : Nested none ((rows dump).map Row.depth) := by
      by_contra hnot
      obtain ⟨-, r, -, -, -, -, hread⟩ := exists_fault_of_not_nested hnot
      rw [hread] at ht
      cases ht
    obtain ⟨u, hu, hrows⟩ := exists_read_of_nested hne hnested
    rw [ht, Except.ok.injEq] at hu
    exact ⟨hne, hnested, hu ▸ hrows⟩
  · rintro ⟨hne, hnested, hrows⟩
    obtain ⟨u, hu, hrows'⟩ := exists_read_of_nested hne hnested
    rw [hu, Tree.rows_injective (hrows'.trans hrows.symm)]

theorem exists_row_of_mem_rows {dump : String} {t : Tree Declaration} (h : read dump = .ok t)
    {d : Declaration} (hd : d ∈ t.rows.map Prod.snd) :
    ∃ r ∈ rows dump, d.kind = r.kind ∧ d.detail = Detail.ofText r.kind r.text := by
  rw [(read_eq_ok_iff.1 h).2.2] at hd
  obtain ⟨row, hrow, rfl⟩ := List.mem_map.1 hd
  have hmem :=
    List.mem_map_of_mem (f := fun x : Nat × Declaration => (x.1, x.2.kind, x.2.detail)) hrow
  rw [map_declarations] at hmem
  obtain ⟨r, hr, hrow⟩ := List.mem_map.1 hmem
  simp only [Prod.mk.injEq] at hrow
  exact ⟨r, hr, hrow.2.1.symm, hrow.2.2.symm⟩

theorem map_depth_items (dump : String) :
    (items dump).map Item.depth = (rows dump).map Row.depth := by
  rw [← map_item_rows, List.map_map]
  rfl

theorem read_of_not_nested {dump : String} (h : ¬ Nested none ((items dump).map Item.depth)) :
    ∃ before i after, items dump = before ++ i :: after ∧ Nested none (before.map Item.depth) ∧
      ¬ Nested none ((before ++ [i]).map Item.depth) ∧
      if i.depth = 0 then read dump = .error (.multipleRoots i.number)
      else ∃ offset length, read dump = .error (.indentation i.number offset length) := by
  rw [map_depth_items] at h
  obtain ⟨before, r, after, hsplit, hbefore, hr, hread⟩ := exists_fault_of_not_nested h
  have hdepth (rs : List Row) : (rs.map Row.item).map Item.depth = rs.map Row.depth := by
    rw [List.map_map]
    rfl
  refine ⟨before.map Row.item, r.item, after.map Row.item, ?_, ?_, ?_, ?_⟩
  · rw [← map_item_rows, hsplit, List.map_append, List.map_cons]
  · rwa [hdepth]
  · rwa [← List.map_singleton, ← List.map_append, hdepth]
  · split
    · next hz =>
      rw [hread, Row.fault, if_pos (show r.depth = 0 from hz)]
      rfl
    · next hz =>
      refine ⟨r.offset, max r.width 1, ?_⟩
      rw [hread, Row.fault, if_neg (show ¬ r.depth = 0 from hz)]
      rfl

/-- What reading a dump comes to.  It succeeds exactly if there is an item and the depths of the
items are nested; then the rows of the tree are the items, so the tree has a node for each line that
is not blank.  Otherwise the failure is that of the first item that cannot follow those before
it. -/
theorem read_outcome (dump : String) :
    ((∃ t, read dump = .ok t) ↔
      items dump ≠ [] ∧ Nested none ((items dump).map Item.depth)) ∧
    (∀ t, read dump = .ok t →
      (t.rows.map fun r => (r.1, r.2.kind, r.2.detail)) =
        ((items dump).map fun i => (i.depth, i.kind, Detail.ofText i.kind i.text)) ∧
      t.size = ((Text.lines dump).filter (!isBlankLine ·)).length) ∧
    (items dump = [] → read dump = .error .empty) ∧
    (items dump ≠ [] → ¬ Nested none ((items dump).map Item.depth) →
      ∃ before i after, items dump = before ++ i :: after ∧ Nested none (before.map Item.depth) ∧
        ¬ Nested none ((before ++ [i]).map Item.depth) ∧
        if i.depth = 0 then read dump = .error (.multipleRoots i.number)
        else ∃ offset length, read dump = .error (.indentation i.number offset length)) := by
  have hnil : items dump = [] ↔ rows dump = [] := by rw [← map_item_rows, List.map_eq_nil_iff]
  refine ⟨⟨?_, ?_⟩, fun t ht => ⟨?_, ?_⟩, fun hempty => read_of_rows_eq_nil (hnil.1 hempty),
    fun _ => read_of_not_nested⟩
  · rintro ⟨t, ht⟩
    obtain ⟨hne, hnested, -⟩ := read_eq_ok_iff.1 ht
    exact ⟨mt hnil.1 hne, by rwa [map_depth_items]⟩
  · rintro ⟨hne, hnested⟩
    rw [map_depth_items] at hnested
    obtain ⟨t, ht, -⟩ := exists_read_of_nested (mt hnil.2 hne) hnested
    exact ⟨t, ht⟩
  · rw [(read_eq_ok_iff.1 ht).2.2, map_declarations, ← map_item_rows, List.map_map]
    rfl
  · rw [← Tree.length_rows, (read_eq_ok_iff.1 ht).2.2, ← List.length_map Prod.fst,
      map_fst_declarations, List.length_map, length_rows]

end AddressExport.Dump
