import AddressExport.Proofs.Dump.Drawing
import AddressExport.Proofs.Dump.Reading
import AddressExport.Proofs.Text.Lines

/-!
# Drawings are read back

`Dump.read` undoes `Dump.drawing` (`read_drawing`).  The reader of the places keeps the path that
the printer printed last: this holds after each place (`lastOf_append_place`), so after each node
(`lastFile?_text`), and so for the nodes in preorder (`declarations_of_printed`).
-/

namespace AddressExport.Dump

open Place (isBreak isNumber isPlain isPlain_eq_true_iff isPlain_of_isAlphanum isPlain_of_isDigit
  isDigit_of_mem_toString isNumber_toString placesIn)

/-! ## Places -/

namespace Spot

/-- The place that a reader finds where a place is written. -/
def place (last : Option String) (s : Spot) : Place :=
  if last = some s.path then .sameFile else .inFile s.path

/-- A written place holds no character that could part it or take something off it. -/
theorem isPlain_of_mem_spell (last : Option String) (s : Spot) :
    ∀ c ∈ (s.spell last).toList, isPlain c = true := by
  have hnumber (n : Nat) : ∀ c ∈ (toString n).toList, isPlain c = true := fun c hc =>
    (isPlain_of_isDigit (isDigit_of_mem_toString c hc)).1
  have hpath : ∀ c ∈ s.path.toList, isPlain c = true := List.all_eq_true.1 s.isPath.plain
  have hcolon : ∀ c ∈ ":".toList, isPlain c = true := List.all_eq_true.1 rfl
  have hline : ∀ c ∈ "line:".toList, isPlain c = true := List.all_eq_true.1 rfl
  have hcol : ∀ c ∈ "col:".toList, isPlain c = true := List.all_eq_true.1 rfl
  unfold spell
  split
  · split
    · simp only [String.toList_append, List.forall_mem_append]
      exact ⟨⟨⟨hline, hnumber s.line⟩, hcolon⟩, hnumber s.col⟩
    · simp only [String.toList_append, List.forall_mem_append]
      exact ⟨hcol, hnumber s.col⟩
  · simp only [String.toList_append, List.forall_mem_append]
    exact ⟨⟨⟨⟨hpath, hcolon⟩, hnumber s.line⟩, hcolon⟩, hnumber s.col⟩

theorem ofToken?_spell (last : Option String) (s : Spot) :
    Place.ofToken? (s.spell last).toList = some (s.place last) := by
  have hline := isNumber_toString s.line
  have hcol := isNumber_toString s.col
  unfold spell place
  split
  · split
    · have hjoin : [':'].intercalate [(toString s.line).toList, (toString s.col).toList] =
          (toString s.line).toList ++ (":".toList ++ (toString s.col).toList) := by
        rw [List.intercalate_cons_cons, List.intercalate_singleton, List.append_assoc]
        rfl
      have hall : ∀ n ∈ [(toString s.line).toList, (toString s.col).toList], isNumber n = true :=
        List.forall_mem_cons.2 ⟨hline, List.forall_mem_cons.2 ⟨hcol, by simp⟩⟩
      simp only [String.toList_append, List.append_assoc]
      rw [← hjoin, Place.ofToken?_onLine (by simp) hall]
    · rw [String.toList_append, Place.ofToken?_inColumn hcol]
  · have h := Place.ofToken?_inFile s.isPath hline hcol
    rw [String.ofList_toList] at h
    simp only [String.toList_append, List.append_assoc]
    exact h

/-- Signs of a range around a written place do not hide it. -/
theorem placesIn_spell (last : Option String) (s : Spot) (m n : Nat) :
    placesIn (List.replicate m '<' ++ ((s.spell last).toList ++ List.replicate n '>')) =
      [s.place last] := by
  have hplain := isPlain_of_mem_spell last s
  have hbreak : ∀ c ∈ List.replicate m '<' ++ ((s.spell last).toList ++ List.replicate n '>'),
      isBreak c = false := by
    simp only [List.forall_mem_append]
    refine ⟨fun c hc => ?_, fun c hc => (isPlain_eq_true_iff.1 (hplain c hc)).1, fun c hc => ?_⟩
    · rw [List.eq_of_mem_replicate hc]
      rfl
    · rw [List.eq_of_mem_replicate hc]
      rfl
  rw [Place.placesIn_eq_toList hbreak, Place.unwrap_wrapped hplain, ofToken?_spell,
    Option.toList_some]

end Spot

/-! ## Nodes -/

namespace Node

theorem placesIn_address (n : Node) : placesIn ("0x" ++ n.address).toList = [] := by
  have hzero : ∀ c ∈ "0x".toList, c.isAlphanum = true := List.all_eq_true.1 rfl
  have halnum : ∀ c ∈ ("0x" ++ n.address).toList, c.isAlphanum = true := by
    rw [String.toList_append, List.forall_mem_append]
    exact ⟨hzero, List.all_eq_true.1 n.address_alphanum⟩
  have hplain : ∀ c ∈ ("0x" ++ n.address).toList, isPlain c = true := fun c hc =>
    (isPlain_of_isAlphanum (halnum c hc)).1
  have hbreak : ∀ c ∈ ("0x" ++ n.address).toList, isBreak c = false := fun c hc =>
    (isPlain_eq_true_iff.1 (hplain c hc)).1
  have hunwrap : Place.unwrap ("0x" ++ n.address).toList = ("0x" ++ n.address).toList := by
    have h := Place.unwrap_wrapped hplain 0 0
    simpa using h
  have hnone : Place.ofToken? ("0x" ++ n.address).toList = none := by
    rw [← Option.not_isSome_iff_eq_none, Place.isSome_ofToken?_iff hbreak]
    intro h
    exact (isPlain_of_isAlphanum (halnum ':' h.colon_mem)).2 rfl
  rw [Place.placesIn_eq_toList hbreak, hunwrap, hnone, Option.toList_none]

theorem placesIn_rest (n : Node) : placesIn n.rest.toList = [] := by
  rw [placesIn, List.filterMap_eq_nil_iff]
  intro piece hpiece
  have hbreak : ∀ c ∈ Place.unwrap piece, isBreak c = false := fun c hc =>
    Text.not_of_mem_splitAll hpiece c (Place.mem_of_mem_unwrap hc)
  rw [← Option.not_isSome_iff_eq_none, Place.isSome_ofToken?_iff hbreak]
  exact n.rest_places piece hpiece

theorem toList_text_of_no_extent (last : Option String) {n : Node} (h : n.extent = none) :
    (n.text last).toList = ("0x" ++ n.address).toList ++ ' ' :: n.rest.toList := by
  simp only [text, h, String.toList_append, List.append_assoc]
  rfl

/-- The printed tokens: the address, the two ends of the range, the place of the name and the
rest. -/
theorem toList_text_of_extent (last : Option String) {n : Node} {e : Extent}
    (h : n.extent = some e) :
    (n.text last).toList =
      ("0x" ++ n.address).toList ++ ' ' :: ('<' :: (e.start.spell last).toList) ++ ',' :: [] ++
        ' ' :: ((e.stop.spell (some e.start.path)).toList ++ ['>']) ++
        ' ' :: (e.name.spell (some e.stop.path)).toList ++ ' ' :: n.rest.toList := by
  simp only [text, h, String.toList_append, List.append_assoc, List.cons_append, List.nil_append]
  rfl

theorem placesIn_text (last : Option String) (n : Node) :
    placesIn (n.text last).toList =
      match n.extent with
      | none => []
      | some e =>
        [e.start.place last, e.stop.place (some e.start.path),
          e.name.place (some e.stop.path)] := by
  have haddress := placesIn_address n
  have hrest := placesIn_rest n
  have hblank (a b : List Char) : placesIn (a ++ ' ' :: b) = placesIn a ++ placesIn b :=
    Place.placesIn_append_break rfl a b
  have hcomma (a b : List Char) : placesIn (a ++ ',' :: b) = placesIn a ++ placesIn b :=
    Place.placesIn_append_break rfl a b
  cases he : n.extent with
  | none =>
    rw [toList_text_of_no_extent last he, hblank, haddress, hrest]
    rfl
  | some e =>
    have hstart := e.start.placesIn_spell last 1 0
    have hstop := e.stop.placesIn_spell (some e.start.path) 0 1
    have hname := e.name.placesIn_spell (some e.stop.path) 0 0
    simp only [List.replicate_zero, List.replicate_one, List.append_nil, List.nil_append,
      List.singleton_append] at hstart hstop hname
    rw [toList_text_of_extent last he, hblank, hblank, hblank, hcomma, hblank, haddress, hstart,
      hstop, hname, hrest]
    rfl

end Node

/-! ## The path printed last -/

/-- The path mentioned last, after some places. -/
def lastOf (last : Option String) (places : List Place) : Option String :=
  (places.filterMap Place.spelled?).getLast?.or last

/-- A reader that kept the path printed last keeps it through the next place. -/
theorem lastOf_append_place {last previous : Option String} {places : List Place}
    (h : lastOf last places = previous) (s : Spot) :
    lastOf last (places ++ [s.place previous]) = some s.path := by
  unfold Spot.place
  split
  · next hsame => simpa [lastOf, Place.spelled?, hsame] using h
  · simp [lastOf, Place.spelled?]

namespace Node

theorem all_trim_text (last : Option String) (n : Node) :
    Place.all (Text.trim (n.text last)) = placesIn (n.text last).toList := by
  rw [Place.all_eq_placesIn, Text.toList_trim, Place.placesIn_trimBlanks]

theorem lastFile?_text (last : Option String) (n : Node) :
    lastFile? last (Text.trim (n.text last)) = n.lastPath last := by
  have hlast : lastFile? last (Text.trim (n.text last)) =
      lastOf last (placesIn (n.text last).toList) := by
    rw [lastFile?, all_trim_text, lastOf]
  rw [hlast, placesIn_text, lastPath]
  cases n.extent with
  | none => rfl
  | some e =>
    have hstart : lastOf last [e.start.place last] = some e.start.path :=
      @lastOf_append_place last last [] rfl e.start
    have hstop := lastOf_append_place hstart e.stop
    exact lastOf_append_place hstop e.name

theorem startFile?_text (last : Option String) (n : Node) :
    startFile? last (Text.trim (n.text last)) = n.file last := by
  rw [startFile?, all_trim_text, placesIn_text, file]
  cases n.extent with
  | none => rfl
  | some e =>
    by_cases h : last = some e.start.path
    · simp only [Spot.place, if_pos h]
      exact h
    · simp only [Spot.place, if_neg h]

theorem lineFeed_not_mem_text (last : Option String) (n : Node) : '\n' ∉ (n.text last).toList := by
  have hspell (previous : Option String) (s : Spot) : '\n' ∉ (s.spell previous).toList := by
    intro h
    exact absurd (s.isPlain_of_mem_spell previous '\n' h) (by decide)
  have haddress : '\n' ∉ n.address.toList := by
    intro h
    exact absurd (List.all_eq_true.1 n.address_alphanum '\n' h) (by decide)
  have hrest := n.rest_line
  unfold text
  cases n.extent with
  | none => simp [haddress, hrest]
  | some e => simp [haddress, hrest, hspell]

theorem isBlank_of_mem_kind (n : Node) : ∀ c ∈ n.kind.toList, Text.isBlank c = false := by
  intro c hc
  exact Bool.eq_false_iff.2 (List.any_eq_false.1 n.kind_not_blank c hc)

theorem toList_text_ne_nil (last : Option String) (n : Node) : (n.text last).toList ≠ [] := by
  unfold text
  simp

end Node

/-! ## Lines -/

section Line

variable {line : String} {depth : Nat} {last : Option String} {n : Node}

theorem toList_of_isDrawn (h : IsDrawn line (depth, (n.print last).1)) :
    ∃ branches : List Char,
      line.toList = branches ++ (n.kind.toList ++ ' ' :: (n.text last).toList) ∧
      (∀ c ∈ branches, isDrawing c = true) ∧ branches.length = 2 * depth := by
  obtain ⟨branches, hline, hbranches, hlength⟩ := h
  refine ⟨branches, ?_, List.all_eq_true.1 hbranches, hlength⟩
  rw [hline, Node.print, String.toList_append, String.toList_append, List.append_assoc]
  rfl

theorem lineFeed_not_mem_of_isDrawn (h : IsDrawn line (depth, (n.print last).1)) :
    '\n' ∉ line.toList := by
  obtain ⟨branches, hline, hbranches, -⟩ := toList_of_isDrawn h
  have hkind := n.isBlank_of_mem_kind '\n'
  rw [hline]
  simp only [List.mem_append, List.mem_cons, not_or]
  refine ⟨fun h => ?_, fun h => ?_, by decide, n.lineFeed_not_mem_text last⟩
  · exact absurd (hbranches '\n' h) (by decide)
  · exact absurd (hkind h) (by decide)

/-- What a drawn line shows, with or without a carriage return at its end. -/
theorem shown_of_isDrawn (h : IsDrawn line (depth, (n.print last).1)) (number : Nat) :
    isBlankLine (String.ofList (Text.chomp line.toList)) = false ∧
      Item.ofLine (String.ofList (Text.chomp line.toList)) number =
        ⟨number, depth, n.kind, Text.trim (n.text last)⟩ := by
  obtain ⟨branches, hline, hbranches, hlength⟩ := toList_of_isDrawn h
  have hchomp : (String.ofList (Text.chomp line.toList)).toList =
      branches ++ (n.kind.toList ++ ' ' :: Text.chomp (n.text last).toList) := by
    have h :=
      Text.chomp_append (a := branches ++ n.kind.toList ++ [' ']) (n.toList_text_ne_nil last)
    simpa [hline] using h
  have hdepth : branches.length / 2 = depth := by omega
  have htext : Text.trim (String.ofList (Text.chomp (n.text last).toList)) =
      Text.trim (n.text last) := by
    rw [Text.trim, Text.trim, String.toList_ofList, Text.trimBlanks_chomp]
  have hshown := ofLine_of_toList_eq hchomp hbranches (mt String.toList_eq_nil_iff.1 n.kind_ne)
    n.kind_head n.isBlank_of_mem_kind number
  rwa [hdepth, htext, String.ofList_toList] at hshown

end Line

/-! ## Trees -/

/-- What a row shows of a printed node. -/
def shown (last : Option String) (n : Node) : (String × String) × Option String :=
  ((n.kind, Text.trim (n.text last)), n.lastPath last)

/-- Drawn lines show the nodes that are drawn. -/
theorem shown_of_forall₂ {ls : List String} {last : Option String} {ns : List (Nat × Node)}
    (h : List.Forall₂ IsDrawn ls (Tree.threadRows Node.print last ns).1) :
    (∀ l ∈ ls, '\n' ∉ l.toList) ∧
      ∀ number, ((((ls.map fun l => String.ofList (Text.chomp l.toList)).zipIdx number).filter
        fun x => !isBlankLine x.1).map fun x => Item.ofLine x.1 x.2).map
          (fun i => (i.depth, i.kind, i.text)) = (Tree.threadRows shown last ns).1 := by
  induction ns generalizing ls last with
  | nil =>
    cases h
    exact ⟨by simp, fun _ => rfl⟩
  | cons n ns ih =>
    rw [Tree.threadRows] at h
    obtain ⟨l, ls, hline, hrest, rfl⟩ := List.forall₂_cons_right_iff.1 h
    obtain ⟨hlineFeed, hitems⟩ := ih hrest
    refine ⟨List.forall_mem_cons.2 ⟨lineFeed_not_mem_of_isDrawn hline, hlineFeed⟩, fun number => ?_⟩
    obtain ⟨hblank, hitem⟩ := shown_of_isDrawn hline number
    rw [List.map_cons, List.zipIdx_cons, List.filter_cons_of_pos (by simp [hblank]), List.map_cons,
      List.map_cons, hitem, hitems]
    rfl

/-- Nodes are read with the files in which they begin. -/
theorem declarations_of_printed {rs : List Row} {last : Option String} {ns : List (Nat × Node)}
    (h : rs.map (fun r => (r.depth, r.kind, r.text)) = (Tree.threadRows shown last ns).1) :
    declarations last rs = (Tree.threadRows Node.declare last ns).1 := by
  induction ns generalizing rs last with
  | nil =>
    rw [Tree.threadRows, List.map_eq_nil_iff] at h
    rw [h]
    rfl
  | cons n ns ih =>
    cases rs with
    | nil => cases h
    | cons r rs =>
      obtain ⟨hr, hrs⟩ := List.cons.inj h
      simp only [shown, Prod.mk.injEq] at hr
      obtain ⟨hdepth, hkind, htext⟩ := hr
      rw [declarations, Row.declaration, hdepth, hkind, htext, Node.startFile?_text,
        Node.lastFile?_text]
      exact congrArg (List.cons _) (ih hrs)

/-- Reading a drawing gives the tree that was drawn, each node with the file in which it begins. -/
theorem read_drawing (t : Tree Node) : read (drawing t) = .ok (t.thread Node.declare none).1 := by
  have hdrawn : List.Forall₂ IsDrawn (t.thread Node.print none).1.draw
      (Tree.threadRows Node.print none t.rows).1 := by
    rw [← Tree.rows_thread]
    exact forall₂_draw _
  obtain ⟨hlines, hitems⟩ := shown_of_forall₂ hdrawn
  have hrows : (rows (drawing t)).map (fun r => (r.depth, r.kind, r.text)) =
      (Tree.threadRows shown none t.rows).1 := by
    rw [← hitems 1, ← Text.lines_unlines_chomp hlines, ← drawing, ← items, ← map_item_rows,
      List.map_map]
    rfl
  have hdepths : (rows (drawing t)).map Row.depth = t.rows.map Prod.fst := by
    have h := congrArg (List.map Prod.fst) hrows
    rwa [List.map_map, Tree.map_fst_threadRows] at h
  refine read_eq_ok_iff.2 ⟨fun hnil => ?_, ?_, ?_⟩
  · rw [hnil, List.map_nil, eq_comm, List.map_eq_nil_iff] at hdepths
    obtain ⟨a, ts⟩ := t
    cases hdepths
  · rw [hdepths]
    exact nested_rows t
  · rw [Tree.rows_thread]
    exact (declarations_of_printed hrows).symm

/-- A function of one file with a parameter of another, and a comment without a place. -/
def twoFiles : Tree Node :=
  .node { kind := "TranslationUnitDecl", address := "1", extent := none, rest := "" }
    [.node
      { kind := "FunctionDecl"
        address := "2a"
        extent := some
          { start := { path := "a.h", line := 1, col := 1, showsLine := true }
            stop := { path := "a.h", line := 2, col := 9, showsLine := true }
            name := { path := "b.h", line := 1, col := 5, showsLine := false } }
        rest := "f 'int (int)'" }
      [.node
        { kind := "ParmVarDecl"
          address := "2b"
          extent := some
            { start := { path := "b.h", line := 1, col := 7, showsLine := false }
              stop := { path := "b.h", line := 1, col := 11, showsLine := false }
              name := { path := "b.h", line := 1, col := 11, showsLine := false } }
          rest := "x 'int'" } []],
    .node { kind := "FullComment", address := "3", extent := none, rest := "" } []]

theorem read_drawing_twoFiles :
    drawing twoFiles =
        "TranslationUnitDecl 0x1 \n" ++
        "|-FunctionDecl 0x2a <a.h:1:1, line:2:9> b.h:1:5 f 'int (int)'\n" ++
        "| `-ParmVarDecl 0x2b <col:7, col:11> col:11 x 'int'\n" ++
        "`-FullComment 0x3 \n" ∧
      ∃ t, read (drawing twoFiles) = .ok t ∧
        t.rows =
          [(0, ⟨"TranslationUnitDecl", .translationUnit, none⟩),
            (1, ⟨"FunctionDecl", .typed "f" "int (int)" "", some "a.h"⟩),
            (2, ⟨"ParmVarDecl", .typed "x" "int" "", some "b.h"⟩),
            (1, ⟨"FullComment", .verbatim "0x3", some "b.h"⟩)] :=
  ⟨by decide +kernel, _, read_drawing twoFiles, by decide +kernel⟩

end AddressExport.Dump
