import AddressExport.Proofs.Declaration.Cleanup
import AddressExport.Proofs.Declaration.Detail
import AddressExport.Proofs.Dump.Reading
import AddressExport.Proofs.Traverse
import AddressExport.Proofs.Tree.Restrict

/-!
# Listings are read back

What a dump says of a node fits on one line of a listing (`fitsLine_text_ofText`).  So a listing has
one line for each node that it shows, and the indentation of the lines is read as a drawing of the
tree of those nodes (`read_listing`).
-/

namespace AddressExport

/-! ## Details on one line -/

namespace Text

/-- Whether a text stands on one line and does not end in a blank. -/
structure FitsLine (s : List Char) : Prop where
  lineFeed_not_mem : '\n' ∉ s
  getLast : ∀ c ∈ s.getLast?, isBlank c = false

theorem fitsLine_nil : FitsLine [] := ⟨List.not_mem_nil, by simp⟩

theorem fitsLine_of_getLast? {s : List Char} {c : Char} (hline : '\n' ∉ s)
    (hlast : s.getLast? = some c) (hc : isBlank c = false) : FitsLine s :=
  ⟨hline, fun d hd => by rwa [Option.some.inj (hd.symm.trans hlast)]⟩

theorem FitsLine.append {a b : List Char} (ha : '\n' ∉ a) (hne : b ≠ []) (hb : FitsLine b) :
    FitsLine (a ++ b) := by
  refine ⟨fun h => (List.mem_append.1 h).elim ha hb.lineFeed_not_mem, ?_⟩
  rw [List.getLast?_append_of_ne_nil a hne]
  exact hb.getLast

theorem IsOneWord.fitsLine {w : List Char} (h : IsOneWord w) : FitsLine w :=
  ⟨fun hmem => absurd (h.not_isBlank _ hmem) (by decide),
    fun c hc => h.not_isBlank c (List.mem_of_getLast? hc)⟩

theorem IsTrimmed.fitsLine {s : List Char} (h : IsTrimmed s) (hline : '\n' ∉ s) : FitsLine s :=
  ⟨hline, h.getLast⟩

/-- Words that are joined fit on a line. -/
theorem fitsLine_intercalate {ws : List (List Char)} (h : ∀ w ∈ ws, IsOneWord w) :
    FitsLine ([' '].intercalate ws) := by
  have hspaced := isSpaced_intercalate h
  exact hspaced.isTrimmed.fitsLine fun hmem => absurd (hspaced.eq_space '\n' hmem rfl) (by decide)

end Text

namespace Detail

open Text (FitsLine IsOneWord)

variable {kind text : String}

theorem isOneWord_of_lastName? {words : List String} (h : ∀ w ∈ words, IsOneWord w.toList)
    {name : String} (hname : lastName? words = some name) : IsOneWord name.toList :=
  h name (List.mem_of_getLast? (Option.filter_eq_some_iff.1 hname).1)

theorem fitsLine_text_scope {words : List String} (h : ∀ w ∈ words, IsOneWord w.toList)
    (isInline : Bool) : FitsLine (scope (lastName? words) isInline).text.toList := by
  have hname : IsOneWord ((lastName? words).getD "(anonymous)").toList := by
    cases hlast : lastName? words with
    | none => decide
    | some name => exact isOneWord_of_lastName? h hlast
  rw [Detail.text]
  cases isInline with
  | false => simpa using hname.fitsLine
  | true =>
    rw [if_pos rfl, String.toList_append]
    exact FitsLine.append hname.fitsLine.lineFeed_not_mem (by decide)
      (Text.fitsLine_of_getLast? (by decide) rfl rfl)

theorem fitsLine_text_ofScope (text : String) : FitsLine (ofScope text).text.toList := by
  have hwords : ∀ w ∈ Text.words text, IsOneWord w.toList := fun w hw =>
    Text.isOneWord_of_mem_words hw
  unfold ofScope
  dsimp only
  split
  · exact fitsLine_text_scope (fun w hw => hwords w ((List.dropLast_sublist _).subset hw)) true
  · exact fitsLine_text_scope hwords false

theorem fitsLine_text_word (text : String) :
    FitsLine (word ((Text.words text).getLast?.getD "")).text.toList := by
  cases hlast : (Text.words text).getLast? with
  | none => exact Text.fitsLine_nil
  | some w => exact (Text.isOneWord_of_mem_words (List.mem_of_getLast? hlast)).fitsLine

theorem fitsLine_text_record (tag : RecordTag) {words : List String}
    (h : ∀ w ∈ words, IsOneWord w.toList) (hne : words ≠ []) :
    FitsLine (record tag (" ".intercalate words)).text.toList := by
  have hwords : ∀ w ∈ words.map String.toList, IsOneWord w := by simpa using h
  have hname : (" ".intercalate words).toList = [' '].intercalate (words.map String.toList) :=
    String.toList_intercalate
  rw [Detail.text, String.toList_append, hname]
  refine FitsLine.append ?_ (Text.intercalate_words_ne_nil hwords (by simpa using hne))
    (Text.fitsLine_intercalate hwords)
  cases tag <;> decide

theorem fitsLine_text_ofRecord (text : String) : FitsLine (ofRecord text).text.toList := by
  have homitted : FitsLine omitted.text.toList := Text.fitsLine_of_getLast? (by decide) rfl rfl
  have hwords : ∀ w ∈ (Text.words text).dropWhile fun w => (RecordTag.ofKeyword? w).isNone,
      IsOneWord w.toList :=
    fun w hw => Text.isOneWord_of_mem_words ((List.dropWhile_sublist _).subset hw)
  unfold ofRecord
  dsimp only
  split
  · split
    · next first second rest hdrop =>
      rw [hdrop] at hwords
      split
      · next tag _ _ _ =>
        refine fitsLine_text_record tag (fun w hw => hwords w ?_) (by simp)
        exact List.mem_cons_of_mem first ((List.dropLast_sublist _).subset hw)
      · exact homitted
    · exact homitted
  · exact homitted

theorem fitsLine_text_ofTyped? {d : Detail} (h : ofTyped? text = some d)
    (hline : '\n' ∉ text.toList) : FitsLine d.text.toList := by
  obtain ⟨name, signature, trailing, rfl⟩ :
      ∃ name signature trailing, d = .typed name signature trailing := by
    unfold ofTyped? at h
    split at h
    · obtain ⟨back, -, rfl⟩ := Option.map_eq_some_iff.1 h
      exact ⟨_, _, _, rfl⟩
    · cases h
  have hreadable := isReadable_of_ofTyped? h
  obtain ⟨front, rest, back, hpieces, hback, -, rfl⟩ := ofTyped?_eq_some_iff.1 h
  have hpiece : ∀ q ∈ front :: signature.toList :: rest, '\n' ∉ q := fun q hq hmem =>
    hline (Text.mem_of_mem_splitAll (hpieces ▸ hq) hmem)
  have hname : '\n' ∉ name.toList := by
    rcases hreadable.isDeclaredName with rfl | hname
    · decide
    · exact hname.isOneWord.fitsLine.lineFeed_not_mem
  have hfront : '\n' ∉ (name ++ " '" ++ signature).toList := by
    simp [hname, hpiece signature.toList (by simp)]
  have htrailing : '\n' ∉ Text.trimBlanks back := fun hmem =>
    hpiece back (by simp [List.mem_of_getLast? hback]) (Text.mem_of_mem_trimBlanks hmem)
  rw [Detail.text]
  split
  · rw [String.append_empty, String.toList_append]
    exact FitsLine.append hfront (by decide) (Text.fitsLine_of_getLast? (by decide) rfl rfl)
  · next hne =>
    have hfront' : '\n' ∉ (name ++ " '" ++ signature ++ "'" ++ " ").toList := by
      simpa using hfront
    rw [← String.append_assoc, String.toList_append]
    refine FitsLine.append hfront' (by simpa using hne) (hreadable.isTrimmed_trailing.fitsLine ?_)
    rwa [String.toList_ofList]

/-- What is read from one line is shown on one line. -/
theorem fitsLine_text_ofText (kind : String) (h : FitsLine text.toList) :
    FitsLine (ofText kind text).text.toList := by
  unfold ofText
  split
  · exact Text.fitsLine_nil
  split
  · exact fitsLine_text_ofScope text
  split
  · exact fitsLine_text_word text
  split
  · exact fitsLine_text_ofRecord text
  split
  · cases htyped : ofTyped? text with
    | none => exact h
    | some d => exact fitsLine_text_ofTyped? htyped h.lineFeed_not_mem
  split
  · exact Text.fitsLine_of_getLast? (by decide) rfl rfl
  · exact h

end Detail

/-! ## Lines of a listing -/

namespace Declaration

/-- Whether a node can be told from the line that shows it: its kind is a word that does not go on
with the indentation, and its detail fits on the line. -/
structure IsPrintable (d : Declaration) : Prop where
  kind_not_blank : ∀ c ∈ d.kind.toList, Text.isBlank c = false
  kind_head : ∀ c ∈ d.kind.toList.head?, Dump.isDrawing c = false
  fitsLine : Text.FitsLine d.detail.text.toList

variable {d : Declaration}

theorem toList_line (depth : Nat) (d : Declaration) :
    (line (depth, d)).toList =
      List.replicate (2 * depth) ' ' ++ (d.kind.toList ++ ':' :: d.detail.text.toList) := by
  simp [line]

theorem lineFeed_not_mem_line (h : d.IsPrintable) (depth : Nat) :
    '\n' ∉ (line (depth, d)).toList := by
  have hkind : '\n' ∉ d.kind.toList := fun hmem => absurd (h.kind_not_blank _ hmem) (by decide)
  rw [toList_line]
  simp [hkind, h.fitsLine.lineFeed_not_mem]

theorem getLast?_line_ne (h : d.IsPrintable) (depth : Nat) :
    (line (depth, d)).toList.getLast? ≠ some '\r' := by
  have hend : (line (depth, d)).toList.getLast? = (':' :: d.detail.text.toList).getLast? := by
    rw [toList_line, ← List.append_assoc, List.getLast?_append,
      Option.or_of_isSome (List.getLast?_isSome.2 (List.cons_ne_nil _ _))]
  rw [hend]
  intro hlast
  cases htext : d.detail.text.toList with
  | nil =>
    rw [htext] at hlast
    cases hlast
  | cons c text =>
    rw [htext, List.getLast?_cons_cons, ← htext] at hlast
    exact absurd (h.fitsLine.getLast _ hlast) (by decide)

/-- The indentation of a line is read as its drawing. -/
theorem depth_ofLine_line (h : d.IsPrintable) (depth number : Nat) :
    Dump.isBlankLine (line (depth, d)) = false ∧
      (Dump.Item.ofLine (line (depth, d)) number).depth = depth := by
  have hspaces : ∀ c ∈ List.replicate (2 * depth) ' ', Dump.isDrawing c = true := fun c hc => by
    rw [List.eq_of_mem_replicate hc]
    rfl
  constructor
  · rw [Dump.isBlankLine, toList_line, List.all_eq_false]
    exact ⟨':', by simp, by decide⟩
  · have hdrawing : ((line (depth, d)).toList.takeWhile Dump.isDrawing).length = 2 * depth := by
      rw [toList_line]
      cases hkind : d.kind.toList with
      | nil =>
        rw [List.nil_append, Text.takeWhile_append_cons hspaces (by decide), List.length_replicate]
      | cons c kind =>
        have hc : ¬ Dump.isDrawing c = true := by simp [h.kind_head c (by simp [hkind])]
        rw [List.cons_append, Text.takeWhile_append_cons hspaces hc, List.length_replicate]
    show ((line (depth, d)).toList.takeWhile Dump.isDrawing).length / 2 = depth
    omega

end Declaration

open Declaration (IsPrintable)

/-- Lines of a listing show the depths of their nodes. -/
theorem map_depth_of_lines {rs : List (Nat × Declaration)} (h : ∀ r ∈ rs, r.2.IsPrintable)
    (number : Nat) :
    ((((rs.map Declaration.line).zipIdx number).filter fun x => !Dump.isBlankLine x.1).map
      fun x => Dump.Item.ofLine x.1 x.2).map Dump.Item.depth = rs.map Prod.fst := by
  induction rs generalizing number with
  | nil => rfl
  | cons r rs ih =>
    rw [List.forall_mem_cons] at h
    obtain ⟨hblank, hdepth⟩ := Declaration.depth_ofLine_line h.1 r.1 number
    rw [List.map_cons, List.zipIdx_cons, List.filter_cons_of_pos (by simp [hblank]), List.map_cons,
      List.map_cons, List.map_cons, hdepth, ih h.2]

/-- The rows of a tree of printable nodes are read as a tree of the same shape. -/
theorem exists_read_unlines {t : Tree Declaration} (h : ∀ r ∈ t.rows, r.2.IsPrintable) :
    Text.lines (Text.unlines (t.rows.map Declaration.line)) = t.rows.map Declaration.line ∧
      ∃ u, Dump.read (Text.unlines (t.rows.map Declaration.line)) = .ok u ∧ u.shape = t.shape := by
  have hlines : Text.lines (Text.unlines (t.rows.map Declaration.line)) =
      t.rows.map Declaration.line := by
    apply Text.lines_unlines
    · rw [List.forall_mem_map]
      exact fun r hr => Declaration.lineFeed_not_mem_line (h r hr) r.1
    · rw [List.forall_mem_map]
      exact fun r hr => Declaration.getLast?_line_ne (h r hr) r.1
  have hdepths : (Dump.rows (Text.unlines (t.rows.map Declaration.line))).map Dump.Row.depth =
      t.rows.map Prod.fst := by
    rw [← Dump.map_depth_items, Dump.items, hlines, map_depth_of_lines h]
  have hne : Dump.rows (Text.unlines (t.rows.map Declaration.line)) ≠ [] := by
    intro hnil
    rw [hnil, List.map_nil, eq_comm, List.map_eq_nil_iff] at hdepths
    obtain ⟨a, ts⟩ := t
    cases hdepths
  have hnested := Dump.nested_rows t
  rw [← hdepths] at hnested
  obtain ⟨u, hu, hrows⟩ := Dump.exists_read_of_nested hne hnested
  refine ⟨hlines, u, hu, Tree.shape_eq_of_depths ?_⟩
  rw [hrows, Dump.map_fst_declarations, hdepths]

/-! ## Listings of dumps -/

/-- What a dump says of a node can be shown. -/
theorem isPrintable_of_read {dump : String} {t : Tree Declaration} (h : Dump.read dump = .ok t)
    {d : Declaration} (hd : d ∈ t.trails.map Tree.Trail.label) : d.IsPrintable := by
  rw [Tree.map_label_trails] at hd
  obtain ⟨r, hr, hkind, hdetail⟩ := Dump.exists_row_of_mem_rows h hd
  obtain ⟨hword, hhead⟩ := Dump.kind_of_mem_rows hr
  obtain ⟨htrimmed, hline⟩ := Dump.text_of_mem_rows hr
  refine ⟨hkind ▸ hword, hkind ▸ hhead, ?_⟩
  rw [hdetail]
  exact Detail.fitsLine_text_ofText r.kind (htrimmed.fitsLine hline)

namespace Tree.Trail

/-- Whether a node is listed: it is the root, or it is a declaration, and so are all nodes between
it and the root. -/
def isListed (x : Trail Declaration) : Bool := x.path.tail.all Declaration.isDeclaration

/-- The line that shows a node. -/
def line (x : Trail Declaration) : String := Declaration.line (x.above.length, x.label)

end Tree.Trail

/-- A listing of what was read, cleaned up or not, has a line for the root and one for each
declaration that is reached through declarations, in preorder; and it is read as a tree of the shape
that those nodes have. -/
theorem read_listing {dump : String} {t s : Tree Declaration} (h : Dump.read dump = .ok t)
    (hs : s = t ∨ ∃ systemPrefixes, prune systemPrefixes t = some s) :
    Text.lines (listing s) = (s.trails.filter Tree.Trail.isListed).map Tree.Trail.line ∧
      (s.restrict Declaration.isDeclaration).trails = s.trails.filter Tree.Trail.isListed ∧
        ∃ u, Dump.read (listing s) = .ok u ∧
          u.shape = (s.restrict Declaration.isDeclaration).shape := by
  have hlabels : ∀ x ∈ s.trails, x ∈ t.trails := by
    rcases hs with rfl | ⟨systemPrefixes, hprune⟩
    · exact fun x hx => hx
    · exact fun x hx => (mem_trails_of_prune hprune hx).1
  have hlisted : (s.restrict Declaration.isDeclaration).trails =
      s.trails.filter Tree.Trail.isListed :=
    Tree.trails_restrict s
  have hprintable : ∀ r ∈ (s.restrict Declaration.isDeclaration).rows, r.2.IsPrintable := by
    rw [Tree.rows_eq_map_trails, hlisted, List.forall_mem_map]
    intro x hx
    exact isPrintable_of_read h (List.mem_map_of_mem (hlabels x (List.mem_filter.1 hx).1))
  obtain ⟨hlines, hread⟩ := exists_read_unlines hprintable
  refine ⟨?_, hlisted, hread⟩
  rw [listing, hlines, Tree.rows_eq_map_trails, hlisted, List.map_map]
  rfl

/-- A function in a namespace, with a variable in its body, and an enumeration, which cleanup
takes. -/
def localVariable : String :=
  "TranslationUnitDecl 0x1\n" ++
  "|-NamespaceDecl 0x2 ns inline\n" ++
  "| `-FunctionDecl 0x3 f 'int ()' used\r\n" ++
  "|   `-CompoundStmt 0x4\n" ++
  "|     `-VarDecl 0x5 y 'int'\n" ++
  "`-EnumDecl 0x6 E\n"

/-- The variable is a declaration, but it is not reached through declarations. -/
theorem read_listing_localVariable :
    ∃ t s, Dump.read localVariable = .ok t ∧ prune defaultSystemPrefixes t = some s ∧
      listing s = "TranslationUnitDecl:\n" ++ "  NamespaceDecl:ns inline\n" ++
        "    FunctionDecl:f 'int ()' used\n" ∧
      Text.lines (listing s) = (s.trails.filter Tree.Trail.isListed).map Tree.Trail.line ∧
      ∃ u, Dump.read (listing s) = .ok u ∧
        u.shape = (s.restrict Declaration.isDeclaration).shape := by
  have hrun : (Dump.read localVariable).toOption.map
      (fun t => (prune defaultSystemPrefixes t).map listing) =
        some (some ("TranslationUnitDecl:\n" ++ "  NamespaceDecl:ns inline\n" ++
          "    FunctionDecl:f 'int ()' used\n")) := by
    decide +kernel
  obtain ⟨t, ht, hcleaned⟩ := exists_ok_of_toOption_map hrun
  obtain ⟨s, hs, hlisting⟩ := Option.map_eq_some_iff.1 hcleaned
  obtain ⟨hlines, -, hread⟩ := read_listing ht (.inr ⟨defaultSystemPrefixes, hs⟩)
  exact ⟨t, s, ht, hs, hlisting, hlines, hread⟩

end AddressExport
