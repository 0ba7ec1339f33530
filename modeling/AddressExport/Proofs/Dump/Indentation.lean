import AddressExport.Proofs.Dump.Reading
import AddressExport.Proofs.Text.Offsets

/-!
# The span of a row that lies too deep

The failure of a row that lies too deep says which line it is, and which bytes of the dump its
drawing has.  The length of the span is that of the drawing.  Its offset is too small by one for
each line end in front of the line that is a carriage return and a line feed (`span_of_read`); so
without such line ends the span covers the drawing, and with them it does not.
-/

namespace AddressExport.Dump

/-- Whether a dump has a drawing, between two parts of it, at the start of the line with the given
number. -/
structure IsDrawingOf (dump : String) (line : Nat) (before drawing after : List Char) : Prop where
  parts : dump.toList = before ++ (drawing ++ after)
  starts : before = [] ∨ before.getLast? = some '\n'
  number_eq : line = before.count '\n' + 1
  drawn : ∀ c ∈ drawing, isDrawing c = true
  stops : ∀ c ∈ after.head?, isDrawing c = false

/-- A drawing has one byte for each character. -/
theorem byteLength_of_drawn {drawing : List Char} (h : ∀ c ∈ drawing, isDrawing c = true) :
    Text.byteLength drawing = drawing.length := by
  induction drawing with
  | nil => rfl
  | cons c drawing ih =>
    rw [List.forall_mem_cons] at h
    have hc : c.utf8Size = 1 := by
      have hcase := h.1
      simp only [isDrawing, Bool.or_eq_true, beq_iff_eq] at hcase
      rcases hcase with ((rfl | rfl) | rfl) | rfl <;> rfl
    rw [Text.byteLength, ih h.2, hc, List.length_cons, Nat.add_comm]

theorem of_ofLine? {l : Text.Line} {r : Row} (h : Row.ofLine? l = some r) :
    r.number = l.number ∧ r.offset = l.offset ∧ r.width = (l.text.takeWhile isDrawing).length := by
  unfold Row.ofLine? at h
  split at h
  · cases h
  · cases h
    exact ⟨rfl, rfl, rfl⟩

/-- The drawing of a row stands at the start of its line. -/
theorem exists_isDrawingOf_of_mem_rows {dump : String} {r : Row} (h : r ∈ rows dump) :
    ∃ before drawing after, IsDrawingOf dump r.number before drawing after ∧
      r.width = Text.byteLength drawing ∧
        r.offset + Text.longEnds before = Text.byteLength before := by
  obtain ⟨l, hl, hr⟩ := List.mem_filterMap.1 h
  obtain ⟨before, after, hparts, hstarts, hends, hnumber, hoffset⟩ :=
    Text.exists_isIn_of_mem_numberedLines hl
  obtain ⟨hrnumber, hroffset, hrwidth⟩ := of_ofLine? hr
  have hdrawn : ∀ c ∈ l.text.takeWhile isDrawing, isDrawing c = true := fun c hc =>
    List.mem_takeWhile_imp hc
  refine ⟨before, l.text.takeWhile isDrawing, l.text.dropWhile isDrawing ++ after,
    ⟨?_, hstarts, hrnumber.trans hnumber, hdrawn, ?_⟩, ?_, by rw [hroffset, hoffset]⟩
  · rw [hparts, ← List.append_assoc (l.text.takeWhile isDrawing), List.takeWhile_append_dropWhile]
  · -- behind the drawing comes another character of the line, or what ends the line
    intro c hc
    cases hbody : l.text.dropWhile isDrawing with
    | nil =>
      rw [hbody, List.nil_append] at hc
      rcases hends c hc with rfl | rfl <;> rfl
    | cons d body =>
      have hd := List.head?_dropWhile_not isDrawing l.text
      rw [hbody] at hc hd
      obtain rfl : d = c := by simpa using hc
      simpa using hd
  · rw [hrwidth, byteLength_of_drawn hdrawn]

/-- A dump is refused for a row that lies too deep only with the number, the offset and the width of
that row. -/
theorem exists_row_of_indentation {dump : String} {line offset length : Nat}
    (h : read dump = .error (.indentation line offset length)) :
    ∃ r ∈ rows dump, r.number = line ∧ r.offset = offset ∧ r.width = length ∧ r.depth ≠ 0 := by
  have hnot : ¬ Nested none ((rows dump).map Row.depth) := by
    intro hnested
    by_cases hnil : rows dump = []
    · rw [read_of_rows_eq_nil hnil] at h
      cases h
    · obtain ⟨t, ht, -⟩ := exists_read_of_nested hnil hnested
      rw [ht] at h
      cases h
  obtain ⟨front, r, back, hrows, -, -, hr⟩ := exists_fault_of_not_nested hnot
  have he := Except.error.inj (h.symm.trans hr)
  rw [Row.fault] at he
  split at he
  · cases he
  · next hdepth =>
    have hwidth : 1 ≤ r.width := by
      rw [Row.depth] at hdepth
      omega
    obtain ⟨rfl, rfl, rfl⟩ := DumpError.indentation.inj he
    exact ⟨r, by simp [hrows], rfl, rfl, (Nat.max_eq_left hwidth).symm, hdepth⟩

/-- Where the span of a row that lies too deep is.  It lies inside the dump, and its length is that
of the drawing at the start of the line that is reported, which has at least two columns.  It starts
as many bytes in front of that drawing as there are line ends before it that are a carriage return
and a line feed; so it is the place of the drawing exactly if there are none. -/
theorem span_of_read {dump : String} {line offset length : Nat}
    (h : read dump = .error (.indentation line offset length)) :
    offset + length ≤ dump.utf8ByteSize ∧
      ∃ before drawing after, IsDrawingOf dump line before drawing after ∧ 2 ≤ drawing.length ∧
        length = Text.byteLength drawing ∧ offset + Text.longEnds before = Text.byteLength before ∧
        dump.toUTF8.extract (offset + Text.longEnds before)
          (offset + Text.longEnds before + length) =
          (String.ofList drawing).toUTF8 := by
  obtain ⟨r, hr, rfl, rfl, rfl, hdepth⟩ := exists_row_of_indentation h
  obtain ⟨before, drawing, after, hdrawing, hwidth, hoffset⟩ := exists_isDrawingOf_of_mem_rows hr
  have hsize : dump.utf8ByteSize =
      Text.byteLength before + (Text.byteLength drawing + Text.byteLength after) := by
    rw [Text.utf8ByteSize_eq, hdrawing.parts, Text.byteLength_append, Text.byteLength_append]
  refine ⟨by omega, before, drawing, after, hdrawing, ?_, hwidth, hoffset, ?_⟩
  · rw [← byteLength_of_drawn hdrawing.drawn, ← hwidth]
    rw [Row.depth] at hdepth
    omega
  · rw [hoffset, hwidth]
    exact Text.extract_toUTF8 hdrawing.parts

/-- A dump with both kinds of line ends, a blank line and a character of two bytes. -/
def unevenDump : String :=
  "TranslationUnitDecl 0x1 <<invalid sloc>> <invalid sloc>\r\n\r\n" ++
  "|-NamespaceDecl 0x2 <naïve.hpp:1:1, line:4:1> line:1:11 ns\n" ++
  "|   `-FunctionDecl 0x3 <line:2:1, col:7> col:5 f 'int ()'\r\n"

/-- Two of the line ends in front of the fourth line have two characters, so its span begins two
bytes early. -/
theorem span_of_read_unevenDump :
    read unevenDump = .error (.indentation 4 117 6) ∧ 117 + 6 ≤ unevenDump.utf8ByteSize ∧
      (∃ before drawing after, IsDrawingOf unevenDump 4 before drawing after ∧ 2 ≤ drawing.length ∧
        6 = Text.byteLength drawing ∧ 117 + Text.longEnds before = Text.byteLength before ∧
        unevenDump.toUTF8.extract (117 + Text.longEnds before) (117 + Text.longEnds before + 6) =
          (String.ofList drawing).toUTF8) ∧
      unevenDump.toUTF8.extract 117 (117 + 6) ≠ "|   `-".toUTF8 ∧
      unevenDump.toUTF8.extract 119 (119 + 6) = "|   `-".toUTF8 := by
  have herror : (match read unevenDump with | .ok _ => none | .error e => some e) =
      some (DumpError.indentation 4 117 6) := by
    decide +kernel
  have hread : read unevenDump = .error (.indentation 4 117 6) := by
    cases h : read unevenDump with
    | ok t =>
      rw [h] at herror
      cases herror
    | error e =>
      rw [h] at herror
      rw [Option.some.inj herror]
  obtain ⟨hinside, hspan⟩ := span_of_read hread
  exact ⟨hread, hinside, hspan, by decide +kernel, by decide +kernel⟩

end AddressExport.Dump
