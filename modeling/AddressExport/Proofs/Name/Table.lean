import AddressExport.Name.Table
import AddressExport.Proofs.Name.Path
import AddressExport.Proofs.Text.Offsets
import AddressExport.Proofs.Text.Words
import Mathlib.Order.Bounds.Basic

/-!
# The table of names is read back

A table is as wide in front of the kinds as the accessors need (`kindStandsAt_tableLine`): a text
has no more characters than bytes, so the padding, which counts characters, fills up every accessor
to the bytes of the longest one.

The lines of a table give back the bindings (`ofTableLine?_tableLine`).  Accessors, kinds and names
hold no blank and no backtick, so they are told apart whatever the signature behind them holds.
-/

namespace AddressExport

/-! ## Columns -/

theorem accessorWidth_eq (bindings : List Binding) :
    accessorWidth bindings = (bindings.map fun b => b.accessor.utf8ByteSize).max?.getD 0 := by
  rw [accessorWidth, List.foldl_max]
  exact Nat.zero_max _

theorem isGreatest_accessorWidth {bindings : List Binding} (h : bindings ≠ []) :
    IsGreatest {n | ∃ b ∈ bindings, b.accessor.utf8ByteSize = n} (accessorWidth bindings) := by
  rw [accessorWidth_eq]
  cases hmax : (bindings.map fun b => b.accessor.utf8ByteSize).max? with
  | none => exact absurd hmax (by simpa using h)
  | some n =>
    obtain ⟨hmem, hle⟩ := List.max?_eq_some_iff.1 hmax
    refine ⟨List.mem_map.1 hmem, ?_⟩
    rintro m ⟨b, hb, rfl⟩
    exact hle _ (List.mem_map_of_mem hb)

/-- The given number of spaces. -/
def spaces (n : Nat) : List Char := List.replicate n ' '

theorem spaces_succ (n : Nat) : spaces (n + 1) = ' ' :: spaces n := rfl

theorem isBlank_of_mem_spaces {n : Nat} : ∀ c ∈ spaces n, Text.isBlank c = true := by
  intro c hc
  rw [List.eq_of_mem_replicate hc]
  rfl

/-- Whether a line starts with the accessor of a binding and spaces, at least two of them, up to the
given character, and goes on with the word for the kind. -/
def KindStandsAt (column : Nat) (b : Binding) (line : String) : Prop :=
  ∃ n rest, line.toList =
    b.accessor.toList ++ (spaces n ++ (b.target.kind.word.toList ++ ' ' :: rest)) ∧
    2 ≤ n ∧ b.accessor.length + n = column

theorem toList_padded (width : Nat) (s : String) :
    (padded width s).toList = s.toList ++ spaces (width - s.length) := by
  rw [padded, String.toList_append, String.toList_ofList, spaces]

/-- The text of a line up to the backtick in front of the signature. -/
def tableFront (width : Nat) (b : Binding) : List Char :=
  b.accessor.toList ++ (spaces (width - b.accessor.length + 2) ++
    (b.target.kind.word.toList ++ (spaces (6 - b.target.kind.word.length + 2) ++
      (b.target.name.path.toList ++ spaces 1))))

theorem toList_tableLine (width : Nat) (b : Binding) :
    (tableLine width b).toList =
      tableFront width b ++ '`' :: (b.target.signature.toList ++ ['`']) := by
  simp [tableLine, tableFront, toList_padded, spaces, List.replicate_add]

theorem kindStandsAt_tableLine {width : Nat} {b : Binding} (h : b.accessor.utf8ByteSize ≤ width) :
    KindStandsAt (width + 2) b (tableLine width b) := by
  have hlength := Text.length_le_utf8ByteSize b.accessor
  let rest := spaces (6 - b.target.kind.word.length + 1) ++ (b.target.name.path.toList ++
    (spaces 1 ++ '`' :: (b.target.signature.toList ++ ['`'])))
  refine ⟨width - b.accessor.length + 2, rest, ?_, by omega, by omega⟩
  simp [toList_tableLine, tableFront, rest, spaces_succ]

/-! ## Lines -/

theorem lineFeed_not_mem_tableLine {width : Nat} {b : Binding}
    (haccessor : '\n' ∉ b.accessor.toList) (hpath : '\n' ∉ b.target.name.path.toList)
    (hsignature : '\n' ∉ b.target.signature.toList) : '\n' ∉ (tableLine width b).toList := by
  have hword : '\n' ∉ b.target.kind.word.toList := by cases b.target.kind <;> decide
  simp [toList_tableLine, tableFront, spaces, haccessor, hword, hpath, hsignature]

theorem getLast?_tableLine (width : Nat) (b : Binding) :
    (tableLine width b).toList.getLast? = some '`' := by
  simp [toList_tableLine, List.getLast?_cons]

theorem lines_nameTable {bindings : List Binding}
    (haccessor : ∀ b ∈ bindings, '\n' ∉ b.accessor.toList)
    (hpath : ∀ b ∈ bindings, '\n' ∉ b.target.name.path.toList)
    (hsignature : ∀ b ∈ bindings, '\n' ∉ b.target.signature.toList) :
    Text.lines (nameTable bindings) = bindings.map (tableLine (accessorWidth bindings)) := by
  apply Text.lines_unlines <;> rw [List.forall_mem_map]
  · exact fun b hb => lineFeed_not_mem_tableLine (haccessor b hb) (hpath b hb) (hsignature b hb)
  · intro b _
    rw [getLast?_tableLine]
    simp

/-! ## Reading lines -/

/-- The kind that a word stands for. -/
def TargetKind.ofWord? (word : String) : Option TargetKind :=
  if word = function.word then some .function
  else if word = staticMethod.word then some .staticMethod
  else none

/-- Reads a line of a table.  The accessor and the kind are its first two words, the name goes on up
to the first backtick, and the signature stands between the first backtick and the last one.  The
symbol is the one that the accessor holds. -/
def Binding.ofTableLine? (line : String) : Option Binding := do
  let (front, quoted) ← Text.splitFirst? (· == '`') line.toList
  let (signature, _) ← Text.splitLast? ['`'] quoted
  match Text.splitWords front with
  | [accessor, word, path] =>
    let kind ← TargetKind.ofWord? (String.ofList word)
    let name ← (QualifiedName.ofPath (String.ofList path)).toOption
    let symbol ← accessorBody? accessor
    return ⟨⟨name, String.ofList signature, kind⟩, String.ofList symbol, String.ofList accessor⟩
  | _ => none

theorem TargetKind.ofWord?_word (k : TargetKind) : ofWord? k.word = some k := by
  cases k <;> rfl

theorem TargetKind.isOneWord_word (k : TargetKind) : Text.IsOneWord k.word.toList := by
  cases k <;> decide

/-- A binding whose line can be read: a name that can be exported, and the accessor of a symbol. -/
structure Binding.IsListable (b : Binding) : Prop where
  isNameable : b.target.IsNameable
  accessor_eq : b.accessor = accessorOfSymbol b.symbol
  accessor_isWord : IsWord b.accessor.toList

namespace Binding.IsListable

variable {b : Binding} (h : b.IsListable)

include h

theorem isOneWord_accessor : Text.IsOneWord b.accessor.toList := by
  refine ⟨?_, h.accessor_isWord.not_isBlank⟩
  rw [h.accessor_eq, toList_accessorOfSymbol]
  exact List.cons_ne_nil _ _

theorem isOneWord_path : Text.IsOneWord b.target.name.path.toList := by
  obtain ⟨symbol, hsymbol⟩ := h.isNameable
  refine ⟨?_, fun c hc => ?_⟩
  · simpa using (QualifiedName.isPlain_of_mangle hsymbol).path_ne_empty
  · rcases QualifiedName.isWordChar_of_mem_path hsymbol hc with rfl | hword
    · rfl
    · exact not_isBlank_of_isWordChar hword

theorem splitWords_tableFront (width : Nat) :
    Text.splitWords (tableFront width b) =
      [b.accessor.toList, b.target.kind.word.toList, b.target.name.path.toList] := by
  have hgap (n : Nat) : spaces (n + 1) ≠ [] := by simp [spaces_succ]
  rw [tableFront, h.isOneWord_accessor.splitWords_append (hgap _) isBlank_of_mem_spaces,
    b.target.kind.isOneWord_word.splitWords_append (hgap _) isBlank_of_mem_spaces,
    Text.splitWords_append_blanks isBlank_of_mem_spaces, h.isOneWord_path.splitWords_eq]

theorem backtick_not_mem_tableFront (width : Nat) : '`' ∉ tableFront width b := by
  obtain ⟨symbol, hsymbol⟩ := h.isNameable
  have haccessor : '`' ∉ b.accessor.toList := h.accessor_isWord.not_mem (by decide)
  have hword : '`' ∉ b.target.kind.word.toList := by cases b.target.kind <;> decide
  have hpath : '`' ∉ b.target.name.path.toList :=
    QualifiedName.not_mem_path hsymbol (by decide) (by decide)
  simp [tableFront, spaces, haccessor, hword, hpath]

/-- A line gives its binding back, whatever stands in the signature. -/
theorem ofTableLine?_tableLine (width : Nat) : ofTableLine? (tableLine width b) = some b := by
  obtain ⟨symbol, hsymbol⟩ := h.isNameable
  have hfront : Text.splitFirst? (· == '`') (tableLine width b).toList =
      some (tableFront width b, b.target.signature.toList ++ ['`']) := by
    refine Text.splitFirst?_eq_some_iff.2 ⟨'`', rfl, toList_tableLine width b, fun c hc => ?_⟩
    rw [beq_eq_false_iff_ne]
    rintro rfl
    exact h.backtick_not_mem_tableFront width hc
  have hsignature : Text.splitLast? ['`'] (b.target.signature.toList ++ ['`']) =
      some (b.target.signature.toList, []) :=
    Text.splitLast?_append_replicate List.not_mem_nil 0 b.target.signature.toList
  have hname : QualifiedName.ofPath b.target.name.path = .ok b.target.name :=
    QualifiedName.ofPath_path (QualifiedName.isPlain_of_mangle hsymbol)
  have hbody : accessorBody? b.accessor.toList = some b.symbol.toList := by
    rw [accessorBody?_eq_some_iff, String.ofList_toList, h.accessor_eq]
  simp [ofTableLine?, hfront, hsignature, h.splitWords_tableFront, TargetKind.ofWord?_word, hname,
    hbody, Except.toOption]

end Binding.IsListable

/-! ## Tables of assigned names -/

/-- The bindings of some targets whose signatures stand on one line. -/
def AreListed (bindings : List Binding) : Prop :=
  ∃ targets, (∀ t ∈ targets, '\n' ∉ t.signature.toList) ∧ assign targets = .ok bindings

theorem isListable_of_assign {targets : List Target} {bindings : List Binding}
    (h : assign targets = .ok bindings) : ∀ b ∈ bindings, b.IsListable := by
  intro b hb
  obtain ⟨-, hbind, -⟩ := assign_eq_ok_iff.1 h
  exact ⟨isNameable_of_mem_bindings hbind hb, accessor_eq_of_mem_bindings hbind hb,
    isWord_accessor_of_mem_bindings hbind hb⟩

theorem map_ofTableLine?_lines {bindings : List Binding} (h : AreListed bindings) :
    (Text.lines (nameTable bindings)).map Binding.ofTableLine? = bindings.map some := by
  obtain ⟨targets, hsignature, hassign⟩ := h
  have hlistable := isListable_of_assign hassign
  obtain ⟨-, hbind, -⟩ := assign_eq_ok_iff.1 hassign
  have hlines : Text.lines (nameTable bindings) =
      bindings.map (tableLine (accessorWidth bindings)) := by
    apply lines_nameTable
    · exact fun b hb => (hlistable b hb).accessor_isWord.not_mem (by decide)
    · intro b hb
      obtain ⟨symbol, hsymbol⟩ := (hlistable b hb).isNameable
      exact QualifiedName.not_mem_path hsymbol (by decide) (by decide)
    · exact fun b hb => hsignature b.target (map_target_eq hbind ▸ List.mem_map_of_mem hb)
  rw [hlines, List.map_map]
  exact List.map_congr_left fun b hb => (hlistable b hb).ofTableLine?_tableLine _

/-- A table has a row for each binding, and the kinds stand in one column, two spaces behind the
number of bytes of the longest accessor.  If the bindings come from targets whose signatures stand
on one line, the rows are lines, and reading the lines gives the bindings; so no two lists of such
bindings have one table. -/
theorem nameTable_outcome :
    (∀ bindings : List Binding,
      (bindings ≠ [] →
        IsGreatest {n | ∃ b ∈ bindings, b.accessor.utf8ByteSize = n} (accessorWidth bindings)) ∧
      ∃ rows, nameTable bindings = Text.unlines rows ∧
        List.Forall₂ (KindStandsAt (accessorWidth bindings + 2)) bindings rows) ∧
    (∀ bindings, AreListed bindings →
      (Text.lines (nameTable bindings)).map Binding.ofTableLine? = bindings.map some) ∧
    Set.InjOn nameTable {bindings | AreListed bindings} := by
  refine ⟨fun bindings => ⟨isGreatest_accessorWidth, _, rfl, ?_⟩,
    fun bindings => map_ofTableLine?_lines, ?_⟩
  · rw [List.forall₂_map_right_iff, List.forall₂_same]
    intro b hb
    apply kindStandsAt_tableLine
    exact (isGreatest_accessorWidth (List.ne_nil_of_mem hb)).2 ⟨b, hb, rfl⟩
  · intro bindings h others hothers htable
    have hread := map_ofTableLine?_lines h
    rw [htable, map_ofTableLine?_lines hothers] at hread
    exact ((List.map_injective_iff.2 fun _ _ => Option.some.inj) hread).symm

/-- The first accessor has two characters and three bytes, so both are padded to three
characters. -/
example :
    nameTable [⟨⟨⟨["f"], by decide, by decide⟩, "int ()", .function⟩, "f", "\u00e9f"⟩,
        ⟨⟨⟨["S", "g"], by decide, by decide⟩, "void ()", .staticMethod⟩, "S__g", "g"⟩] =
      "\u00e9f   fn      f `int ()`\ng    static  S::g `void ()`\n" := by decide +kernel

end AddressExport
