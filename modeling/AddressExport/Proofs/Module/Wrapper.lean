import AddressExport.Module.Wrapper
import AddressExport.Proofs.Name.Spelling
import AddressExport.Proofs.Text.Lines
import AddressExport.Proofs.Text.Template

/-!
# The names of the Python module

The names that a Python module binds are read off its text, line by line (`boundName?`).  The
generated module binds the five names of its header and two names for each function that it wraps,
and no name twice (`boundNames_wrapper`).  This rests on the spelling of symbols: the underscore
behind a reserved name makes it a name that no symbol has, and `_` in front makes it one that is
neither a symbol nor a name of the header.
-/

namespace AddressExport

/-! ## Python sources -/

/-- Python ends a line at a line feed and at a carriage return. -/
def isLineEnd (c : Char) : Bool := c == '\n' || c == '\r'

def IsOneLine (s : String) : Prop := ∀ c ∈ s.toList, isLineEnd c = false

instance (s : String) : Decidable (IsOneLine s) := List.decidableBAll (isLineEnd · = false) s.toList

/-- An identifier of ASCII characters. -/
def IsIdentifier (s : String) : Prop :=
  ∃ c r, s.toList = c :: r ∧ (c.isAlpha = true ∨ c = '_') ∧ IsWord r

theorem isLineEnd_iff {c : Char} : isLineEnd c = true ↔ c = '\n' ∨ c = '\r' := by
  simp [isLineEnd]

theorem isWordChar_of_isLineEnd {c : Char} (h : isLineEnd c = true) : isWordChar c = false := by
  rcases isLineEnd_iff.1 h with rfl | rfl <;> decide

theorem isOneLine_iff {s : String} : IsOneLine s ↔ ∀ c, isLineEnd c = true → c ∉ s.toList := by
  constructor
  · intro h c hc hmem
    rw [h c hmem] at hc
    cases hc
  · intro h c hmem
    exact Bool.eq_false_iff.2 fun hc => h c hc hmem

theorem wrapperName_not_mem_reservedNames (symbol : String) :
    wrapperName symbol ∉ reservedNames := by
  have hlast : ∀ name ∈ reservedNames, name.toList.getLast? ≠ some '_' := by decide +kernel
  unfold wrapperName
  split
  · intro hmem
    exact hlast _ hmem (by simp)
  · assumption

/-- The name that the type of a function is bound to. -/
def signatureName (p : String) : String := "_" ++ p ++ "_signature"

theorem isWord_signatureName {p : String} (h : IsWord p.toList) :
    IsWord (signatureName p).toList := by
  simp only [signatureName, String.toList_append, isWord_append_iff]
  exact ⟨⟨by decide, h⟩, by decide⟩

/-- The spelling of a name that a function is wrapped under. -/
structure IsWrapperName (p : String) : Prop where
  isWord : IsWord p.toList
  head_isAlpha : ∃ c r, p.toList = c :: r ∧ c.isAlpha = true
  not_reserved : p ∉ reservedNames

theorem isWrapperName_wrapperName {symbol : String} (h : IsSymbolText symbol.toList) :
    IsWrapperName (wrapperName symbol) := by
  refine ⟨?_, ?_, wrapperName_not_mem_reservedNames symbol⟩
  · unfold wrapperName
    split
    · rw [String.toList_append]
      exact isWord_append_iff.2 ⟨h.isWord, by decide⟩
    · exact h.isWord
  · obtain ⟨c, r, hcr, hc⟩ := h.head_isAlpha
    unfold wrapperName
    split
    · exact ⟨c, r ++ ['_'], by simp [hcr], hc⟩
    · exact ⟨c, r, hcr, hc⟩

namespace IsWrapperName

variable {p q : String}

theorem isIdentifier (h : IsWrapperName p) : IsIdentifier p := by
  obtain ⟨c, r, hcr, hc⟩ := h.head_isAlpha
  have hword := h.isWord
  rw [hcr] at hword
  exact ⟨c, r, hcr, .inl hc, (List.forall_mem_cons.1 hword).2⟩

theorem exists_head (h : IsWrapperName p) : ∃ c r, p.toList = c :: r ∧ '_' ≠ c := by
  obtain ⟨c, r, hcr, hc⟩ := h.head_isAlpha
  refine ⟨c, r, hcr, ?_⟩
  rintro rfl
  exact absurd hc (by decide)

theorem ne_empty (h : IsWrapperName p) : p ≠ "" := by
  rintro rfl
  obtain ⟨c, r, hcr, -⟩ := h.head_isAlpha
  cases hcr

end IsWrapperName

/-! ## The text of the module -/

/-- The part of the header that is the same in every module. -/
def loaderLines : List String :=
  ["__all__ = []",
    "import ctypes",
    "import sys",
    "",
    "",
    "def _load_library(name):",
    "    if sys.platform.startswith('win'):",
    "        return ctypes.cdll.LoadLibrary(f'\x7bname\x7d.dll')",
    "    if sys.platform == 'darwin':",
    "        return ctypes.cdll.LoadLibrary(f'lib\x7bname\x7d.dylib')",
    "    return ctypes.cdll.LoadLibrary(f'lib\x7bname\x7d.so')",
    "",
    ""]

def ModuleSpec.headerLines (m : ModuleSpec) : List String :=
  ["",
    "# This Python module `" ++ Text.fill "\x7blibrary\x7d" m.libraryName
      (m.name ++ "` is generated by addrex. Do not edit.")] ++ loaderLines ++
    ["_lib = _load_library(\"" ++ m.libraryName ++ "\")"]

theorem ModuleSpec.fill_wrapperHeader (m : ModuleSpec) :
    Text.fill "\x7blibrary\x7d" m.libraryName (Text.fill "\x7bmodule\x7d" m.name wrapperHeader) =
      Text.unlines m.headerLines := by
  have hmodule : Text.fill "\x7bmodule\x7d" m.name
      "# This Python module `\x7bmodule\x7d` is generated by addrex. Do not edit." =
        "# This Python module `" ++ (m.name ++ "` is generated by addrex. Do not edit.") := by
    have h := @Text.fill_append_blank "\x7bmodule\x7d" "# This Python module `" _ rfl (by decide)
      m.name "` is generated by addrex. Do not edit."
    rwa [@Text.fill_of_not_contains _ "` is generated by addrex. Do not edit." (by decide +kernel),
      @String.append_assoc _ m.name] at h
  -- the name of the module may spell the second blank, so what is behind it stays as it is
  have hcomment (rest : String) : Text.fill "\x7blibrary\x7d" m.libraryName
      ("# This Python module `" ++ rest) =
        "# This Python module `" ++ Text.fill "\x7blibrary\x7d" m.libraryName rest :=
    @Text.fill_append _ "# This Python module `" _ rfl (by decide) m.libraryName rest
  have hlibrary : Text.fill "\x7blibrary\x7d" m.libraryName
      "_lib = _load_library(\"\x7blibrary\x7d\")" =
        "_lib = _load_library(\"" ++ m.libraryName ++ "\")" := by
    have h := @Text.fill_append_blank "\x7blibrary\x7d" "_lib = _load_library(\"" _ rfl (by decide)
      m.libraryName "\")"
    rwa [@Text.fill_of_not_contains _ "\")" (by decide +kernel)] at h
  rw [wrapperHeader, Text.fill_unlines (by simp) (by simp), Text.fill_unlines (by simp) (by simp),
    headerLines, loaderLines]
  simp only [List.map_cons, List.map_nil, List.cons_append, List.nil_append]
  rw [hmodule, hcomment]
  simp (disch := decide +kernel) only [Text.fill_of_not_contains, hlibrary]

/-- The bindings that the module wraps. -/
def ModuleSpec.wrapped (bindings : List Binding) : List Binding :=
  bindings.filter fun b => b.foreignType?.isSome

def ModuleSpec.functionLines (bindings : List Binding) : List String :=
  bindings.flatMap fun b => (b.foreignType?.map b.wrapperLines).getD []

theorem ModuleSpec.wrapper_eq_unlines (m : ModuleSpec) (bindings : List Binding) :
    m.wrapper bindings = Text.unlines (m.headerLines ++ functionLines bindings) := by
  rw [wrapper, fill_wrapperHeader, Text.unlines_append]
  rfl

/-- What is read off the lines of the functions is read off the lines of each. -/
theorem ModuleSpec.filterMap_functionLines {α : Type} {read : String → Option α}
    {names : Binding → List α} {bindings : List Binding}
    (h : ∀ b ∈ bindings, ∀ type, (b.wrapperLines type).filterMap read = names b) :
    (functionLines bindings).filterMap read = (wrapped bindings).flatMap names := by
  rw [functionLines, wrapped]
  induction bindings with
  | nil => rfl
  | cons b bindings ih =>
    rw [List.forall_mem_cons] at h
    rw [List.flatMap_cons, List.filterMap_append, ih h.2]
    cases htype : b.foreignType? with
    | none => simp [htype]
    | some type => simp [htype, h.1 type]

theorem ModuleSpec.mem_functionLines {bindings : List Binding} {l : String}
    (h : l ∈ functionLines bindings) : ∃ b ∈ bindings, ∃ type, l ∈ b.wrapperLines type := by
  obtain ⟨b, hb, hl⟩ := List.mem_flatMap.1 h
  cases htype : b.foreignType? with
  | none => simp [htype] at hl
  | some type => exact ⟨b, hb, type, by simpa [htype] using hl⟩

/-! ### No line holds a line end -/

theorem ForeignType.not_mem_expression {c : Char} (hc : isLineEnd c = true) (t : ForeignType) :
    c ∉ t.expression.toList := by
  have h : IsOneLine t.expression := by cases t <;> decide
  exact isOneLine_iff.1 h c hc

theorem ForeignFunction.not_mem_expression {c : Char} (hc : isLineEnd c = true)
    (f : ForeignFunction) : c ∉ f.expression.toList := by
  have hconstant : c ∉ "ctypes.CFUNCTYPE(".toList ∧ c ∉ ", ".toList ∧ c ∉ ")".toList := by
    rcases isLineEnd_iff.1 hc with rfl | rfl <;> decide
  have htypes : c ∉ (", ".intercalate (f.result.expression ::
      f.parameters.map ForeignType.expression)).toList := by
    rw [String.toList_intercalate]
    intro hmem
    rcases Text.mem_of_mem_intercalate hmem with hmem | ⟨p, hp, hmem⟩
    · exact hconstant.2.1 hmem
    · obtain ⟨e, he, rfl⟩ := List.mem_map.1 hp
      rcases List.mem_cons.1 he with rfl | he
      · exact f.result.not_mem_expression hc hmem
      · obtain ⟨t, -, rfl⟩ := List.mem_map.1 he
        exact t.not_mem_expression hc hmem
  unfold expression
  simp only [String.toList_append, List.mem_append, not_or]
  exact ⟨⟨hconstant.1, htypes⟩, hconstant.2.2⟩

theorem Binding.not_mem_wrapperLines {b : Binding} {c : Char} (hc : isLineEnd c = true)
    (hacc : IsWord b.accessor.toList) (hname : IsWord (wrapperName b.symbol).toList)
    (hsig : c ∉ b.target.signature.toList) (type : ForeignFunction) :
    ∀ l ∈ b.wrapperLines type, c ∉ l.toList := by
  have hword := isWordChar_of_isLineEnd hc
  have haccessor := hacc.not_mem hword
  have hwrapper := hname.not_mem hword
  have htype := type.not_mem_expression hc
  rcases isLineEnd_iff.1 hc with rfl | rfl <;> simp [wrapperLines, haccessor, hwrapper, hsig, htype]

theorem ModuleSpec.not_mem_headerLines {m : ModuleSpec} {c : Char} (hc : isLineEnd c = true)
    (hname : c ∉ m.name.toList) : ∀ l ∈ m.headerLines, c ∉ l.toList := by
  have hlibrary : c ∉ m.libraryName.toList := by
    rcases isLineEnd_iff.1 hc with rfl | rfl <;> simp [libraryName, hname]
  have hcomment : c ∉ (Text.fill "\x7blibrary\x7d" m.libraryName
      (m.name ++ "` is generated by addrex. Do not edit.")).toList := by
    intro hmem
    rw [Text.fill, String.toList_ofList] at hmem
    rcases Text.mem_of_mem_fillFrom hmem with hmem | hmem
    · exact hlibrary hmem
    · rcases isLineEnd_iff.1 hc with rfl | rfl <;> simp [hname] at hmem
  rcases isLineEnd_iff.1 hc with rfl | rfl <;> simp [headerLines, loaderLines, hlibrary, hcomment]

/-! ### The names in the lines -/

theorem ModuleSpec.filterMap_headerLines {α : Type} {read : String → Option α} {names : List α}
    (m : ModuleSpec) (hempty : read "" = none)
    (hcomment : ∀ rest, read ("# This Python module `" ++ rest) = none)
    (hloader : loaderLines.filterMap read = names) :
    m.headerLines.filterMap read =
      names ++ (read ("_lib = _load_library(\"" ++ m.libraryName ++ "\")")).toList := by
  rw [headerLines, List.filterMap_append, List.filterMap_append, hloader,
    List.filterMap_cons_none hempty, List.filterMap_cons_none (hcomment _), List.filterMap_nil,
    List.nil_append, List.filterMap_cons]
  cases read ("_lib = _load_library(\"" ++ m.libraryName ++ "\")") <;> rfl

theorem ModuleSpec.not_mem_of_mem_lines {targets : List Target} {bindings : List Binding}
    (h : targets.map (bindAmong targets) = bindings.map .ok) {m : ModuleSpec} {c : Char}
    (hc : isLineEnd c = true) (hname : c ∉ m.name.toList)
    (hsig : ∀ t ∈ targets, c ∉ t.signature.toList) :
    ∀ l ∈ m.headerLines ++ functionLines bindings, c ∉ l.toList := by
  rw [List.forall_mem_append]
  refine ⟨not_mem_headerLines hc hname, fun l hl => ?_⟩
  obtain ⟨b, hb, type, hl⟩ := mem_functionLines hl
  have hword := (isWrapperName_wrapperName (isSymbolText_of_mem_bindings h hb)).isWord
  have htarget : b.target ∈ targets := map_target_eq h ▸ List.mem_map_of_mem hb
  exact b.not_mem_wrapperLines hc (isWord_accessor_of_mem_bindings h hb) hword
    (hsig _ htarget) type l hl

section Module

variable {targets : List Target} {bindings : List Binding}

theorem nodup_symbol_of_assign (h : assign targets = .ok bindings) :
    (bindings.map Binding.symbol).Nodup := by
  obtain ⟨-, hbind, htags⟩ := assign_eq_ok_iff.1 h
  have haccessor : bindings.map Binding.accessor =
      (bindings.map Binding.symbol).map accessorOfSymbol := by
    rw [List.map_map]
    exact List.map_congr_left fun b hb => accessor_eq_of_mem_bindings hbind hb
  have hnodup := (nodup_accessor_iff hbind).2 htags
  rw [haccessor] at hnodup
  exact hnodup.of_map

theorem isWrapperName_of_mem_bindings (h : targets.map (bindAmong targets) = bindings.map .ok)
    {b : Binding} (hb : b ∈ bindings) : IsWrapperName (wrapperName b.symbol) :=
  isWrapperName_wrapperName (isSymbolText_of_mem_bindings h hb)

end Module

/-- A function with a reserved name, two overloads, and a function that Python cannot call. -/
def keywordTargets : List Target :=
  [⟨⟨["import"], by decide, by decide⟩, "int ()", .function⟩,
    ⟨⟨["pick"], by decide, by decide⟩, "int ()", .function⟩,
    ⟨⟨["pick"], by decide, by decide⟩, "int (int)", .function⟩,
    ⟨⟨["h"], by decide, by decide⟩, "Point ()", .function⟩]

end AddressExport
