import AddressExport.Name.Table
import AddressExport.Proofs.Declaration.Discovery
import AddressExport.Proofs.Module.Accessors
import AddressExport.Proofs.Module.Wrapper
import AddressExport.Proofs.Name.Table
import AddressExport.Proofs.Signature.Parts

/-!
# The outputs of a run agree

The source of the accessors, the table of names and the Python module are written apart from each
other.  Read back line by line they name the same accessors (`outputs_agree`).  For this no name,
signature or header may hold a line feed, which for signatures follows from where they stand in the
dump.
-/

namespace AddressExport

/-! ## Reading the outputs -/

/-- The name of the function that a line begins to define with C linkage. -/
def definedAccessor? (line : String) : Option String :=
  (Text.afterStart? "extern \"C\" intptr_t ".toList line.toList).map fun rest =>
    String.ofList (rest.takeWhile (· != '('))

def definedAccessors (source : String) : List String :=
  (Text.lines source).filterMap definedAccessor?

/-- What a line of a table starts with, up to the first space. -/
def listedAccessor (line : String) : String := String.ofList (line.toList.takeWhile (· != ' '))

def listedAccessors (table : String) : List String := (Text.lines table).map listedAccessor

/-- The function of the library that a line says to take no arguments. -/
def resolvedAccessor? (line : String) : Option String :=
  ((Text.afterStart? "_lib.".toList line.toList).bind
    (Text.beforeEnd? ".argtypes = ()".toList)).map String.ofList

def resolvedAccessors (module : String) : List String :=
  (Text.lines module).filterMap resolvedAccessor?

theorem definedAccessor?_eq_none {line : String} (h : ¬ ['e'] <+: line.toList) :
    definedAccessor? line = none := by
  have hno : Text.afterStart? "extern \"C\" intptr_t ".toList line.toList = none :=
    Text.afterStart?_eq_none_iff.2 fun hstart =>
      h (List.IsPrefix.trans ⟨"xtern \"C\" intptr_t ".toList, rfl⟩ hstart)
  rw [definedAccessor?, hno]
  rfl

/-! ## What lines are made of -/

/-- The texts of a binding do not break the lines that they are written into. -/
structure Binding.IsWritable (b : Binding) : Prop where
  accessor : IsWord b.accessor.toList
  wrapperName : IsWrapperName (wrapperName b.symbol)
  path : '\n' ∉ b.target.name.path.toList
  signature : '\n' ∉ b.target.signature.toList

theorem isWritable_of_mem_bindings {targets : List Target} {bindings : List Binding}
    (h : targets.map (bindAmong targets) = bindings.map .ok)
    (hsig : ∀ t ∈ targets, '\n' ∉ t.signature.toList) : ∀ b ∈ bindings, b.IsWritable := by
  intro b hb
  obtain ⟨symbol, hsymbol⟩ := isNameable_of_mem_bindings h hb
  have htarget : b.target ∈ targets := map_target_eq h ▸ List.mem_map_of_mem hb
  exact ⟨isWord_accessor_of_mem_bindings h hb, isWrapperName_of_mem_bindings h hb,
    QualifiedName.not_mem_path hsymbol (by decide) (by decide), hsig b.target htarget⟩

/-! ## The source of the accessors -/

namespace Binding

variable {b : Binding}

theorem lineFeed_not_mem_addressExpression (h : b.IsWritable) :
    '\n' ∉ b.addressExpression.toList := by
  have hpath := h.path
  unfold addressExpression
  split
  · split
    · next type htype =>
      have := lineFeed_not_mem_pointerType htype h.signature
      simp [hpath, this]
    · simp [hpath]
  · simp [hpath]

theorem lineFeed_not_mem_accessorLines (h : b.IsWritable) :
    ∀ l ∈ b.accessorLines, '\n' ∉ l.toList := by
  have haccessor : '\n' ∉ b.accessor.toList := h.accessor.not_mem (by decide)
  have haddress := lineFeed_not_mem_addressExpression h
  simp [accessorLines, haccessor, haddress, h.signature]

theorem getLast?_ne_of_mem_accessorLines :
    ∀ l ∈ b.accessorLines, l.toList.getLast? ≠ some '\r' := by
  simp [accessorLines, List.getLast?_cons]

theorem definedAccessors_accessorLines (h : b.IsWritable) :
    b.accessorLines.filterMap definedAccessor? = [b.accessor] := by
  have hdefinition :
      definedAccessor? ("extern \"C\" intptr_t " ++ b.accessor ++ "() \x7b") = some b.accessor := by
    have hword : ∀ c ∈ b.accessor.toList, (c != '(') = true := h.accessor.bne (by decide)
    have hname :=
      Text.takeWhile_append_cons hword (by decide : ¬ ('(' != '(') = true) ") \x7b".toList
    have hrest : (b.accessor ++ "() \x7b").toList =
        b.accessor.toList ++ '(' :: ") \x7b".toList := by simp
    rw [definedAccessor?, String.append_assoc, String.toList_append, Text.afterStart?_append,
      Option.map_some, hrest, hname, String.ofList_toList]
  simp only [accessorLines, List.filterMap_cons, List.filterMap_nil, hdefinition]
  rw [definedAccessor?_eq_none (by simp), definedAccessor?_eq_none (by simp),
    definedAccessor?_eq_none (by simp), definedAccessor?_eq_none (by simp)]

end Binding

namespace ModuleSpec

variable {m : ModuleSpec} {bindings : List Binding}

theorem lineFeed_not_mem_accessorsHeader (hname : '\n' ∉ m.name.toList)
    (hheaders : ∀ h ∈ m.headers, '\n' ∉ h.toList) : ∀ l ∈ m.accessorsHeader, '\n' ∉ l.toList := by
  simpa [accessorsHeader, hname] using hheaders

theorem getLast?_ne_of_mem_accessorsHeader :
    ∀ l ∈ m.accessorsHeader, l.toList.getLast? ≠ some '\r' := by
  simp [accessorsHeader, List.getLast?_cons]

theorem definedAccessors_accessorsHeader : m.accessorsHeader.filterMap definedAccessor? = [] := by
  rw [List.filterMap_eq_nil_iff]
  intro l hl
  apply definedAccessor?_eq_none
  revert l
  simp [accessorsHeader]

theorem lines_accessors (hname : '\n' ∉ m.name.toList) (hheaders : ∀ h ∈ m.headers, '\n' ∉ h.toList)
    (hb : ∀ b ∈ bindings, b.IsWritable) :
    Text.lines (m.accessors bindings) =
      m.accessorsHeader ++ bindings.flatMap Binding.accessorLines := by
  apply Text.lines_unlines <;> rw [List.forall_mem_append]
  · refine ⟨lineFeed_not_mem_accessorsHeader hname hheaders, fun l hl => ?_⟩
    obtain ⟨b, hmem, hl⟩ := List.mem_flatMap.1 hl
    exact Binding.lineFeed_not_mem_accessorLines (hb b hmem) l hl
  · refine ⟨getLast?_ne_of_mem_accessorsHeader, fun l hl => ?_⟩
    obtain ⟨b, -, hl⟩ := List.mem_flatMap.1 hl
    exact Binding.getLast?_ne_of_mem_accessorLines l hl

theorem definedAccessors_accessors (hname : '\n' ∉ m.name.toList)
    (hheaders : ∀ h ∈ m.headers, '\n' ∉ h.toList) (hb : ∀ b ∈ bindings, b.IsWritable) :
    definedAccessors (m.accessors bindings) = bindings.map Binding.accessor := by
  rw [definedAccessors, lines_accessors hname hheaders hb, List.filterMap_append,
    definedAccessors_accessorsHeader, List.nil_append, List.filterMap_flatMap, List.map_eq_flatMap]
  exact List.flatMap_congr fun b hmem => Binding.definedAccessors_accessorLines (hb b hmem)

end ModuleSpec

/-! ## The table -/

theorem listedAccessor_tableLine {width : Nat} {b : Binding} (h : b.IsWritable) :
    listedAccessor (tableLine width b) = b.accessor := by
  have hword : ∀ c ∈ b.accessor.toList, (c != ' ') = true := h.accessor.bne (by decide)
  obtain ⟨rest, hrest⟩ : ∃ rest, (tableLine width b).toList = b.accessor.toList ++ ' ' :: rest :=
    ⟨_, by rw [toList_tableLine, tableFront, spaces_succ, List.cons_append, List.append_assoc]; rfl⟩
  rw [listedAccessor, hrest, Text.takeWhile_append_cons hword (by decide), String.ofList_toList]

theorem listedAccessors_nameTable {bindings : List Binding} (hb : ∀ b ∈ bindings, b.IsWritable) :
    listedAccessors (nameTable bindings) = bindings.map Binding.accessor := by
  have hlines : Text.lines (nameTable bindings) =
      bindings.map (tableLine (accessorWidth bindings)) :=
    lines_nameTable (fun b hmem => (hb b hmem).accessor.not_mem (by decide))
      (fun b hmem => (hb b hmem).path)
      fun b hmem => (hb b hmem).signature
  rw [listedAccessors, hlines, List.map_map]
  exact List.map_congr_left fun b hmem => listedAccessor_tableLine (hb b hmem)

/-! ## The Python module -/

/-- A line as it is read back.  A signature may end in a carriage return, and then the comment that
holds it loses it to the line end. -/
def chompLine (line : String) : String := String.ofList (Text.chomp line.toList)

theorem toList_chompLine (line : String) : (chompLine line).toList = Text.chomp line.toList :=
  String.toList_ofList

theorem chompLine_append {front back : String} (h : back ≠ "") :
    chompLine (front ++ back) = front ++ chompLine back := by
  have hne : back.toList ≠ [] := by simpa using h
  rw [← String.toList_inj, toList_chompLine, String.toList_append, Text.chomp_append hne,
    String.toList_append, toList_chompLine]

theorem resolvedAccessor?_chompLine_eq_none {line : String} (h : ¬ "_lib.".toList <+: line.toList) :
    resolvedAccessor? (chompLine line) = none := by
  have hno : ¬ "_lib.".toList <+: (chompLine line).toList := by
    intro hstart
    rw [toList_chompLine] at hstart
    exact h (hstart.trans (Text.chomp_prefix line.toList))
  rw [resolvedAccessor?, Text.afterStart?_eq_none_iff.2 hno]
  rfl

theorem resolvedAccessor?_lib (rest : String) :
    resolvedAccessor? ("_lib." ++ rest) =
      (Text.beforeEnd? ".argtypes = ()".toList rest.toList).map String.ofList := by
  rw [resolvedAccessor?, String.toList_append, Text.afterStart?_append, Option.bind_some]

theorem ModuleSpec.resolvedAccessors_headerLines (m : ModuleSpec) :
    m.headerLines.filterMap (fun line => resolvedAccessor? (chompLine line)) = [] := by
  have hempty : resolvedAccessor? (chompLine "") = none := by decide +kernel
  have hcomment (rest : String) :
      resolvedAccessor? (chompLine ("# This Python module `" ++ rest)) = none :=
    resolvedAccessor?_chompLine_eq_none (by simp)
  have hloader : loaderLines.filterMap (fun line => resolvedAccessor? (chompLine line)) = [] := by
    decide +kernel
  have hlibrary :
      resolvedAccessor? (chompLine ("_lib = _load_library(\"" ++ m.libraryName ++ "\")")) = none :=
    resolvedAccessor?_chompLine_eq_none (by simp)
  have hheader :=
    @filterMap_headerLines _ (fun line => resolvedAccessor? (chompLine line)) _ m hempty
    hcomment hloader
  rw [hheader, hlibrary]
  rfl

/-- The word in front of the point is shorter than the one in front of the equality sign. -/
theorem not_lib_prefix_signature {p : String} (h : IsWord p.toList) (rest : String) :
    ¬ "_lib.".toList <+: ("_" ++ p ++ "_signature = " ++ rest).toList := by
  rintro ⟨behind, hbehind⟩
  have hsame : "_lib".toList ++ '.' :: behind =
      (signatureName p).toList ++ ' ' :: ('=' :: ' ' :: rest.toList) := by
    simpa [signatureName] using hbehind
  have hlib : IsWord "_lib".toList := by decide
  have hleft := @Text.takeWhile_append_cons isWordChar _ hlib '.' (by decide) behind
  have hright := @Text.takeWhile_append_cons isWordChar _ (isWord_signatureName h) ' ' (by decide)
    ('=' :: ' ' :: rest.toList)
  rw [hsame, hright] at hleft
  have hlength := congrArg List.length hleft
  simp [signatureName] at hlength

theorem Binding.resolvedAccessors_wrapperLines {b : Binding} (h : b.IsWritable)
    (type : ForeignFunction) :
    (b.wrapperLines type).filterMap (fun line => resolvedAccessor? (chompLine line)) =
      [b.accessor] := by
  obtain ⟨c, r, hcr, hne⟩ := h.wrapperName.exists_head
  have hempty : resolvedAccessor? (chompLine "") = none := by decide +kernel
  have harguments :
      resolvedAccessor? (chompLine ("_lib." ++ b.accessor ++ ".argtypes = ()")) =
        some b.accessor := by
    have hline : chompLine ".argtypes = ()" = ".argtypes = ()" := by decide +kernel
    rw [chompLine_append (by simp), hline, String.append_assoc, resolvedAccessor?_lib,
      String.toList_append, Text.beforeEnd?_eq_some_iff.2 rfl, Option.map_some,
      String.ofList_toList]
  have hresult :
      resolvedAccessor? (chompLine ("_lib." ++ b.accessor ++ ".restype = ctypes.c_void_p")) =
        none := by
    have hline : chompLine ".restype = ctypes.c_void_p" = ".restype = ctypes.c_void_p" := by
      decide +kernel
    rw [chompLine_append (by simp), hline, String.append_assoc, resolvedAccessor?_lib,
      Option.map_eq_none_iff, Option.eq_none_iff_forall_ne_some]
    intro name hname
    have hlast := congrArg List.getLast? (Text.beforeEnd?_eq_some_iff.1 hname)
    simp [List.getLast?_cons] at hlast
  have hcomment (rest : String) : resolvedAccessor? (chompLine ("# " ++ rest)) = none :=
    resolvedAccessor?_chompLine_eq_none (by simp)
  have hsignature (rest : String) : resolvedAccessor? (chompLine
      ("_" ++ AddressExport.wrapperName b.symbol ++ "_signature = " ++ rest)) = none :=
    resolvedAccessor?_chompLine_eq_none (not_lib_prefix_signature h.wrapperName.isWord rest)
  have hname (rest : String) : resolvedAccessor? (chompLine
      (AddressExport.wrapperName b.symbol ++ rest)) = none :=
    resolvedAccessor?_chompLine_eq_none (by simp [hcr, hne])
  have hexport (rest : String) :
      resolvedAccessor? (chompLine ("__all__.append(\"" ++ rest)) = none :=
    resolvedAccessor?_chompLine_eq_none (by simp)
  simp only [String.append_assoc] at harguments hresult hsignature ⊢
  simp only [wrapperLines, String.append_assoc, List.filterMap_cons, List.filterMap_nil, hempty,
    harguments, hresult, hcomment, hsignature, hname, hexport]

theorem ModuleSpec.resolvedAccessors_wrapper {m : ModuleSpec} {bindings : List Binding}
    (hlines : ∀ l ∈ m.headerLines ++ functionLines bindings, '\n' ∉ l.toList)
    (hb : ∀ b ∈ bindings, b.IsWritable) :
    resolvedAccessors (m.wrapper bindings) = (wrapped bindings).map Binding.accessor := by
  have hread : resolvedAccessors (m.wrapper bindings) =
      (m.headerLines ++ functionLines bindings).filterMap
        fun line => resolvedAccessor? (chompLine line) := by
    rw [resolvedAccessors, m.wrapper_eq_unlines, Text.lines_unlines_chomp hlines,
      List.filterMap_map]
    rfl
  have hfunctions := filterMap_functionLines fun b hmem type =>
    Binding.resolvedAccessors_wrapperLines (hb b hmem) type
  rw [hread, List.filterMap_append, m.resolvedAccessors_headerLines, List.nil_append, hfunctions,
    List.map_eq_flatMap]

/-! ## Agreement -/

section Agreement

variable {targets : List Target} {bindings : List Binding}

theorem isSome_foreignType? (b : Binding) :
    b.foreignType?.isSome = (ForeignFunction.ofText b.target.signature).isOk := by
  unfold Binding.foreignType?
  cases ForeignFunction.ofText b.target.signature <;> rfl

theorem mem_map_filter_iff {α β : Type} {f : α → β} {p : α → Bool} {l : List α}
    (h : (l.map f).Nodup) {a : α} (ha : a ∈ l) : f a ∈ (l.filter p).map f ↔ p a = true := by
  constructor
  · intro hmem
    obtain ⟨x, hx, hxa⟩ := List.mem_map.1 hmem
    obtain ⟨hxl, hpx⟩ := List.mem_filter.1 hx
    rwa [← List.inj_on_of_nodup_map h hxl ha hxa]
  · exact fun hpa => List.mem_map_of_mem (List.mem_filter.2 ⟨ha, hpa⟩)

/-- A binding is wrapped, or it is among those that are left out. -/
theorem accessor_mem_wrapped_iff (h : assign targets = .ok bindings) {b : Binding}
    (hb : b ∈ bindings) :
    b.accessor ∈ (ModuleSpec.wrapped bindings).map Binding.accessor ↔
      b.symbol ∉ ModuleSpec.unwrapped bindings := by
  obtain ⟨-, hbind, htags⟩ := assign_eq_ok_iff.1 h
  rw [ModuleSpec.wrapped, ModuleSpec.unwrapped,
    mem_map_filter_iff ((nodup_accessor_iff hbind).2 htags) hb,
    mem_map_filter_iff (nodup_symbol_of_assign h) hb]
  cases b.foreignType? <;> simp

variable {systemPrefixes : List String} {dump : String} {found : Discovery} {strict : Bool}
  {kept : List Target}

/-- What the source defines is what the table lists, and what the Python module looks up in the
library is defined: it is what belongs to the bindings that Python can call, and the others are left
out. -/
theorem outputs_agree (h : discover systemPrefixes dump = .ok found)
    (hkept : keepNameable strict found.targets = .ok kept) (hassign : assign kept = .ok bindings)
    {m : ModuleSpec} (hname : '\n' ∉ m.name.toList) (hheaders : ∀ s ∈ m.headers, '\n' ∉ s.toList) :
    definedAccessors (m.accessors bindings) = bindings.map Binding.accessor ∧
      (definedAccessors (m.accessors bindings)).Nodup ∧
      listedAccessors (nameTable bindings) = bindings.map Binding.accessor ∧
      resolvedAccessors (m.wrapper bindings) =
        (bindings.filter fun b => (ForeignFunction.ofText b.target.signature).isOk).map
          Binding.accessor ∧
      ModuleSpec.unwrapped bindings =
        (bindings.filter fun b => !(ForeignFunction.ofText b.target.signature).isOk).map
          Binding.symbol ∧
      (∀ a ∈ resolvedAccessors (m.wrapper bindings), a ∈ definedAccessors (m.accessors bindings)) ∧
      ∀ b ∈ bindings, b.accessor ∈ resolvedAccessors (m.wrapper bindings) ↔
        b.symbol ∉ ModuleSpec.unwrapped bindings := by
  obtain ⟨-, hbind, htags⟩ := assign_eq_ok_iff.1 hassign
  have hsig : ∀ t ∈ kept, '\n' ∉ t.signature.toList := by
    intro t ht
    rw [eq_filter_of_keepNameable hkept] at ht
    exact lineFeed_not_mem_signature h t (List.mem_filter.1 ht).1
  have hb := isWritable_of_mem_bindings hbind hsig
  have hdefined := ModuleSpec.definedAccessors_accessors hname hheaders hb
  have hnodup := (nodup_accessor_iff hbind).2 htags
  have hresolved : resolvedAccessors (m.wrapper bindings) =
      (ModuleSpec.wrapped bindings).map Binding.accessor :=
    ModuleSpec.resolvedAccessors_wrapper (ModuleSpec.not_mem_of_mem_lines hbind rfl hname hsig) hb
  refine ⟨hdefined, hdefined ▸ hnodup, listedAccessors_nameTable hb, ?_, ?_, ?_, ?_⟩
  · simp only [hresolved, ModuleSpec.wrapped, isSome_foreignType?]
  · simp only [ModuleSpec.unwrapped, ← isSome_foreignType?, Option.not_isSome]
  · rw [hresolved, hdefined]
    exact (List.filter_sublist.map Binding.accessor).subset
  · intro b hmem
    rw [hresolved]
    exact accessor_mem_wrapped_iff hassign hmem

end Agreement

/-- A dump that declares `keywordTargets`. -/
def keywordDump : String :=
  "TranslationUnitDecl 0x1\n|-FunctionDecl 0x2 import 'int ()'\n" ++
    "|-FunctionDecl 0x3 pick 'int ()'\n|-FunctionDecl 0x4 pick 'int (int)'\n" ++
    "`-FunctionDecl 0x5 h 'Point ()'\n"

theorem outputs_keywordDump :
    ∃ found bindings, discover defaultSystemPrefixes keywordDump = .ok found ∧
      keepNameable true found.targets = .ok keywordTargets ∧ assign keywordTargets = .ok bindings ∧
      definedAccessors ((⟨"demo", ["demo.h"]⟩ : ModuleSpec).accessors bindings) =
        ["get_import_address", "get_pick___3b260e9284ddd9f6_address",
          "get_pick___28165b86296ff28f_address", "get_h_address"] ∧
      resolvedAccessors ((⟨"demo", ["demo.h"]⟩ : ModuleSpec).wrapper bindings) =
        ["get_import_address", "get_pick___3b260e9284ddd9f6_address",
          "get_pick___28165b86296ff28f_address"] ∧
      ModuleSpec.unwrapped bindings = ["h"] := by
  have hrun : (discover defaultSystemPrefixes keywordDump).toOption.map Discovery.targets =
      some keywordTargets := by
    decide +kernel
  obtain ⟨found, h, htargets⟩ := exists_discover_of_map_eq hrun
  have hkept : keepNameable true found.targets = .ok keywordTargets := by
    rw [htargets]
    decide +kernel
  have hnames : ((assign keywordTargets).toOption.map fun bindings =>
      (bindings.map Binding.accessor,
        (bindings.filter fun b => (ForeignFunction.ofText b.target.signature).isOk).map
          Binding.accessor,
        (bindings.filter fun b => !(ForeignFunction.ofText b.target.signature).isOk).map
          Binding.symbol)) =
      some
        (["get_import_address", "get_pick___3b260e9284ddd9f6_address",
          "get_pick___28165b86296ff28f_address", "get_h_address"],
          ["get_import_address", "get_pick___3b260e9284ddd9f6_address",
          "get_pick___28165b86296ff28f_address"], ["h"]) := by
    decide +kernel
  obtain ⟨bindings, hassign, hnames⟩ := exists_ok_of_toOption_map hnames
  simp only [Prod.mk.injEq] at hnames
  obtain ⟨haccessors, hwrapped, hleft⟩ := hnames
  have hname : '\n' ∉ (⟨"demo", ["demo.h"]⟩ : ModuleSpec).name.toList := by decide
  have hheaders : ∀ s ∈ (⟨"demo", ["demo.h"]⟩ : ModuleSpec).headers, '\n' ∉ s.toList := by decide
  obtain ⟨hdefined, -, -, hresolved, hunwrapped, -⟩ := outputs_agree h hkept hassign hname hheaders
  exact ⟨found, bindings, h, hkept, hassign, hdefined.trans haccessors, hresolved.trans hwrapped,
    hunwrapped.trans hleft⟩

end AddressExport
