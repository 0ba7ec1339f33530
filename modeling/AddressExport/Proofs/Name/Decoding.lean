import AddressExport.Name.Accessor
import AddressExport.Proofs.Text.Pieces

/-!
# Accessors are read back

`decode?` gives back a name and a tag exactly if the accessor was derived from them
(`decode?_eq_some_iff`).  The separators `__` and `___` do not get in each other's way because of
the segment rule: a segment is a `Text.IsPiece` that does not begin with `_`, so the joined segments
hold no run of three, and the last run of three in front of a tag is the separator of that tag.
-/

namespace AddressExport

/-! ## Segments -/

theorem isPiece_of_isNameSafe {s : String} (h : isNameSafe s = true) :
    Text.IsPiece '_' s.toList := by
  unfold isNameSafe at h
  split at h
  · cases h
  · next c r hs =>
    simp only [Bool.and_eq_true, Bool.not_eq_true', bne_iff_ne, ne_eq] at h
    rw [hs]
    exact ⟨h.1.2, h.2⟩

theorem head?_ne_of_isNameSafe {s : String} (h : isNameSafe s = true) :
    s.toList.head? ≠ some '_' := by
  unfold isNameSafe at h
  split at h
  · cases h
  · next c r hs =>
    simp only [Bool.and_eq_true] at h
    rw [hs]
    rintro ⟨rfl⟩
    exact absurd h.1.1.1 (by decide)

theorem toList_ne_nil_of_isNameSafe {s : String} (h : isNameSafe s = true) : s.toList ≠ [] := by
  intro hs
  simp [isNameSafe, hs] at h

namespace QualifiedName

theorem mangle_eq_ok_iff {n : QualifiedName} {symbol : String} :
    n.mangle = .ok symbol ↔
      (∀ s ∈ n.segments, isNameSafe s = true) ∧ symbol = "__".intercalate n.segments := by
  unfold mangle
  split
  · next s hs =>
    have hmem := List.mem_of_find?_eq_some hs
    have hbad := List.find?_some hs
    simp only [reduceCtorEq, false_iff, not_and]
    intro hall
    simp [hall s hmem] at hbad
  · next hs =>
    have hall : ∀ s ∈ n.segments, isNameSafe s = true := by simpa using hs
    rw [Except.ok.injEq]
    exact ⟨fun h => ⟨hall, h.symm⟩, fun h => h.2.symm⟩

theorem toList_of_mangle {n : QualifiedName} {symbol : String} (h : n.mangle = .ok symbol) :
    symbol.toList = ['_', '_'].intercalate (n.segments.map String.toList) := by
  rw [(mangle_eq_ok_iff.1 h).2, String.toList_intercalate]
  rfl

theorem contains_triple_of_mangle {n : QualifiedName} {symbol : String}
    (h : n.mangle = .ok symbol) : Text.contains "___".toList symbol.toList = false := by
  have safe := (mangle_eq_ok_iff.1 h).1
  rw [toList_of_mangle h]
  refine (Text.contains_triple_intercalate ?_ ?_).1
  · simp only [List.forall_mem_map]
    exact fun s hs => ⟨isPiece_of_isNameSafe (safe s hs), head?_ne_of_isNameSafe (safe s hs)⟩
  · simp only [List.forall_mem_map]
    exact fun s hs => toList_ne_nil_of_isNameSafe (safe s hs)

end QualifiedName

/-- A symbol names what it was mangled from, and is mangled from what it names. -/
theorem nameOfSymbol?_eq_some_iff {symbol : List Char} {n : QualifiedName} :
    nameOfSymbol? symbol = some n ↔ n.mangle = .ok (String.ofList symbol) := by
  unfold nameOfSymbol?
  rw [QualifiedName.mangle_eq_ok_iff]
  simp only [Option.ite_none_right_eq_some, QualifiedName.ofSegments?_eq_some_iff, List.all_eq_true]
  constructor
  · rintro ⟨safe, hn⟩
    refine ⟨hn ▸ safe, ?_⟩
    rw [← String.toList_inj, String.toList_intercalate, hn, String.toList_ofList, List.map_map]
    simp only [Function.comp_def, String.toList_ofList, List.map_id']
    exact (Text.intercalate_splitTwice '_' symbol).symm
  · rintro ⟨safe, hs⟩
    have hcut : (Text.splitTwice '_' symbol).map String.ofList = n.segments := by
      have htext := congrArg String.toList hs
      rw [String.toList_ofList, String.toList_intercalate] at htext
      rw [htext]
      refine (congrArg (List.map String.ofList) (Text.splitTwice_intercalate ?_ ?_)).trans ?_
      · simpa using n.segments_ne_nil
      · simp only [List.forall_mem_map]
        exact fun s hs => isPiece_of_isNameSafe (safe s hs)
      · simp [Function.comp_def]
    rw [hcut]
    exact ⟨safe, rfl⟩

/-! ## Tags -/

theorem isTag_overloadTag (signature : String) : isTag (overloadTag signature).toList = true := by
  simp only [isTag, overloadTag, String.toList_ofList, Bool.and_eq_true, beq_iff_eq,
    List.all_eq_true]
  exact ⟨Hash.length_hexadecimal _, fun c => Hash.isDigit_of_mem_hexadecimal⟩

theorem not_mem_of_isTag {tag : List Char} (h : isTag tag = true) : '_' ∉ tag := by
  simp only [isTag, Bool.and_eq_true, List.all_eq_true] at h
  intro hmem
  exact absurd (h.2 '_' hmem) (by decide)

theorem isDigit_eq_true_iff {c : Char} : Hash.isDigit c = true ↔ c ∈ Hash.digits := by
  constructor
  · intro h
    have small : ∀ n < 128, Hash.isDigit (Char.ofNat n) = true → Char.ofNat n ∈ Hash.digits := by
      decide
    have hc : c.toNat < 128 := by
      simp only [Hash.isDigit, Bool.or_eq_true, Bool.and_eq_true, decide_eq_true_eq, Char.le_def,
        UInt32.le_iff_toNat_le, ← Char.toNat_val] at h ⊢
      rcases h with h | h
      · exact Nat.lt_of_le_of_lt h.2 (by decide)
      · exact Nat.lt_of_le_of_lt h.2 (by decide)
    simpa using small c.toNat hc (by simpa using h)
  · intro h
    have hall : Hash.digits.all Hash.isDigit = true := rfl
    exact List.all_eq_true.1 hall c h

/-- Sixteen lowercase hexadecimal digits. -/
def IsTagText (tag : String) : Prop := tag.length = 16 ∧ ∀ c ∈ tag.toList, c ∈ Hash.digits

theorem isTag_toList_eq_true_iff {tag : String} : isTag tag.toList = true ↔ IsTagText tag := by
  simp only [isTag, IsTagText, Bool.and_eq_true, beq_iff_eq, List.all_eq_true, isDigit_eq_true_iff,
    String.length_toList]

/-- A symbol with the tag behind it, if there is one. -/
def withTag (symbol : String) : Option String → String
  | none => symbol
  | some tag => symbol ++ "___" ++ tag

theorem splitTag?_eq_some_none_iff {body symbol : List Char} :
    splitTag? body = some (symbol, none) ↔
      body = symbol ∧ Text.contains "___".toList body = false := by
  rw [← Text.splitLast?_eq_none_iff (by decide)]
  unfold splitTag?
  cases Text.splitLast? "___".toList body with
  | none => simp only [Option.some.injEq, Prod.mk.injEq, and_true]
  | some found =>
    simp only [reduceCtorEq, and_false, iff_false]
    split <;> simp

theorem splitTag?_eq_some_some_iff {body symbol tag : List Char} :
    splitTag? body = some (symbol, some tag) ↔
      isTag tag = true ∧ body = symbol ++ ("___".toList ++ tag) := by
  constructor
  · intro h
    unfold splitTag? at h
    split at h
    · next plain t hlast =>
      split at h
      · next ht =>
        simp only [Option.some.injEq, Prod.mk.injEq] at h
        obtain ⟨rfl, rfl⟩ := h
        exact ⟨ht, Text.eq_append_of_splitLast? hlast⟩
      · cases h
    · simp at h
  · rintro ⟨ht, rfl⟩
    have hlast : Text.splitLast? "___".toList (symbol ++ ("___".toList ++ tag)) =
        some (symbol, tag) :=
      Text.splitLast?_append_replicate (not_mem_of_isTag ht) 2 symbol
    simp only [splitTag?, hlast, ht, if_true]

/-! ## Accessors -/

theorem toList_accessorOfSymbol (symbol : String) :
    (accessorOfSymbol symbol).toList = "get_".toList ++ (symbol.toList ++ "_address".toList) := by
  simp only [accessorOfSymbol, String.toList_append, List.append_assoc]

theorem accessorBody?_eq_some_iff {a : String} {body : List Char} :
    accessorBody? a.toList = some body ↔ a = accessorOfSymbol (String.ofList body) := by
  simp only [accessorBody?, Option.bind_eq_some_iff, Text.afterStart?_eq_some_iff,
    Text.beforeEnd?_eq_some_iff]
  rw [← String.toList_inj, toList_accessorOfSymbol, String.toList_ofList (l := body)]
  constructor
  · rintro ⟨rest, h, rfl⟩
    exact h
  · exact fun h => ⟨_, h, rfl⟩

/-- What is read from an accessor is what it was derived from. -/
theorem decode?_eq_some_iff {a : String} {n : QualifiedName} {tag : Option String} :
    decode? a = some (n, tag) ↔
      ∃ symbol, n.mangle = .ok symbol ∧ (∀ t ∈ tag, isTag t.toList = true) ∧
        a = accessorOfSymbol (withTag symbol tag) := by
  simp only [decode?, Option.bind_eq_bind, Option.bind_eq_some_iff, Option.pure_def,
    Option.some.injEq, Prod.mk.injEq, accessorBody?_eq_some_iff]
  constructor
  · rintro ⟨body, rfl, ⟨symbol, t⟩, hsplit, m, hm, rfl, rfl⟩
    rw [nameOfSymbol?_eq_some_iff] at hm
    refine ⟨_, hm, ?_⟩
    cases t with
    | none =>
      obtain ⟨rfl, -⟩ := splitTag?_eq_some_none_iff.1 hsplit
      exact ⟨by simp, rfl⟩
    | some t =>
      obtain ⟨ht, rfl⟩ := splitTag?_eq_some_some_iff.1 hsplit
      refine ⟨by simpa using ht, congrArg accessorOfSymbol ?_⟩
      rw [← String.toList_inj]
      simp [withTag]
  · rintro ⟨symbol, hm, htag, rfl⟩
    refine ⟨(withTag symbol tag).toList, by rw [String.ofList_toList],
      (symbol.toList, tag.map String.toList), ?_, n, ?_, rfl, ?_⟩
    · cases tag with
      | none => exact splitTag?_eq_some_none_iff.2 ⟨rfl, QualifiedName.contains_triple_of_mangle hm⟩
      | some t =>
        refine splitTag?_eq_some_some_iff.2 ⟨htag t rfl, ?_⟩
        simp only [withTag, String.toList_append, List.append_assoc]
    · rwa [nameOfSymbol?_eq_some_iff, String.ofList_toList]
    · cases tag <;> simp

theorem decodeAccessor_eq_ok_iff {a : String} {n : QualifiedName} {tag : Option String} :
    decodeAccessor a = .ok (n, tag) ↔
      ∃ symbol, n.mangle = .ok symbol ∧ (∀ t ∈ tag, IsTagText t) ∧
        a = accessorOfSymbol (withTag symbol tag) := by
  simp only [← isTag_toList_eq_true_iff, ← decode?_eq_some_iff]
  unfold decodeAccessor
  split
  · next decoded h => rw [h, Except.ok.injEq, Option.some.injEq]
  · next h => simp [h]

theorem decodeAccessor_eq_error_iff {a : String} {e : NameError} :
    decodeAccessor a = .error e ↔
      e = .malformedAccessor a ∧ ∀ n tag, decodeAccessor a ≠ .ok (n, tag) := by
  unfold decodeAccessor
  split
  · next decoded h =>
    simp only [reduceCtorEq, false_iff, not_and]
    exact fun _ hall => hall decoded.1 decoded.2 rfl
  · next h => simp [eq_comm]

theorem accessorOfName_eq_ok_iff {n : QualifiedName} {a : String} :
    accessorOfName n = .ok a ↔ ∃ symbol, n.mangle = .ok symbol ∧ a = accessorOfSymbol symbol := by
  unfold accessorOfName
  cases n.mangle with
  | error e => simp [Except.map]
  | ok symbol => simp [Except.map, eq_comm]

theorem taggedSymbol_of_mangle {n : QualifiedName} {symbol : String} (h : n.mangle = .ok symbol)
    (signature : String) :
    taggedSymbol n signature = .ok (withTag symbol (some (overloadTag signature))) := by
  simp only [taggedSymbol, h, Except.map, withTag]

theorem decodeAccessor_eq_ok_none_iff {a : String} {n : QualifiedName} :
    decodeAccessor a = .ok (n, none) ↔ accessorOfName n = .ok a := by
  simp [decodeAccessor_eq_ok_iff, accessorOfName_eq_ok_iff, withTag]

theorem accessorOfName_injective {m n : QualifiedName} {a : String} (hm : accessorOfName m = .ok a)
    (hn : accessorOfName n = .ok a) : m = n := by
  have hdecoded :=
    (decodeAccessor_eq_ok_none_iff.2 hm).symm.trans (decodeAccessor_eq_ok_none_iff.2 hn)
  rw [Except.ok.injEq, Prod.mk.injEq] at hdecoded
  exact hdecoded.1

theorem decodeAccessor_eq_ok_some_iff {a : String} {n : QualifiedName} {tag : String} :
    decodeAccessor a = .ok (n, some tag) ↔
      IsTagText tag ∧ ∃ symbol, n.mangle = .ok symbol ∧
        a = "get_" ++ symbol ++ "___" ++ tag ++ "_address" := by
  have htext (symbol : String) : accessorOfSymbol (withTag symbol (some tag)) =
      "get_" ++ symbol ++ "___" ++ tag ++ "_address" := by
    simp only [accessorOfSymbol, withTag, String.append_assoc]
  simp only [decodeAccessor_eq_ok_iff, Option.mem_some_iff, forall_eq', htext]
  constructor
  · rintro ⟨symbol, hn, ht, ha⟩
    exact ⟨ht, symbol, hn, ha⟩
  · rintro ⟨ht, symbol, hn, ha⟩
    exact ⟨symbol, hn, ht, ha⟩

/-- Decoding and the derivation of accessors undo each other.  A name that can be mangled is read
from its accessor, and with the tag from the accessor of any of its overloads; and a text from which
a name is read is the accessor derived from it.  All other texts are refused. -/
theorem decodeAccessor_inverts_derivation :
    (∀ (n : QualifiedName) (symbol : String), n.mangle = .ok symbol →
      (∃ a, accessorOfName n = .ok a ∧ decodeAccessor a = .ok (n, none)) ∧
      ∀ signature, ∃ tagged, taggedSymbol n signature = .ok tagged ∧
        decodeAccessor (accessorOfSymbol tagged) = .ok (n, some (overloadTag signature))) ∧
    ∀ a : String,
      (∀ n, decodeAccessor a = .ok (n, none) ↔ accessorOfName n = .ok a) ∧
      (∀ n tag, decodeAccessor a = .ok (n, some tag) ↔
        IsTagText tag ∧ ∃ symbol, n.mangle = .ok symbol ∧
          a = "get_" ++ symbol ++ "___" ++ tag ++ "_address") ∧
      (decodeAccessor a = .error (.malformedAccessor a) ↔
        (∀ n, accessorOfName n ≠ .ok a) ∧
        ∀ (n : QualifiedName) (symbol tag : String), n.mangle = .ok symbol → IsTagText tag →
          a ≠ "get_" ++ symbol ++ "___" ++ tag ++ "_address") := by
  refine ⟨fun n symbol hn => ⟨?_, fun signature => ?_⟩, fun a =>
    ⟨fun n => decodeAccessor_eq_ok_none_iff, fun n tag => decodeAccessor_eq_ok_some_iff, ?_⟩⟩
  · have ha := accessorOfName_eq_ok_iff.2 ⟨symbol, hn, rfl⟩
    exact ⟨_, ha, decodeAccessor_eq_ok_none_iff.2 ha⟩
  · refine ⟨_, taggedSymbol_of_mangle hn signature,
      decodeAccessor_eq_ok_iff.2 ⟨symbol, hn, ?_, rfl⟩⟩
    rintro t ⟨rfl⟩
    exact isTag_toList_eq_true_iff.1 (isTag_overloadTag signature)
  · rw [decodeAccessor_eq_error_iff]
    constructor
    · rintro ⟨-, h⟩
      exact ⟨fun n hn => h n none (decodeAccessor_eq_ok_none_iff.2 hn), fun n symbol tag hn ht ha =>
        h n (some tag) (decodeAccessor_eq_ok_some_iff.2 ⟨ht, symbol, hn, ha⟩)⟩
    · rintro ⟨hplain, htagged⟩
      refine ⟨rfl, fun n tag h => ?_⟩
      cases tag with
      | none => exact hplain n (decodeAccessor_eq_ok_none_iff.1 h)
      | some tag =>
        obtain ⟨ht, symbol, hn, ha⟩ := decodeAccessor_eq_ok_some_iff.1 h
        exact htagged n symbol tag hn ht ha

end AddressExport
