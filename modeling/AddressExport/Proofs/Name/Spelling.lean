import AddressExport.Proofs.Name.Assignment

/-!
# How exported names are spelled

The symbols that `assign` gives are identifiers that begin with a letter and do not end with an
underscore (`isSymbolText_of_mem_bindings`).  The segment rule gives this for a segment, joining
keeps it, and a tag ends in a digit.
-/

namespace AddressExport

/-! ## Words -/

/-- A letter, a digit or an underscore. -/
def isWordChar (c : Char) : Bool := c.isAlphanum || c == '_'

/-- A text of such characters. -/
def IsWord (s : List Char) : Prop := ∀ c ∈ s, isWordChar c = true

instance (s : List Char) : Decidable (IsWord s) := List.decidableBAll (isWordChar · = true) s

theorem isWordChar_of_isAlpha {c : Char} (h : c.isAlpha = true) : isWordChar c = true := by
  simp [isWordChar, Char.isAlphanum, h]

theorem IsWord.not_mem {s : List Char} (h : IsWord s) {c : Char} (hc : isWordChar c = false) :
    c ∉ s := by
  intro hmem
  rw [h c hmem] at hc
  cases hc

theorem IsWord.bne {s : List Char} (h : IsWord s) {d : Char} (hd : isWordChar d = false) :
    ∀ c ∈ s, (c != d) = true := by
  intro c hc
  rw [bne_iff_ne]
  rintro rfl
  exact h.not_mem hd hc

theorem toNat_lt_of_isWordChar {c : Char} (h : isWordChar c = true) : c.toNat < 128 := by
  delta isWordChar Char.isAlphanum Char.isAlpha Char.isUpper Char.isLower Char.isDigit at h
  simp only [Bool.or_eq_true, Bool.and_eq_true, decide_eq_true_eq, beq_iff_eq,
    UInt32.le_iff_toNat_le, ge_iff_le] at h
  rw [← Char.toNat_val]
  rcases h with ((h | h) | h) | rfl
  · exact Nat.lt_of_le_of_lt h.2 (by decide)
  · exact Nat.lt_of_le_of_lt h.2 (by decide)
  · exact Nat.lt_of_le_of_lt h.2 (by decide)
  · decide

theorem not_isBlank_of_isWordChar {c : Char} (h : isWordChar c = true) :
    Text.isBlank c = false := by
  have small : ∀ n < 128, isWordChar (Char.ofNat n) = true →
      Text.isBlank (Char.ofNat n) = false := by decide
  simpa using small c.toNat (toNat_lt_of_isWordChar h) (by simpa using h)

theorem IsWord.not_isBlank {s : List Char} (h : IsWord s) : ∀ c ∈ s, Text.isBlank c = false :=
  fun c hc => not_isBlank_of_isWordChar (h c hc)

theorem isWord_append_iff {a b : List Char} : IsWord (a ++ b) ↔ IsWord a ∧ IsWord b :=
  List.forall_mem_append

theorem isWord_of_isTag {tag : List Char} (h : isTag tag = true) : IsWord tag := by
  have hdigits : IsWord Hash.digits := by decide
  simp only [isTag, Bool.and_eq_true, List.all_eq_true, isDigit_eq_true_iff] at h
  exact fun c hc => hdigits c (h.2 c hc)

/-! ## Symbols -/

/-- An identifier that begins with a letter and does not end with an underscore. -/
structure IsSymbolText (s : List Char) : Prop where
  isWord : IsWord s
  head_isAlpha : ∃ c r, s = c :: r ∧ c.isAlpha = true
  last_ne : s.getLast? ≠ some '_'

namespace IsSymbolText

theorem of_isNameSafe {s : String} (h : isNameSafe s = true) : IsSymbolText s.toList := by
  unfold isNameSafe at h
  split at h
  · cases h
  · next c r hs =>
    simp only [Bool.and_eq_true, bne_iff_ne, ne_eq, List.all_eq_true] at h
    obtain ⟨⟨⟨hc, hr⟩, -⟩, hlast⟩ := h
    rw [hs]
    exact ⟨List.forall_mem_cons.2 ⟨isWordChar_of_isAlpha hc, hr⟩, ⟨c, r, rfl, hc⟩, hlast⟩

theorem append {a b : List Char} (ha : IsSymbolText a) (hb : IsWord b) (hne : b ≠ [])
    (hlast : b.getLast? ≠ some '_') : IsSymbolText (a ++ b) := by
  obtain ⟨c, r, rfl, hc⟩ := ha.head_isAlpha
  refine ⟨isWord_append_iff.2 ⟨ha.isWord, hb⟩, ⟨c, r ++ b, rfl, hc⟩, ?_⟩
  rw [List.getLast?_append_of_ne_nil _ hne]
  exact hlast

/-- Texts that are joined by two underscores. -/
theorem join {a b : List Char} (ha : IsSymbolText a) (hb : IsSymbolText b) :
    IsSymbolText (a ++ ['_', '_'] ++ b) := by
  obtain ⟨c, r, rfl, -⟩ := hb.head_isAlpha
  rw [List.append_assoc]
  apply ha.append
  · exact isWord_append_iff.2 ⟨by decide, hb.isWord⟩
  · simp
  · rw [List.cons_append, List.cons_append, List.nil_append, List.getLast?_cons_cons,
      List.getLast?_cons_cons]
    exact hb.last_ne

theorem intercalate {ps : List (List Char)} (hne : ps ≠ []) (h : ∀ p ∈ ps, IsSymbolText p) :
    IsSymbolText (['_', '_'].intercalate ps) := by
  induction ps with
  | nil => exact absurd rfl hne
  | cons p ps ih =>
    rw [List.forall_mem_cons] at h
    cases ps with
    | nil =>
      rw [List.intercalate_singleton]
      exact h.1
    | cons q ps =>
      rw [List.intercalate_cons_cons]
      exact h.1.join (ih (List.cons_ne_nil q ps) h.2)

theorem of_mangle {n : QualifiedName} {symbol : String} (h : n.mangle = .ok symbol) :
    IsSymbolText symbol.toList := by
  rw [QualifiedName.toList_of_mangle h]
  apply intercalate
  · simpa using n.segments_ne_nil
  · simp only [List.forall_mem_map]
    exact fun s hs => of_isNameSafe ((QualifiedName.mangle_eq_ok_iff.1 h).1 s hs)

theorem withTag {symbol : String} (h : IsSymbolText symbol.toList) {tag : Option String}
    (htag : ∀ t ∈ tag, isTag t.toList = true) :
    IsSymbolText (AddressExport.withTag symbol tag).toList := by
  cases tag with
  | none => exact h
  | some t =>
    have ht := htag t rfl
    have hne : t.toList ≠ [] := by
      intro hnil
      simp [isTag, hnil] at ht
    rw [AddressExport.withTag, String.toList_append, String.toList_append, List.append_assoc]
    apply h.append
    · exact isWord_append_iff.2 ⟨by decide, isWord_of_isTag ht⟩
    · simp
    · rw [List.getLast?_append_of_ne_nil _ hne]
      exact fun hlast => not_mem_of_isTag ht (List.mem_of_getLast? hlast)

end IsSymbolText

section Bindings

variable {targets : List Target} {bindings : List Binding} {b : Binding}
  (h : targets.map (bindAmong targets) = bindings.map .ok) (hb : b ∈ bindings)

include h hb

theorem isSymbolText_of_mem_bindings : IsSymbolText b.symbol.toList := by
  obtain ⟨symbol, hsymbol, hbe⟩ := bindAmong_eq_ok_iff.1 (bindAmong_of_mem h hb)
  rw [hbe]
  refine (IsSymbolText.of_mangle hsymbol).withTag fun t ht => ?_
  exact isTag_toList_eq_true_iff.2 (isTagText_of_mem_tagAmong t ht)

theorem accessor_eq_of_mem_bindings : b.accessor = accessorOfSymbol b.symbol := by
  obtain ⟨symbol, hsymbol, hbe⟩ := bindAmong_eq_ok_iff.1 (bindAmong_of_mem h hb)
  rw [hbe]

theorem isWord_accessor_of_mem_bindings : IsWord b.accessor.toList := by
  rw [accessor_eq_of_mem_bindings h hb, toList_accessorOfSymbol, isWord_append_iff,
    isWord_append_iff]
  exact ⟨by decide, (isSymbolText_of_mem_bindings h hb).isWord, by decide⟩

end Bindings

/-! ## Paths -/

theorem isWord_of_mem_segments {n : QualifiedName} {symbol : String} (h : n.mangle = .ok symbol)
    {s : String} (hs : s ∈ n.segments) : IsWord s.toList :=
  (IsSymbolText.of_isNameSafe ((QualifiedName.mangle_eq_ok_iff.1 h).1 s hs)).isWord

/-- Paths are spelled with word characters and colons. -/
theorem QualifiedName.isWordChar_of_mem_path {n : QualifiedName} {symbol : String}
    (h : n.mangle = .ok symbol) {c : Char} (hc : c ∈ n.path.toList) :
    c = ':' ∨ isWordChar c = true := by
  rw [path, String.toList_intercalate] at hc
  rcases Text.mem_of_mem_intercalate hc with hc | ⟨s, hs, hc⟩
  · exact .inl (by simpa using hc)
  · obtain ⟨segment, hsegment, rfl⟩ := List.mem_map.1 hs
    exact .inr (isWord_of_mem_segments h hsegment c hc)

theorem QualifiedName.not_mem_path {n : QualifiedName} {symbol : String} (h : n.mangle = .ok symbol)
    {c : Char} (hcolon : c ≠ ':') (hc : isWordChar c = false) : c ∉ n.path.toList := by
  intro hmem
  rcases isWordChar_of_mem_path h hmem with rfl | hword
  · exact hcolon rfl
  · simp [hword] at hc

end AddressExport
