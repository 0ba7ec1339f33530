import AddressExport.Declaration.Detail
import AddressExport.Proofs.Text.Words

/-!
# Declared names with their types

The text of a node with a type is cut at its quotes: the name is the last word in front of the
first, the signature stands between the first two, and the trailing text behind the last.  So all
three are found in what a compiler writes, also if the name is missing or the type is written a
second time without its aliases, and the text of a detail that was read is read as that detail again
(`Detail.ofText_typed_outcome`).
-/

namespace AddressExport

namespace Detail

section Reading

variable {kind text name signature trailing : String}

theorem ofScope_ne_typed : ofScope text ≠ .typed name signature trailing := by
  unfold ofScope
  dsimp only
  split <;> exact Detail.noConfusion

theorem ofRecord_ne_typed : ofRecord text ≠ .typed name signature trailing := by
  unfold ofRecord
  dsimp only
  repeat' split
  all_goals exact Detail.noConfusion

theorem ofTyped?_of_ofText (h : ofText kind text = .typed name signature trailing) :
    ofTyped? text = some (.typed name signature trailing) := by
  unfold ofText at h
  split at h
  · cases h
  split at h
  · exact absurd h ofScope_ne_typed
  split at h
  · cases h
  split at h
  · exact absurd h ofRecord_ne_typed
  split at h
  · cases htyped : ofTyped? text with
    | none => simp [htyped] at h
    | some d => rw [← h, htyped, Option.getD_some]
  · split at h <;> cases h

/-! ## Names -/

theorem isNameWord_eq_true_iff {w : String} :
    isNameWord w = true ↔
      ':' ∉ w.toList ∧ ¬ "<".toList <+: w.toList ∧ ¬ "0x".toList <+: w.toList := by
  simp [isNameWord, Text.startsWith, ← List.isPrefixOf_iff_prefix, and_assoc]

/-- Whether a text can be a declared name: a word without quotes that is no part of an address, a
place or a range. -/
structure IsDeclaredName (name : String) : Prop where
  isOneWord : Text.IsOneWord name.toList
  quote_not_mem : '\'' ∉ name.toList
  colon_not_mem : ':' ∉ name.toList
  not_angle : ¬ "<".toList <+: name.toList
  not_address : ¬ "0x".toList <+: name.toList

instance (name : String) : Decidable (IsDeclaredName name) :=
  decidable_of_iff (Text.IsOneWord name.toList ∧ '\'' ∉ name.toList ∧ ':' ∉ name.toList ∧
    ¬ "<".toList <+: name.toList ∧ ¬ "0x".toList <+: name.toList)
    ⟨fun ⟨h₁, h₂, h₃, h₄, h₅⟩ => ⟨h₁, h₂, h₃, h₄, h₅⟩,
      fun ⟨h₁, h₂, h₃, h₄, h₅⟩ => ⟨h₁, h₂, h₃, h₄, h₅⟩⟩

theorem IsDeclaredName.isNameWord (h : IsDeclaredName name) : isNameWord name = true :=
  isNameWord_eq_true_iff.2 ⟨h.colon_not_mem, h.not_angle, h.not_address⟩

/-- The name at the end of a text, which may be missing. -/
def nameAtEnd (front : List Char) : String := (lastName? (Text.words (String.ofList front))).getD ""

theorem nameAtEnd_of_splitWords {front : List Char} {ws : List (List Char)}
    (h : IsDeclaredName name) (hwords : Text.splitWords front = ws ++ [name.toList]) :
    nameAtEnd front = name := by
  have hlast : (Text.words (String.ofList front)).getLast? = some name := by
    rw [Text.words_ofList, hwords, List.map_append, List.map_singleton, List.getLast?_concat,
      String.ofList_toList]
  rw [nameAtEnd, lastName?, hlast, Option.filter_some_pos h.isNameWord, Option.getD_some]

theorem nameAtEnd_of_unnamed {front : List Char}
    (h : ∀ w ∈ (Text.words (String.ofList front)).getLast?, isNameWord w = false) :
    nameAtEnd front = "" := by
  rw [nameAtEnd, lastName?, Option.filter_eq_none_iff.2 fun w hw => by simp [h w hw]]
  rfl

/-- The name at the end of a text is missing or a word there. -/
theorem nameAtEnd_cases {front : List Char} (h : '\'' ∉ front) :
    nameAtEnd front = "" ∨ IsDeclaredName (nameAtEnd front) := by
  cases hname : lastName? (Text.words (String.ofList front)) with
  | none => exact .inl (by rw [nameAtEnd, hname, Option.getD_none])
  | some w =>
    rw [nameAtEnd, hname, Option.getD_some]
    obtain ⟨hw, hnameWord⟩ := Option.filter_eq_some_iff.1 hname
    have hmem := List.mem_of_getLast? hw
    obtain ⟨hcolon, hangle, haddress⟩ := isNameWord_eq_true_iff.1 hnameWord
    refine .inr ⟨Text.isOneWord_of_mem_words hmem, fun hquote => h ?_, hcolon, hangle, haddress⟩
    simpa using Text.mem_of_mem_words hmem hquote

/-! ## Quoted types -/

theorem ofTyped?_eq_some_iff :
    ofTyped? text = some (.typed name signature trailing) ↔
      ∃ front rest back, Text.splitAll (· == '\'') text.toList = front :: signature.toList :: rest ∧
        rest.getLast? = some back ∧ name = nameAtEnd front ∧
          trailing = String.ofList (Text.trimBlanks back) := by
  unfold ofTyped?
  constructor
  · intro h
    split at h
    · next front quoted rest hpieces =>
      obtain ⟨back, hback, hdetail⟩ := Option.map_eq_some_iff.1 h
      obtain ⟨rfl, rfl, rfl⟩ := Detail.typed.inj hdetail
      exact ⟨front, rest, back, by rw [hpieces, String.toList_ofList], hback, rfl, rfl⟩
    · cases h
  · rintro ⟨front, rest, back, hpieces, hback, rfl, rfl⟩
    rw [hpieces]
    simp [hback, nameAtEnd]

theorem mem_of_ofText (h : ofText kind text = .typed name signature trailing) {c : Char}
    (hc : c ∈ signature.toList) : c ∈ text.toList := by
  obtain ⟨front, rest, back, hpieces, -⟩ := ofTyped?_eq_some_iff.1 (ofTyped?_of_ofText h)
  exact Text.mem_of_mem_splitAll (hpieces ▸ List.mem_cons_of_mem front List.mem_cons_self) hc

theorem splitAll_quote_of_not_mem {s : List Char} (h : '\'' ∉ s) :
    Text.splitAll (· == '\'') s = [s] :=
  Text.splitAll_eq_singleton fun _ hc => beq_eq_false_iff_ne.2 fun hquote => h (hquote ▸ hc)

/-- A text is read by what stands in front of its first quote, behind that one, and behind its last
quote. -/
theorem ofTyped?_of_quoted {front rest back : List Char}
    (htext : text.toList = front ++ '\'' :: (signature.toList ++ '\'' :: rest))
    (hfront : '\'' ∉ front) (hsignature : '\'' ∉ signature.toList)
    (hback : (Text.splitAll (· == '\'') rest).getLast? = some back) :
    ofTyped? text =
      some (.typed (nameAtEnd front) signature (String.ofList (Text.trimBlanks back))) := by
  refine ofTyped?_eq_some_iff.2 ⟨front, _, back, ?_, hback, rfl, rfl⟩
  rw [htext, Text.splitAll_append_cons rfl, Text.splitAll_append_cons rfl,
    splitAll_quote_of_not_mem hfront, splitAll_quote_of_not_mem hsignature]
  rfl

end Reading

/-! ## Texts as they are written -/

/-- The text of a node with a type. -/
structure TypedText where
  /-- What stands in front of the name: an address, places, and words such as `used`. -/
  front : String
  name : Option String
  signature : String
  /-- The type without its aliases, if that is another text.  Nothing is read from it. -/
  desugared : Option String
  /-- The blanks behind the type. -/
  gap : String
  trailing : String

namespace TypedText

/-- The text as a compiler writes it. -/
def text (t : TypedText) : String :=
  t.front ++ " " ++ t.name.elim "" (· ++ " ") ++ "'" ++ t.signature ++ "'" ++
    t.desugared.elim "" (":'" ++ · ++ "'") ++ t.gap ++ t.trailing

/-- Whether the parts of a text can be told apart: what is read from it has no quotes. -/
structure IsPlain (t : TypedText) : Prop where
  quote_not_mem_front : '\'' ∉ t.front.toList
  isDeclaredName : ∀ n ∈ t.name, IsDeclaredName n
  /-- If there is no name, then the last word in front is part of an address, a place or a range. -/
  unnamed : t.name = none → ∀ w ∈ (Text.words t.front).getLast?,
    ':' ∈ w.toList ∨ "<".toList <+: w.toList ∨ "0x".toList <+: w.toList
  quote_not_mem_signature : '\'' ∉ t.signature.toList
  isBlank_gap : ∀ c ∈ t.gap.toList, Text.isBlank c = true
  quote_not_mem_trailing : '\'' ∉ t.trailing.toList
  isTrimmed_trailing : Text.IsTrimmed t.trailing.toList

instance (t : TypedText) : Decidable t.IsPlain :=
  decidable_of_iff ('\'' ∉ t.front.toList ∧ (t.name.all fun n => IsDeclaredName n) = true ∧
    (t.name = none → ((Text.words t.front).getLast?.all fun w =>
      ':' ∈ w.toList ∨ "<".toList <+: w.toList ∨ "0x".toList <+: w.toList) = true) ∧
    '\'' ∉ t.signature.toList ∧ t.gap.toList.all Text.isBlank = true ∧ '\'' ∉ t.trailing.toList ∧
    Text.IsTrimmed t.trailing.toList) <| by
    simp only [Option.all_eq_true, List.all_eq_true, decide_eq_true_eq]
    exact ⟨fun ⟨h₁, h₂, h₃, h₄, h₅, h₆, h₇⟩ => ⟨h₁, h₂, h₃, h₄, h₅, h₆, h₇⟩,
      fun ⟨h₁, h₂, h₃, h₄, h₅, h₆, h₇⟩ => ⟨h₁, h₂, h₃, h₄, h₅, h₆, h₇⟩⟩

variable {t : TypedText}

/-- What stands in front of the first quote. -/
def named (t : TypedText) : List Char := (t.front ++ " " ++ t.name.elim "" (· ++ " ")).toList

theorem nameAtEnd_named (h : t.IsPlain) : nameAtEnd t.named = t.name.getD "" := by
  cases hname : t.name with
  | some n =>
    have hnamed : t.named = t.front.toList ++ ' ' :: (n.toList ++ [' ']) := by simp [named, hname]
    have hword := h.isDeclaredName n hname
    have hwords : Text.splitWords t.named = Text.splitWords t.front.toList ++ [n.toList] := by
      rw [hnamed, Text.splitWords_append_blank rfl,
        Text.splitWords_append_blanks (List.forall_mem_singleton.2 rfl),
        hword.isOneWord.splitWords_eq]
    rw [Option.getD_some, nameAtEnd_of_splitWords hword hwords]
  | none =>
    have hnamed : t.named = t.front.toList ++ [' '] := by simp [named, hname]
    have hwords : Text.words (String.ofList (t.front.toList ++ [' '])) = Text.words t.front := by
      rw [Text.words_ofList, Text.splitWords_append_blanks (List.forall_mem_singleton.2 rfl),
        Text.words]
    rw [hnamed, Option.getD_none, nameAtEnd_of_unnamed]
    rw [hwords]
    intro w hw
    rw [← Bool.not_eq_true, isNameWord_eq_true_iff]
    rintro ⟨hcolon, hangle, haddress⟩
    rcases h.unnamed hname w hw with h | h | h
    · exact hcolon h
    · exact hangle h
    · exact haddress h

theorem quote_not_mem_named (h : t.IsPlain) : '\'' ∉ t.named := by
  cases hname : t.name with
  | some n => simp [named, hname, h.quote_not_mem_front, (h.isDeclaredName n hname).quote_not_mem]
  | none => simp [named, hname, h.quote_not_mem_front]

/-- What stands behind the last quote is the trailing text, whether or not the type is written
twice. -/
theorem getLast?_splitAll (h : t.IsPlain) :
    (Text.splitAll (· == '\'')
      (t.desugared.elim "" (":'" ++ · ++ "'") ++ t.gap ++ t.trailing).toList).getLast? =
      some (t.gap ++ t.trailing).toList := by
  have hgap : '\'' ∉ t.gap.toList := fun hquote => absurd (h.isBlank_gap _ hquote) (by decide)
  have hback : '\'' ∉ (t.gap ++ t.trailing).toList := by simp [hgap, h.quote_not_mem_trailing]
  cases hdesugared : t.desugared with
  | none =>
    rw [Option.elim_none, String.empty_append, splitAll_quote_of_not_mem hback,
      List.getLast?_singleton]
  | some d =>
    have htext : ((some d).elim "" (":'" ++ · ++ "'") ++ t.gap ++ t.trailing).toList =
        (":'" ++ d).toList ++ '\'' :: (t.gap ++ t.trailing).toList := by simp
    rw [htext, Text.getLast?_splitAll_append_cons rfl, splitAll_quote_of_not_mem hback,
      List.getLast?_singleton]

theorem ofTyped?_text (h : t.IsPlain) :
    ofTyped? t.text = some (.typed (t.name.getD "") t.signature t.trailing) := by
  have htext : t.text.toList = t.named ++ '\'' :: (t.signature.toList ++ '\'' ::
      (t.desugared.elim "" (":'" ++ · ++ "'") ++ t.gap ++ t.trailing).toList) := by
    simp [text, named]
  have htrailing : Text.trimBlanks (t.gap ++ t.trailing).toList = t.trailing.toList := by
    rw [String.toList_append, Text.trimBlanks_blanks_append h.isBlank_gap,
      h.isTrimmed_trailing.trimBlanks_eq]
  rw [ofTyped?_of_quoted htext (quote_not_mem_named h) h.quote_not_mem_signature
    (getLast?_splitAll h), nameAtEnd_named h, htrailing, String.ofList_toList]

end TypedText

theorem ofText_of_typedKind {kind text : String} {d : Detail} (hkind : kind ∈ typedKinds)
    (h : ofTyped? text = some d) : ofText kind text = d := by
  have hother : ∀ k ∈ typedKinds, k ≠ "TranslationUnitDecl" ∧ k ≠ "NamespaceDecl" ∧
      ¬ (k = "AccessSpecDecl" ∨ k = "LinkageSpecDecl") ∧ k ≠ "CXXRecordDecl" := by decide
  obtain ⟨hunit, hscope, hword, hrecord⟩ := hother kind hkind
  rw [ofText, if_neg hunit, if_neg hscope, if_neg hword, if_neg hrecord, if_pos hkind, h,
    Option.getD_some]

/-! ## Details that are shown -/

/-- Whether texts can be the name, the signature and the trailing text that are read from one
text. -/
structure IsReadable (name signature trailing : String) : Prop where
  isDeclaredName : name = "" ∨ IsDeclaredName name
  quote_not_mem_signature : '\'' ∉ signature.toList
  quote_not_mem_trailing : '\'' ∉ trailing.toList
  isTrimmed_trailing : Text.IsTrimmed trailing.toList

variable {text name signature trailing : String}

theorem isReadable_of_ofTyped? (h : ofTyped? text = some (.typed name signature trailing)) :
    IsReadable name signature trailing := by
  obtain ⟨front, rest, back, hpieces, hback, rfl, rfl⟩ := ofTyped?_eq_some_iff.1 h
  have hpiece : ∀ q ∈ front :: signature.toList :: rest, '\'' ∉ q := by
    rw [← hpieces]
    exact fun q hq hquote => absurd (Text.not_of_mem_splitAll hq _ hquote) (by decide)
  refine ⟨nameAtEnd_cases (hpiece front (by simp)), hpiece _ (by simp), ?_, ?_⟩
  · rw [String.toList_ofList]
    exact fun hquote => hpiece back (by simp [List.mem_of_getLast? hback])
      (Text.mem_of_mem_trimBlanks hquote)
  · rw [String.toList_ofList]
    exact Text.isTrimmed_trimBlanks back

theorem IsReadable.nameAtEnd_eq (h : IsReadable name signature trailing) :
    '\'' ∉ name.toList ++ [' '] ∧ nameAtEnd (name.toList ++ [' ']) = name := by
  rcases h.isDeclaredName with rfl | hname
  · decide
  · have hwords : Text.splitWords (name.toList ++ [' ']) = [] ++ [name.toList] := by
      rw [Text.splitWords_append_blanks (List.forall_mem_singleton.2 rfl),
        hname.isOneWord.splitWords_eq]
      rfl
    exact ⟨by simp [hname.quote_not_mem], nameAtEnd_of_splitWords hname hwords⟩

/-- A detail is read again from the text that shows it. -/
theorem ofTyped?_text_of_isReadable (h : IsReadable name signature trailing) :
    ofTyped? (typed name signature trailing).text = some (.typed name signature trailing) := by
  have htext : (typed name signature trailing).text.toList =
      (name.toList ++ [' ']) ++ '\'' ::
        (signature.toList ++ '\'' :: (Text.setOff trailing).toList) := by
    simp [Detail.text, Text.setOff]
  have hlast : (Text.splitAll (· == '\'') (Text.setOff trailing).toList).getLast? =
      some (Text.setOff trailing).toList := by
    rw [splitAll_quote_of_not_mem (Text.not_mem_setOff (by decide) h.quote_not_mem_trailing),
      List.getLast?_singleton]
  obtain ⟨hquote, hname⟩ := h.nameAtEnd_eq
  rw [ofTyped?_of_quoted htext hquote h.quote_not_mem_signature hlast, hname,
    Text.trimBlanks_setOff h.isTrimmed_trailing, String.ofList_toList]

/-- The name, the signature and the trailing text are those that were written, whatever stands in
front of them and whether or not the type is written twice.  Any detail with a type is read again
from the text that shows it. -/
theorem ofText_typed_outcome {kind : String} (hkind : kind ∈ typedKinds) :
    (∀ t : TypedText, t.IsPlain →
      ofText kind t.text = .typed (t.name.getD "") t.signature t.trailing) ∧
    ∀ text name signature trailing, ofText kind text = .typed name signature trailing →
      ofText kind (typed name signature trailing).text = .typed name signature trailing :=
  ⟨fun _ ht => ofText_of_typedKind hkind (TypedText.ofTyped?_text ht), fun _ _ _ _ h =>
    ofText_of_typedKind hkind
      (ofTyped?_text_of_isReadable (isReadable_of_ofTyped? (ofTyped?_of_ofText h)))⟩

/-- A method whose type is written twice. -/
def staticMethod : TypedText :=
  ⟨"0x1 <line:10:5, col:20> col:16 used", some "fun", "size_t (int)", some "unsigned long (int)",
    " ", "static"⟩

/-- A parameter without a name. -/
def unnamedParameter : TypedText := ⟨"0x1 <col:9> col:12", none, "int", none, "", ""⟩

theorem ofText_typed_staticMethod :
    staticMethod.text =
      "0x1 <line:10:5, col:20> col:16 used fun 'size_t (int)':'unsigned long (int)' static" ∧
    ofText "CXXMethodDecl" staticMethod.text = .typed "fun" "size_t (int)" "static" ∧
    (typed "fun" "size_t (int)" "static").text = "fun 'size_t (int)' static" ∧
    ofText "CXXMethodDecl" (typed "fun" "size_t (int)" "static").text =
      .typed "fun" "size_t (int)" "static" ∧
    unnamedParameter.text = "0x1 <col:9> col:12 'int'" ∧
    ofText "ParmVarDecl" unnamedParameter.text = .typed "" "int" "" := by
  have hmethodKind : "CXXMethodDecl" ∈ typedKinds := by decide
  have hparameterKind : "ParmVarDecl" ∈ typedKinds := by decide
  obtain ⟨hwritten, hshown⟩ := ofText_typed_outcome hmethodKind
  have hmethod := hwritten staticMethod (by decide +kernel)
  have hparameter := (ofText_typed_outcome hparameterKind).1 unnamedParameter (by decide +kernel)
  exact ⟨by decide +kernel, hmethod, by decide +kernel, hshown _ _ _ _ hmethod, by decide +kernel,
    hparameter⟩

end Detail

end AddressExport
