import AddressExport.Dump.Location
import AddressExport.Proofs.Text.Blank
import AddressExport.Proofs.Text.Pieces

/-!
# Which tokens are places

A token is taken for a place exactly if it has one of the three written forms of a place
(`isSome_ofToken?_iff`).  Everything about the places of a whole text follows from the one equation
that a text is cut at a blank or a comma (`placesIn_append_break`).
-/

namespace AddressExport.Dump.Place

/-! ## Characters -/

/-- Whether a character parts two tokens. -/
def isBreak (c : Char) : Bool := Text.isBlank c || c == ','

/-- Whether a character can stand in a token and is none of the signs around it. -/
def isPlain (c : Char) : Bool := !isBreak c && !isForeign c

theorem isPlain_eq_true_iff {c : Char} :
    isPlain c = true ↔ isBreak c = false ∧ isForeign c = false := by
  rw [isPlain, Bool.and_eq_true, Bool.not_eq_true', Bool.not_eq_true']

theorem isPlain_of_isAlphanum {c : Char} (h : c.isAlphanum = true) :
    isPlain c = true ∧ c ≠ ':' := by
  have hupper (h : c.isUpper = true) : 65 ≤ c.toNat ∧ c.toNat ≤ 90 := of_decide_eq_true h
  have hlower (h : c.isLower = true) : 97 ≤ c.toNat ∧ c.toNat ≤ 122 := by
    obtain ⟨hlo, hhi⟩ := Bool.and_eq_true_iff.1 h
    exact ⟨of_decide_eq_true hlo, of_decide_eq_true hhi⟩
  have hdigit (h : c.isDigit = true) : 48 ≤ c.toNat ∧ c.toNat ≤ 57 := by
    obtain ⟨hlo, hhi⟩ := Bool.and_eq_true_iff.1 h
    exact ⟨of_decide_eq_true hlo, of_decide_eq_true hhi⟩
  have hrange : 65 ≤ c.toNat ∧ c.toNat ≤ 90 ∨ 97 ≤ c.toNat ∧ c.toNat ≤ 122 ∨
      48 ≤ c.toNat ∧ c.toNat ≤ 57 := by
    rcases Bool.or_eq_true_iff.1 h with h | h
    · rcases Bool.or_eq_true_iff.1 h with h | h
      · exact Or.inl (hupper h)
      · exact Or.inr (Or.inl (hlower h))
    · exact Or.inr (Or.inr (hdigit h))
  refine ⟨isPlain_eq_true_iff.2 ⟨?_, ?_⟩, ?_⟩
  · have hcomma : c ≠ ',' := by
      rintro rfl
      revert h
      decide
    have hblank : Text.isBlank c = false := by
      simp [Text.isBlank]
      omega
    simp [isBreak, hcomma, hblank]
  · rw [Bool.eq_false_iff]
    intro hc
    simp only [isForeign, List.contains_iff_mem, List.mem_cons, List.not_mem_nil, or_false] at hc
    rcases hc with rfl | rfl | rfl | rfl | rfl <;> revert h <;> decide
  · rintro rfl
    revert h
    decide

theorem isPlain_of_isDigit {c : Char} (h : c.isDigit = true) : isPlain c = true ∧ c ≠ ':' :=
  isPlain_of_isAlphanum (by rw [Char.isAlphanum, h, Bool.or_true])

theorem isDigit_of_mem_toString {n : Nat} : ∀ c ∈ (toString n).toList, c.isDigit = true := by
  intro c hc
  rw [Nat.toString_eq_repr, Nat.toList_repr] at hc
  exact Nat.isDigit_of_mem_toDigits (by decide) (by decide) hc

theorem isNumber_toString (n : Nat) : isNumber (toString n).toList = true := by
  have hne : (toString n).toList ≠ [] := by
    rw [Nat.toString_eq_repr, Nat.toList_repr]
    exact Nat.toDigits_ne_nil
  rw [isNumber, List.isEmpty_eq_false_iff.2 hne]
  exact List.all_eq_true.2 isDigit_of_mem_toString

theorem isDigit_of_isNumber {n : List Char} (h : isNumber n = true) :
    ∀ c ∈ n, c.isDigit = true := by
  rw [isNumber, Bool.and_eq_true] at h
  exact List.all_eq_true.1 h.2

theorem not_mem_of_isNumber {n : List Char} (h : isNumber n = true) : ':' ∉ n := fun hmem =>
  (isPlain_of_isDigit (isDigit_of_isNumber h ':' hmem)).2 rfl

theorem isPlain_of_isNumber {n : List Char} (h : isNumber n = true) :
    ∀ c ∈ n, isPlain c = true := fun c hc =>
  (isPlain_of_isDigit (isDigit_of_isNumber h c hc)).1

/-! ## Tokens that are places -/

/-- A path as it can stand in front of a line and a column. -/
structure IsPath (path : List Char) : Prop where
  ne_nil : path ≠ []
  plain : path.all isPlain = true
  ne_line : path ≠ "line".toList
  ne_col : path ≠ "col".toList
  not_line : ¬ "line:".toList <+: path
  not_col : ¬ "col:".toList <+: path

/-- The written forms of a place. -/
inductive SpellsPlace : List Char → Prop
  | inFile {path line col : List Char} (hpath : IsPath path) (hline : isNumber line = true)
      (hcol : isNumber col = true) : SpellsPlace (path ++ ':' :: (line ++ ':' :: col))
  | onLine {numbers : List (List Char)} (hne : numbers ≠ [])
      (hall : ∀ n ∈ numbers, isNumber n = true) :
      SpellsPlace ("line:".toList ++ [':'].intercalate numbers)
  | inColumn {col : List Char} (hcol : isNumber col = true) : SpellsPlace ("col:".toList ++ col)

theorem SpellsPlace.colon_mem {token : List Char} (h : SpellsPlace token) : ':' ∈ token := by
  cases h with
  | inFile => simp
  | onLine => exact List.mem_append_left _ (by decide)
  | inColumn => exact List.mem_append_left _ (by decide)

/-- What stands in front of a colon begins with a word and a colon, unless it is that word. -/
theorem word_prefix_or_eq_word {word : List Char} (hword : ':' ∉ word) {path rest : List Char}
    (h : word ++ [':'] <+: path ++ ':' :: rest) : word ++ [':'] <+: path ∨ path = word := by
  obtain ⟨t, ht⟩ := h
  rw [List.append_assoc, List.singleton_append, List.append_eq_append_iff] at ht
  rcases ht with ⟨as, hpath, hrest⟩ | ⟨cs, hw, hrest⟩
  · cases as with
    | nil => exact Or.inr (by rw [hpath, List.append_nil])
    | cons a as =>
      obtain ⟨rfl, -⟩ := List.cons.inj hrest
      exact Or.inl ⟨as, by rw [hpath, List.append_assoc, List.singleton_append]⟩
  · cases cs with
    | nil => exact Or.inr (by rw [hw, List.append_nil])
    | cons c cs =>
      obtain ⟨rfl, -⟩ := List.cons.inj hrest
      exact absurd (by simp [hw]) hword

theorem path?_eq_some_iff {token : List Char} {text : String} :
    path? token = some text ↔
      ∃ path line col, token = path ++ ':' :: (line ++ ':' :: col) ∧ isNumber line = true ∧
        isNumber col = true ∧ path ≠ [] ∧ (∀ c ∈ path, isForeign c = false) ∧
        text = String.ofList path := by
  constructor
  · intro h
    unfold path? at h
    split at h
    · next front col hcol =>
      split at h
      · next path line hline =>
        rw [Option.ite_none_right_eq_some] at h
        obtain ⟨hgood, htext⟩ := h
        simp only [Bool.and_eq_true, Bool.not_eq_true', List.isEmpty_eq_false_iff,
          List.any_eq_false, Bool.not_eq_true] at hgood
        obtain ⟨⟨⟨hc, hl⟩, hne⟩, hforeign⟩ := hgood
        refine ⟨path, line, col, ?_, hl, hc, hne, hforeign, (Option.some.inj htext).symm⟩
        rw [Text.eq_append_of_splitLast? hcol, Text.eq_append_of_splitLast? hline]
        simp
      · cases h
    · cases h
  · rintro ⟨path, line, col, rfl, hl, hc, hne, hforeign, rfl⟩
    have hcol : Text.splitLast? [':'] (path ++ ':' :: (line ++ ':' :: col)) =
        some (path ++ ':' :: line, col) := by
      have h := Text.splitLast?_append_replicate (not_mem_of_isNumber hc) 0 (path ++ ':' :: line)
      simpa using h
    have hline : Text.splitLast? [':'] (path ++ ':' :: line) = some (path, line) :=
      Text.splitLast?_append_replicate (not_mem_of_isNumber hl) 0 path
    have hany : path.any isForeign = false := by
      rw [List.any_eq_false]
      exact fun c hc => Bool.eq_false_iff.1 (hforeign c hc)
    simp only [path?, hcol, hline, hl, hc, hany, List.isEmpty_eq_false_iff.2 hne, Bool.and_self,
      Bool.not_false, if_true]

theorem ofToken?_inFile {path line col : List Char} (hpath : IsPath path)
    (hline : isNumber line = true) (hcol : isNumber col = true) :
    ofToken? (path ++ ':' :: (line ++ ':' :: col)) = some (inFile (String.ofList path)) := by
  have hnotCol : Text.afterStart? "col:".toList (path ++ ':' :: (line ++ ':' :: col)) = none := by
    rw [Text.afterStart?_eq_none_iff]
    intro h
    rcases @word_prefix_or_eq_word "col".toList (by decide) _ _ h with h | h
    · exact hpath.not_col h
    · exact hpath.ne_col h
  have hnotLine : Text.afterStart? "line:".toList (path ++ ':' :: (line ++ ':' :: col)) = none := by
    rw [Text.afterStart?_eq_none_iff]
    intro h
    rcases @word_prefix_or_eq_word "line".toList (by decide) _ _ h with h | h
    · exact hpath.not_line h
    · exact hpath.ne_line h
  have hread : path? (path ++ ':' :: (line ++ ':' :: col)) = some (String.ofList path) :=
    path?_eq_some_iff.2 ⟨path, line, col, rfl, hline, hcol, hpath.ne_nil,
      fun c hc => (isPlain_eq_true_iff.1 (List.all_eq_true.1 hpath.plain c hc)).2, rfl⟩
  simp only [ofToken?, hnotCol, hnotLine, hread, Option.map_some]

theorem ofToken?_onLine {numbers : List (List Char)} (hne : numbers ≠ [])
    (hall : ∀ n ∈ numbers, isNumber n = true) :
    ofToken? ("line:".toList ++ [':'].intercalate numbers) = some sameFile := by
  have hnotCol : Text.afterStart? "col:".toList
      ("line:".toList ++ [':'].intercalate numbers) = none := by
    rw [Text.afterStart?_eq_none_iff]
    rintro ⟨t, ht⟩
    cases ht
  have hpieces : (Text.splitAll (· == ':') ([':'].intercalate numbers)).all isNumber = true := by
    rw [Text.splitAll_intercalate hne fun n hn => not_mem_of_isNumber (hall n hn)]
    exact List.all_eq_true.2 hall
  simp only [ofToken?, hnotCol, Text.afterStart?_append, hpieces, if_true]

theorem ofToken?_inColumn {col : List Char} (hcol : isNumber col = true) :
    ofToken? ("col:".toList ++ col) = some sameFile := by
  simp only [ofToken?, Text.afterStart?_append, hcol, if_true]

theorem spellsPlace_of_ofToken? {token : List Char} (hbreak : ∀ c ∈ token, isBreak c = false)
    {place : Place} (h : ofToken? token = some place) : SpellsPlace token := by
  unfold ofToken? at h
  split at h
  · next col hcol =>
    rw [Text.afterStart?_eq_some_iff] at hcol
    rw [Option.ite_none_right_eq_some] at h
    exact hcol ▸ SpellsPlace.inColumn h.1
  · next hnotCol =>
    rw [Text.afterStart?_eq_none_iff] at hnotCol
    split at h
    · next rest hrest =>
      rw [Text.afterStart?_eq_some_iff] at hrest
      rw [Option.ite_none_right_eq_some] at h
      rw [hrest, ← Text.intercalate_splitAll ':' rest]
      exact SpellsPlace.onLine (Text.splitAll_ne_nil _ rest) (List.all_eq_true.1 h.1)
    · next hnotLine =>
      rw [Text.afterStart?_eq_none_iff] at hnotLine
      obtain ⟨text, htext, -⟩ := Option.map_eq_some_iff.1 h
      obtain ⟨path, line, col, rfl, hline, hcol, hne, hforeign, -⟩ := path?_eq_some_iff.1 htext
      have hpath : IsPath path :=
        { ne_nil := hne
          plain := List.all_eq_true.2 fun c hc =>
            isPlain_eq_true_iff.2 ⟨hbreak c (List.mem_append_left _ hc), hforeign c hc⟩
          ne_line := fun h => hnotLine ⟨line ++ ':' :: col, by rw [h]; rfl⟩
          ne_col := fun h => hnotCol ⟨line ++ ':' :: col, by rw [h]; rfl⟩
          not_line := fun h => hnotLine (h.trans (List.prefix_append _ _))
          not_col := fun h => hnotCol (h.trans (List.prefix_append _ _)) }
      exact SpellsPlace.inFile hpath hline hcol

/-- A token is taken for a place exactly if it is written like one. -/
theorem isSome_ofToken?_iff {token : List Char} (hbreak : ∀ c ∈ token, isBreak c = false) :
    (ofToken? token).isSome ↔ SpellsPlace token := by
  constructor
  · intro h
    obtain ⟨place, hplace⟩ := Option.isSome_iff_exists.1 h
    exact spellsPlace_of_ofToken? hbreak hplace
  · rintro (⟨hpath, hline, hcol⟩ | ⟨hne, hall⟩ | hcol)
    · rw [ofToken?_inFile hpath hline hcol, Option.isSome_some]
    · rw [ofToken?_onLine hne hall, Option.isSome_some]
    · rw [ofToken?_inColumn hcol, Option.isSome_some]

theorem SpellsPlace.isPlain {token : List Char} (h : SpellsPlace token) :
    ∀ c ∈ token, isPlain c = true := by
  cases h with
  | @inFile path line col hpath hline hcol =>
    simp only [List.forall_mem_append, List.forall_mem_cons]
    exact ⟨List.all_eq_true.1 hpath.plain, rfl, isPlain_of_isNumber hline, rfl,
      isPlain_of_isNumber hcol⟩
  | @onLine numbers hne hall =>
    rw [List.forall_mem_append]
    refine ⟨List.all_eq_true.1 rfl, ?_⟩
    clear hne
    induction numbers with
    | nil => simp
    | cons n ns ih =>
      rw [List.forall_mem_cons] at hall
      cases ns with
      | nil => simpa using isPlain_of_isNumber hall.1
      | cons m ms =>
        rw [List.intercalate_cons_cons, List.append_assoc, List.forall_mem_append,
          List.forall_mem_append]
        exact ⟨isPlain_of_isNumber hall.1, List.all_eq_true.1 rfl, ih hall.2⟩
  | inColumn hcol =>
    rw [List.forall_mem_append]
    exact ⟨List.all_eq_true.1 rfl, isPlain_of_isNumber hcol⟩

instance (path : List Char) : Decidable (IsPath path) :=
  decidable_of_iff
    ((path ≠ [] ∧ path.all isPlain = true) ∧ (path ≠ "line".toList ∧ path ≠ "col".toList) ∧
      ¬ "line:".toList <+: path ∧ ¬ "col:".toList <+: path)
    ⟨fun ⟨⟨hne, hplain⟩, ⟨hline, hcol⟩, hline', hcol'⟩ => ⟨hne, hplain, hline, hcol, hline', hcol'⟩,
    fun h => ⟨⟨h.ne_nil, h.plain⟩, ⟨h.ne_line, h.ne_col⟩, h.not_line, h.not_col⟩⟩

theorem spellsPlace_iff {token : List Char} :
    SpellsPlace token ↔ token.all isPlain = true ∧ (ofToken? token).isSome = true := by
  constructor
  · intro h
    have hplain := h.isPlain
    refine ⟨List.all_eq_true.2 hplain, (isSome_ofToken?_iff fun c hc => ?_).2 h⟩
    exact (isPlain_eq_true_iff.1 (hplain c hc)).1
  · rintro ⟨hplain, hsome⟩
    refine (isSome_ofToken?_iff fun c hc => ?_).1 hsome
    exact (isPlain_eq_true_iff.1 (List.all_eq_true.1 hplain c hc)).1

instance (token : List Char) : Decidable (SpellsPlace token) := decidable_of_iff' _ spellsPlace_iff

/-! ## The signs of a range -/

/-- Signs that open a range, in front of a token, and signs that close one, behind it, are taken
off. -/
theorem unwrap_wrapped {w : List Char} (hw : ∀ c ∈ w, isPlain c = true) (m n : Nat) :
    unwrap (List.replicate m '<' ++ (w ++ List.replicate n '>')) = w := by
  have hopen : (w ++ List.replicate n '>').dropWhile (· == '<') = w ++ List.replicate n '>' := by
    cases w with
    | nil => cases n <;> rfl
    | cons c w =>
      have hc : (c == '<') = false := by
        rw [beq_eq_false_iff_ne]
        rintro rfl
        exact absurd (hw '<' List.mem_cons_self) (by decide)
      rw [List.cons_append, List.dropWhile_cons_of_neg (by simp [hc])]
  have hclose : w.reverse.dropWhile (· == '>') = w.reverse := by
    cases hr : w.reverse with
    | nil => rfl
    | cons c r =>
      have hc : (c == '>') = false := by
        rw [beq_eq_false_iff_ne]
        rintro rfl
        exact absurd (hw '>' (by rw [← List.mem_reverse, hr]; exact List.mem_cons_self)) (by decide)
      rw [List.dropWhile_cons_of_neg (by simp [hc])]
  rw [unwrap, List.dropWhile_append_of_pos (by simp), hopen, List.reverse_append,
    List.reverse_replicate, List.dropWhile_append_of_pos (by simp), hclose, List.reverse_reverse]

theorem mem_of_mem_unwrap {w : List Char} {c : Char} (h : c ∈ unwrap w) : c ∈ w := by
  rw [unwrap, List.mem_reverse] at h
  exact (List.dropWhile_sublist _).subset (List.mem_reverse.1 ((List.dropWhile_sublist _).subset h))

/-! ## Texts -/

/-- The places that a text mentions, in order. -/
def placesIn (s : List Char) : List Place :=
  (Text.splitAll isBreak s).filterMap fun piece => ofToken? (unwrap piece)

theorem all_eq_placesIn (text : String) : all text = placesIn text.toList := rfl

theorem placesIn_append_break {c : Char} (hc : isBreak c = true) (a b : List Char) :
    placesIn (a ++ c :: b) = placesIn a ++ placesIn b := by
  rw [placesIn, Text.splitAll_append_cons hc, List.filterMap_append]
  rfl

theorem placesIn_eq_toList {w : List Char} (hw : ∀ c ∈ w, isBreak c = false) :
    placesIn w = (ofToken? (unwrap w)).toList := by
  rw [placesIn, Text.splitAll_eq_singleton hw]
  cases h : ofToken? (unwrap w) <;> simp [h]

theorem placesIn_blanks_append {l : List Char} (hl : ∀ c ∈ l, Text.isBlank c = true)
    (s : List Char) : placesIn (l ++ s) = placesIn s := by
  induction l with
  | nil => rfl
  | cons c l ih =>
    rw [List.forall_mem_cons] at hl
    have hc : isBreak c = true := by rw [isBreak, hl.1, Bool.true_or]
    rw [List.cons_append, ← ih hl.2]
    exact placesIn_append_break hc [] (l ++ s)

theorem placesIn_append_blanks (s : List Char) {l : List Char}
    (hl : ∀ c ∈ l, Text.isBlank c = true) : placesIn (s ++ l) = placesIn s := by
  cases l with
  | nil => rw [List.append_nil]
  | cons c l =>
    rw [List.forall_mem_cons] at hl
    have hc : isBreak c = true := by rw [isBreak, hl.1, Bool.true_or]
    have hnone : placesIn l = [] := by
      have h := placesIn_blanks_append hl.2 []
      rwa [List.append_nil] at h
    rw [placesIn_append_break hc, hnone, List.append_nil]

theorem placesIn_trimBlanks (s : List Char) : placesIn (Text.trimBlanks s) = placesIn s := by
  obtain ⟨front, back, hs, hfront, hback⟩ := Text.exists_blanks_around s
  conv => rhs; rw [hs]
  rw [placesIn_blanks_append hfront, placesIn_append_blanks _ hback]

end AddressExport.Dump.Place
