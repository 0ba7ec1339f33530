import AddressExport.Proofs.Text.Blank
import AddressExport.Proofs.Text.Pieces
import Mathlib.Data.List.Chain

/-!
# Words

The words of a text are the pieces between its blanks that are not empty (`splitWords_eq_filter`),
so a blank parts the words in front of it from those behind it (`splitWords_append_blank`), and
trimming takes no word away (`splitWords_trimBlanks`).  They are the longest runs of characters that
are not blank (`areWords_iff`).

Words that are joined by spaces are found again (`words_intercalate`).  So `respace` spells every
sequence of words in one way (`respace_eq_iff`), with single spaces for blanks (`isSpaced_respace`).
-/

namespace AddressExport.Text

theorem splitAll_cons_of_pos {p : Char → Bool} {c : Char} (hc : p c = true) (s : List Char) :
    splitAll p (c :: s) = [] :: splitAll p s := by
  rw [splitAll, if_pos hc]

theorem exists_splitAll_cons {p : Char → Bool} {c : Char} (hc : ¬ p c = true) (s : List Char) :
    ∃ q qs, splitAll p s = q :: qs ∧ splitAll p (c :: s) = (c :: q) :: qs := by
  obtain ⟨q, qs, hq⟩ := List.exists_cons_of_ne_nil (splitAll_ne_nil p s)
  exact ⟨q, qs, hq, by rw [splitAll, if_neg hc, hq]⟩

theorem splitWords_eq_filter (s : List Char) :
    splitWords s = (splitAll isBlank s).filter (· ≠ []) := by
  fun_induction splitWords s with
  | case1 => rfl
  | case2 c hc => simp [splitAll, hc]
  | case3 c hc => simp [splitAll, hc]
  | case4 c d r hc ih => rw [ih, splitAll_cons_of_pos hc, List.filter_cons_of_neg (by simp)]
  | case5 c d r hc hd ih =>
    obtain ⟨q, qs, hq, hcq⟩ := exists_splitAll_cons hc (d :: r)
    rw [splitAll_cons_of_pos hd] at hq ih
    obtain ⟨rfl, rfl⟩ := List.cons.inj hq
    rw [ih, hcq, List.filter_cons_of_neg (by simp), List.filter_cons_of_pos (by simp)]
  | case6 c d r hc hd w ws hws ih =>
    -- the first piece of what follows is a word, for it begins with `d`
    obtain ⟨q, qs, hq, hcq⟩ := exists_splitAll_cons hc (d :: r)
    obtain ⟨p, ps, -, hdp⟩ := exists_splitAll_cons hd r
    obtain ⟨rfl, rfl⟩ := List.cons.inj (hq.symm.trans hdp)
    rw [hws, hq, List.filter_cons_of_pos (by simp)] at ih
    obtain ⟨rfl, rfl⟩ := List.cons.inj ih
    rw [hcq, List.filter_cons_of_pos (by simp)]
  | case7 c d r hc hd hws ih =>
    obtain ⟨p, ps, -, hdp⟩ := exists_splitAll_cons hd r
    rw [hws, hdp, List.filter_cons_of_pos (by simp)] at ih
    cases ih

theorem splitWords_cons_ne_nil {c : Char} (hc : ¬ isBlank c = true) (s : List Char) :
    splitWords (c :: s) ≠ [] := by
  obtain ⟨q, qs, -, hcq⟩ := exists_splitAll_cons hc s
  rw [splitWords_eq_filter, hcq, List.filter_cons_of_pos (by simp)]
  exact List.cons_ne_nil _ _

/-! ## Where the words of a text are -/

theorem splitWords_append_blank {c : Char} (hc : isBlank c = true) (a b : List Char) :
    splitWords (a ++ c :: b) = splitWords a ++ splitWords b := by
  simp only [splitWords_eq_filter, splitAll_append_cons hc, List.filter_append]

theorem splitWords_cons_blank {c : Char} (hc : isBlank c = true) (s : List Char) :
    splitWords (c :: s) = splitWords s :=
  splitWords_append_blank hc [] s

theorem splitWords_blanks_append {a : List Char} (h : ∀ c ∈ a, isBlank c = true) (b : List Char) :
    splitWords (a ++ b) = splitWords b := by
  induction a with
  | nil => rfl
  | cons c a ih =>
    rw [List.forall_mem_cons] at h
    rw [List.cons_append, splitWords_cons_blank h.1, ih h.2]

theorem splitWords_of_blanks {a : List Char} (h : ∀ c ∈ a, isBlank c = true) :
    splitWords a = [] := by
  have := splitWords_blanks_append h []
  rwa [List.append_nil] at this

theorem splitWords_append_blanks {b : List Char} (h : ∀ c ∈ b, isBlank c = true) (a : List Char) :
    splitWords (a ++ b) = splitWords a := by
  cases b with
  | nil => rw [List.append_nil]
  | cons c b =>
    rw [List.forall_mem_cons] at h
    rw [splitWords_append_blank h.1, splitWords_of_blanks h.2, List.append_nil]

theorem splitWords_trimBlanks (s : List Char) : splitWords (trimBlanks s) = splitWords s := by
  obtain ⟨front, back, hs, hfront, hback⟩ := exists_blanks_around s
  conv => rhs; rw [hs]
  rw [splitWords_blanks_append hfront, splitWords_append_blanks hback]

theorem splitWords_dropWhile (s : List Char) : splitWords (s.dropWhile isBlank) = splitWords s := by
  conv => rhs; rw [← List.takeWhile_append_dropWhile (p := isBlank) (l := s)]
  exact (splitWords_blanks_append (List.all_eq_true.1 List.all_takeWhile) _).symm

/-! ## Single words -/

/-- Whether a text is one word. -/
structure IsOneWord (w : List Char) : Prop where
  ne_nil : w ≠ []
  not_isBlank : ∀ c ∈ w, isBlank c = false

instance (w : List Char) : Decidable (IsOneWord w) :=
  decidable_of_iff (w ≠ [] ∧ w.all (!isBlank ·) = true) <| by
    simp only [List.all_eq_true, Bool.not_eq_true']
    exact ⟨fun h => ⟨h.1, h.2⟩, fun h => ⟨h.1, h.2⟩⟩

theorem isOneWord_of_mem_splitWords {s w : List Char} (h : w ∈ splitWords s) : IsOneWord w := by
  rw [splitWords_eq_filter, List.mem_filter] at h
  exact ⟨of_decide_eq_true h.2, not_of_mem_splitAll h.1⟩

theorem mem_of_mem_splitWords {s w : List Char} (h : w ∈ splitWords s) {c : Char} (hc : c ∈ w) :
    c ∈ s := by
  rw [splitWords_eq_filter, List.mem_filter] at h
  exact mem_of_mem_splitAll h.1 hc

theorem IsOneWord.splitWords_eq {w : List Char} (h : IsOneWord w) : splitWords w = [w] := by
  rw [splitWords_eq_filter, splitAll_eq_singleton h.not_isBlank,
    List.filter_cons_of_pos (by simpa using h.ne_nil), List.filter_nil]

/-! ## Words by their places -/

/-- The words of a text, told without the search for them.  A word goes on to the end of the text or
to a blank, so what follows a word begins with a blank, and no word can be cut in two. -/
inductive AreWords : List Char → List (List Char) → Prop where
  | nil : AreWords [] []
  | blank {c : Char} {s : List Char} {ws : List (List Char)} (hc : isBlank c = true)
      (h : AreWords s ws) : AreWords (c :: s) ws
  | word {w s : List Char} {ws : List (List Char)} (hw : IsOneWord w)
      (hs : ∀ c ∈ s.head?, isBlank c = true) (h : AreWords s ws) : AreWords (w ++ s) (w :: ws)

theorem areWords_singleton {c : Char} (hc : isBlank c = false) {s : List Char}
    {ws : List (List Char)} (hs : ∀ d ∈ s.head?, isBlank d = true) (h : AreWords s ws) :
    AreWords (c :: s) ([c] :: ws) :=
  .word ⟨List.cons_ne_nil c [], by simpa using hc⟩ hs h

/-- A character that is not blank goes to the front of a word that begins right behind it. -/
theorem AreWords.cons {c d : Char} {s w : List Char} {ws : List (List Char)}
    (h : AreWords (d :: s) (w :: ws)) (hc : isBlank c = false) (hd : isBlank d = false) :
    AreWords (c :: d :: s) ((c :: w) :: ws) := by
  generalize hs : d :: s = t at h ⊢
  cases h with
  | blank hblank h =>
    obtain ⟨rfl, -⟩ := List.cons.inj hs
    simp [hd] at hblank
  | word hw hrest h =>
    exact .word ⟨List.cons_ne_nil c w, List.forall_mem_cons.2 ⟨hc, hw.not_isBlank⟩⟩ hrest h

theorem areWords_splitWords (s : List Char) : AreWords s (splitWords s) := by
  fun_induction splitWords s with
  | case1 => exact .nil
  | case2 c hc => exact .blank hc .nil
  | case3 c hc => exact areWords_singleton (by simpa using hc) (by simp) .nil
  | case4 c d r hc ih => exact .blank hc ih
  | case5 c d r hc hd ih => exact areWords_singleton (by simpa using hc) (by simpa using hd) ih
  | case6 c d r hc hd w ws hws ih =>
    rw [hws] at ih
    exact ih.cons (by simpa using hc) (by simpa using hd)
  | case7 c d r hc hd hws ih => exact absurd hws (splitWords_cons_ne_nil hd r)

/-- A text has one sequence of words. -/
theorem areWords_iff {s : List Char} {ws : List (List Char)} :
    AreWords s ws ↔ ws = splitWords s := by
  constructor
  · intro h
    induction h with
    | nil => rfl
    | blank hc _ ih => rw [ih, splitWords_cons_blank hc]
    | @word w s ws hw hs _ ih =>
      rw [ih]
      cases s with
      | nil => rw [List.append_nil, hw.splitWords_eq, splitWords]
      | cons c s =>
        have hc : isBlank c = true := hs c rfl
        rw [splitWords_append_blank hc, hw.splitWords_eq, splitWords_cons_blank hc,
          List.singleton_append]
  · rintro rfl
    exact areWords_splitWords s

/-! ## Words that are joined -/

/-- Whether the only blanks of a text are single spaces between its words. -/
structure IsSpaced (s : List Char) : Prop where
  isTrimmed : IsTrimmed s
  eq_space : ∀ c ∈ s, isBlank c = true → c = ' '
  single : s.IsChain fun c d => isBlank c = true → isBlank d = false

theorem IsOneWord.isSpaced {w : List Char} (h : IsOneWord w) : IsSpaced w := by
  refine ⟨isTrimmed_of_no_blank h.not_isBlank, fun c hc hblank => ?_, ?_⟩
  · simp [h.not_isBlank c hc] at hblank
  · apply List.Pairwise.isChain
    apply List.pairwise_of_forall_mem_list
    exact fun c _ d hd _ => h.not_isBlank d hd

theorem IsSpaced.word_append {w s : List Char} (hs : IsSpaced s) (hne : s ≠ []) (hw : IsOneWord w) :
    IsSpaced (w ++ ' ' :: s) := by
  refine ⟨⟨?_, ?_⟩, ?_, ?_⟩
  · rw [List.head?_append_of_ne_nil w hw.ne_nil]
    exact hw.isSpaced.isTrimmed.head
  · rw [List.getLast?_append_of_ne_nil w (List.cons_ne_nil ' ' s), List.getLast?_cons_of_ne_nil hne]
    exact hs.isTrimmed.getLast
  · intro c hc hblank
    rcases List.mem_append.1 hc with hc | hc
    · exact hw.isSpaced.eq_space c hc hblank
    · rcases List.mem_cons.1 hc with rfl | hc
      · rfl
      · exact hs.eq_space c hc hblank
  · rw [List.isChain_append, List.isChain_cons]
    refine ⟨hw.isSpaced.single, ⟨fun d hd _ => hs.isTrimmed.head d hd, hs.single⟩,
      fun c hc d _ hblank => ?_⟩
    simp [hw.isSpaced.isTrimmed.getLast c hc] at hblank

/-- A word ends where a blank begins. -/
theorem IsOneWord.splitWords_append {w gap : List Char} (hw : IsOneWord w) (hne : gap ≠ [])
    (hgap : ∀ c ∈ gap, isBlank c = true) (s : List Char) :
    splitWords (w ++ (gap ++ s)) = w :: splitWords s := by
  obtain ⟨c, gap, rfl⟩ := List.exists_cons_of_ne_nil hne
  rw [List.forall_mem_cons] at hgap
  rw [List.cons_append, splitWords_append_blank hgap.1, hw.splitWords_eq,
    splitWords_blanks_append hgap.2, List.singleton_append]

theorem splitWords_intercalate {ws : List (List Char)} (h : ∀ w ∈ ws, IsOneWord w) :
    splitWords ([' '].intercalate ws) = ws := by
  induction ws with
  | nil => rfl
  | cons w ws ih =>
    rw [List.forall_mem_cons] at h
    cases ws with
    | nil => rw [List.intercalate_singleton, h.1.splitWords_eq]
    | cons v ws =>
      have hspace : ∀ c ∈ [' '], isBlank c = true := List.forall_mem_singleton.2 rfl
      rw [List.intercalate_cons_cons, List.append_assoc,
        h.1.splitWords_append (List.cons_ne_nil ' ' []) hspace, ih h.2]

theorem intercalate_words_ne_nil {ws : List (List Char)} (h : ∀ w ∈ ws, IsOneWord w)
    (hne : ws ≠ []) : [' '].intercalate ws ≠ [] := by
  intro hnil
  have hwords := splitWords_intercalate h
  rw [hnil] at hwords
  exact hne hwords.symm

theorem isSpaced_intercalate {ws : List (List Char)} (h : ∀ w ∈ ws, IsOneWord w) :
    IsSpaced ([' '].intercalate ws) := by
  induction ws with
  | nil => exact ⟨isTrimmed_of_no_blank (by simp), by simp, .nil⟩
  | cons w ws ih =>
    rw [List.forall_mem_cons] at h
    cases ws with
    | nil =>
      rw [List.intercalate_singleton]
      exact h.1.isSpaced
    | cons v ws =>
      rw [List.intercalate_cons_cons, List.append_assoc, List.singleton_append]
      exact (ih h.2).word_append (intercalate_words_ne_nil h.2 (List.cons_ne_nil v ws)) h.1

/-! ## Texts -/

theorem words_ofList (s : List Char) :
    words (String.ofList s) = (splitWords s).map String.ofList := by
  rw [words, String.toList_ofList]

theorem isOneWord_of_mem_words {s w : String} (h : w ∈ words s) : IsOneWord w.toList := by
  obtain ⟨v, hv, rfl⟩ := List.mem_map.1 h
  rw [String.toList_ofList]
  exact isOneWord_of_mem_splitWords hv

theorem mem_of_mem_words {s w : String} (h : w ∈ words s) {c : Char} (hc : c ∈ w.toList) :
    c ∈ s.toList := by
  obtain ⟨v, hv, rfl⟩ := List.mem_map.1 h
  rw [String.toList_ofList] at hc
  exact mem_of_mem_splitWords hv hc

/-- Joined words are found again. -/
theorem words_intercalate {ws : List String} (h : ∀ w ∈ ws, IsOneWord w.toList) :
    words (" ".intercalate ws) = ws := by
  have hws : ∀ w ∈ ws.map String.toList, IsOneWord w := by simpa using h
  rw [words, String.toList_intercalate]
  have hsep : " ".toList = [' '] := rfl
  rw [hsep, splitWords_intercalate hws, List.map_map]
  simp [Function.comp_def]

/-- Whether two texts have the same words in the same order. -/
def HaveSameWords (s t : String) : Prop := ∃ ws, AreWords s.toList ws ∧ AreWords t.toList ws

theorem haveSameWords_iff {s t : String} : HaveSameWords s t ↔ words s = words t := by
  rw [words, words, List.map_inj_right fun _ _ => String.ofList_injective]
  constructor
  · rintro ⟨ws, hs, ht⟩
    exact (areWords_iff.1 hs).symm.trans (areWords_iff.1 ht)
  · exact fun h => ⟨_, areWords_splitWords _, areWords_iff.2 h⟩

instance (s t : String) : Decidable (HaveSameWords s t) := decidable_of_iff _ haveSameWords_iff.symm

theorem toList_respace (s : String) :
    (respace s).toList = [' '].intercalate (splitWords s.toList) := by
  rw [respace, String.toList_intercalate, words, List.map_map]
  simp [Function.comp_def]

theorem isSpaced_respace (s : String) : IsSpaced (respace s).toList := by
  rw [toList_respace]
  exact isSpaced_intercalate fun w => isOneWord_of_mem_splitWords

theorem words_respace (s : String) : words (respace s) = words s :=
  words_intercalate fun _ => isOneWord_of_mem_words

theorem respace_respace (s : String) : respace (respace s) = respace s := by
  rw [respace, words_respace, ← respace]

/-- Respacing gives one text for each sequence of words. -/
theorem respace_eq_iff {s t : String} : respace s = respace t ↔ words s = words t := by
  constructor
  · intro h
    rw [← words_respace s, h, words_respace]
  · intro h
    rw [respace, h, ← respace]

end AddressExport.Text
