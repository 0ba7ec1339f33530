import AddressExport.Text.Blank
import Mathlib.Data.List.TakeWhile

/-!
# What trimming takes away

A text is what `trimBlanks` leaves of it between two runs of blanks (`exists_blanks_around`).  What
is left has no blank at either end (`isTrimmed_trimBlanks`), and nothing else is lost
(`withoutBlanks_trimBlanks`).
-/

namespace AddressExport.Text

theorem trimBlanks_cons_blank {c : Char} (hc : isBlank c = true) (s : List Char) :
    trimBlanks (c :: s) = trimBlanks s := by
  rw [trimBlanks, List.dropWhile_cons_of_pos hc, trimBlanks]

theorem trimBlanks_append_blank (s : List Char) {c : Char} (hc : isBlank c = true) :
    trimBlanks (s ++ [c]) = trimBlanks s := by
  induction s with
  | nil => exact trimBlanks_cons_blank hc []
  | cons d s ih =>
    by_cases hd : isBlank d = true
    · rw [List.cons_append, trimBlanks_cons_blank hd, trimBlanks_cons_blank hd, ih]
    · rw [trimBlanks, trimBlanks, List.cons_append, List.dropWhile_cons_of_neg hd,
        List.dropWhile_cons_of_neg hd, ← List.cons_append, List.reverse_append,
        List.reverse_singleton, List.singleton_append, List.dropWhile_cons_of_pos hc]

theorem trimBlanks_blanks_append {front : List Char} (h : ∀ c ∈ front, isBlank c = true)
    (s : List Char) : trimBlanks (front ++ s) = trimBlanks s := by
  induction front with
  | nil => rfl
  | cons c front ih =>
    rw [List.forall_mem_cons] at h
    rw [List.cons_append, trimBlanks_cons_blank h.1, ih h.2]

theorem trimBlanks_append_blanks {back : List Char} (h : ∀ c ∈ back, isBlank c = true)
    (s : List Char) : trimBlanks (s ++ back) = trimBlanks s := by
  induction back generalizing s with
  | nil => rw [List.append_nil]
  | cons c back ih =>
    rw [List.forall_mem_cons] at h
    rw [List.append_cons, ih h.2, trimBlanks_append_blank s h.1]

theorem exists_blanks_around (s : List Char) :
    ∃ front back, s = front ++ (trimBlanks s ++ back) ∧ (∀ c ∈ front, isBlank c = true) ∧
      ∀ c ∈ back, isBlank c = true := by
  let body := s.dropWhile isBlank
  refine ⟨s.takeWhile isBlank, (body.reverse.takeWhile isBlank).reverse, ?_, ?_, ?_⟩
  · have hbody : trimBlanks s ++ (body.reverse.takeWhile isBlank).reverse = body := by
      rw [trimBlanks, ← List.reverse_append, List.takeWhile_append_dropWhile, List.reverse_reverse]
    rw [hbody, List.takeWhile_append_dropWhile]
  · exact List.all_eq_true.1 List.all_takeWhile
  · intro c hc
    exact List.all_eq_true.1 List.all_takeWhile c (List.mem_reverse.1 hc)

theorem mem_of_mem_trimBlanks {s : List Char} {c : Char} (h : c ∈ trimBlanks s) : c ∈ s := by
  obtain ⟨front, back, hs, -, -⟩ := exists_blanks_around s
  rw [hs]
  exact List.mem_append_right front (List.mem_append_left back h)

theorem trimBlanks_eq_nil_iff {s : List Char} : trimBlanks s = [] ↔ ∀ c ∈ s, isBlank c = true := by
  constructor
  · intro h c hc
    obtain ⟨front, back, hs, hfront, hback⟩ := exists_blanks_around s
    rw [hs, h, List.nil_append] at hc
    rcases List.mem_append.1 hc with hc | hc
    · exact hfront c hc
    · exact hback c hc
  · intro h
    rw [trimBlanks, List.dropWhile_eq_nil_iff.2 h]
    rfl

/-- Whether a text neither begins nor ends with a blank. -/
structure IsTrimmed (s : List Char) : Prop where
  head : ∀ c ∈ s.head?, isBlank c = false
  getLast : ∀ c ∈ s.getLast?, isBlank c = false

instance (s : List Char) : Decidable (IsTrimmed s) :=
  decidable_of_iff (s.head?.all (!isBlank ·) = true ∧ s.getLast?.all (!isBlank ·) = true) <| by
    simp only [Option.all_eq_true, Bool.not_eq_true']
    exact ⟨fun h => ⟨h.1, h.2⟩, fun h => ⟨h.1, h.2⟩⟩

theorem not_isBlank_of_mem_head?_dropWhile {s : List Char} {c : Char}
    (h : c ∈ (s.dropWhile isBlank).head?) : isBlank c = false := by
  have := List.head?_dropWhile_not isBlank s
  rw [Option.mem_def.1 h] at this
  simpa using this

theorem isTrimmed_trimBlanks (s : List Char) : IsTrimmed (trimBlanks s) := by
  constructor
  · intro c hc
    obtain ⟨rest, hrest⟩ : trimBlanks s <+: s.dropWhile isBlank := by
      rw [trimBlanks, ← List.reverse_suffix, List.reverse_reverse]
      exact List.dropWhile_suffix isBlank
    refine not_isBlank_of_mem_head?_dropWhile (s := s) ?_
    rw [← hrest, List.head?_append, Option.mem_def.1 hc]
    rfl
  · intro c hc
    rw [trimBlanks, List.getLast?_reverse] at hc
    exact not_isBlank_of_mem_head?_dropWhile hc

theorem IsTrimmed.trimBlanks_eq {s : List Char} (h : IsTrimmed s) : trimBlanks s = s := by
  have hdrop (t : List Char) (ht : ∀ c ∈ t.head?, isBlank c = false) : t.dropWhile isBlank = t := by
    cases t with
    | nil => rfl
    | cons c t => exact List.dropWhile_cons_of_neg (by simp [ht c rfl])
  have hlast : ∀ c ∈ s.reverse.head?, isBlank c = false := by
    rw [List.head?_reverse]
    exact h.getLast
  rw [trimBlanks, hdrop s h.head, hdrop s.reverse hlast, List.reverse_reverse]

theorem isTrimmed_of_no_blank {s : List Char} (h : ∀ c ∈ s, isBlank c = false) : IsTrimmed s :=
  ⟨fun c hc => h c (List.mem_of_head? hc), fun c hc => h c (List.mem_of_getLast? hc)⟩

theorem trimBlanks_append_singleton {c : Char} (hc : isBlank c = false) (s : List Char) :
    trimBlanks (s ++ [c]) = s.dropWhile isBlank ++ [c] := by
  have htrimmed : IsTrimmed (s.dropWhile isBlank ++ [c]) := by
    refine ⟨fun x hx => ?_, by simpa using hc⟩
    rw [List.head?_append, Option.mem_def, Option.or_eq_some_iff] at hx
    rcases hx with hx | ⟨-, hx⟩
    · exact not_isBlank_of_mem_head?_dropWhile hx
    · rwa [← Option.some.inj hx]
  have hsplit : s ++ [c] = s.takeWhile isBlank ++ (s.dropWhile isBlank ++ [c]) := by
    rw [← List.append_assoc, List.takeWhile_append_dropWhile]
  rw [hsplit, trimBlanks_blanks_append (List.all_eq_true.1 List.all_takeWhile),
    htrimmed.trimBlanks_eq]

/-- A text that begins like a trimmed one and ends with a character that is not blank. -/
theorem IsTrimmed.append_singleton {s : List Char} (h : IsTrimmed s) {c : Char}
    (hc : isBlank c = false) (hs : s ≠ []) (t : List Char) : IsTrimmed (s ++ t ++ [c]) := by
  obtain ⟨d, s, rfl⟩ := List.exists_cons_of_ne_nil hs
  refine ⟨fun x hx => h.head x (by simpa using hx), ?_⟩
  rw [List.getLast?_concat]
  simpa using hc

/-- What is written of a text behind another: a space and the text, or nothing if it is empty. -/
def setOff (s : String) : String := if s = "" then "" else " " ++ s

theorem trimBlanks_setOff {s : String} (h : IsTrimmed s.toList) :
    trimBlanks (setOff s).toList = s.toList := by
  unfold setOff
  split
  · next hnil =>
    rw [hnil]
    rfl
  · rw [String.toList_append]
    exact (trimBlanks_cons_blank rfl _).trans h.trimBlanks_eq

theorem not_mem_setOff {s : String} {c : Char} (hc : c ≠ ' ') (h : c ∉ s.toList) :
    c ∉ (setOff s).toList := by
  unfold setOff
  split
  · simp
  · simp [hc, h]

/-- What is left of a text when all its blanks are deleted. -/
def withoutBlanks (s : List Char) : List Char := s.filter fun c => !isBlank c

@[simp] theorem withoutBlanks_append (s t : List Char) :
    withoutBlanks (s ++ t) = withoutBlanks s ++ withoutBlanks t := List.filter_append _ _

theorem withoutBlanks_cons {c : Char} (hc : isBlank c = false) (s : List Char) :
    withoutBlanks (c :: s) = c :: withoutBlanks s := List.filter_cons_of_pos (by simp [hc])

theorem withoutBlanks_eq_nil {s : List Char} (h : ∀ c ∈ s, isBlank c = true) :
    withoutBlanks s = [] := by
  rw [withoutBlanks, List.filter_eq_nil_iff]
  intro c hc
  simp [h c hc]

@[simp] theorem withoutBlanks_trimBlanks (s : List Char) :
    withoutBlanks (trimBlanks s) = withoutBlanks s := by
  obtain ⟨front, back, hs, hfront, hback⟩ := exists_blanks_around s
  conv => rhs; rw [hs]
  simp [withoutBlanks_eq_nil hfront, withoutBlanks_eq_nil hback]

end AddressExport.Text
