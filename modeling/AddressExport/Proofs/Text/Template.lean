import AddressExport.Proofs.Text.Pieces
import AddressExport.Text.Lines

/-!
# Templates are filled in line by line

A blank without a line feed lies within one line, so filling it in changes each line on its own
(`fill_unlines`).  In a line it is found behind a text that does not hold its first character.
-/

namespace AddressExport.Text

variable {blank value : List Char}

theorem prefix_append_cons_iff {c : Char} (hc : c ∉ blank) {a s : List Char} :
    blank <+: a ++ c :: s ↔ blank <+: a := by
  constructor
  · intro h
    have hac : a ++ [c] <+: a ++ c :: s := ⟨s, by simp⟩
    rcases List.prefix_or_prefix_of_prefix h hac with hblank | hlong
    · rcases List.prefix_concat_iff.1 hblank with rfl | hshort
      · simp at hc
      · exact hshort
    · exact absurd (hlong.subset (by simp)) hc
  · intro h
    exact h.trans (List.prefix_append a (c :: s))

/-- Filling in goes on behind a line feed, also if an occurrence is being passed over that ends in
front of it. -/
theorem fillFrom_append_lineFeed (hne : blank ≠ []) (hblank : '\n' ∉ blank) (s : List Char)
    {skip : Nat} {a : List Char} (hskip : skip ≤ a.length) :
    fillFrom blank value skip (a ++ '\n' :: s) =
      fillFrom blank value skip a ++ '\n' :: fillFrom blank value 0 s := by
  induction a generalizing skip with
  | nil =>
    have hno : blank.isPrefixOf ('\n' :: s) = false := by
      rw [Bool.eq_false_iff, ne_eq, List.isPrefixOf_iff_prefix, ← List.nil_append ('\n' :: s),
        prefix_append_cons_iff hblank, List.prefix_nil]
      exact hne
    obtain rfl : skip = 0 := Nat.le_zero.1 hskip
    simp [fillFrom, hno]
  | cons c a ih =>
    cases skip with
    | succ n => exact ih (Nat.le_of_succ_le_succ hskip)
    | zero =>
      have hsame : blank.isPrefixOf (c :: (a ++ '\n' :: s)) = blank.isPrefixOf (c :: a) := by
        rw [Bool.eq_iff_iff, List.isPrefixOf_iff_prefix, List.isPrefixOf_iff_prefix,
          ← List.cons_append, prefix_append_cons_iff hblank]
      rw [List.cons_append, fillFrom, fillFrom, hsame]
      split
      · next hprefix =>
        have hlength := (List.isPrefixOf_iff_prefix.1 hprefix).length_le
        rw [ih (by rw [List.length_cons] at hlength; omega), List.append_assoc]
      · rw [ih (Nat.zero_le _), List.cons_append]

theorem fill_unlines {blank value : String} (hne : blank.toList ≠ []) (hblank : '\n' ∉ blank.toList)
    (ls : List String) : fill blank value (unlines ls) = unlines (ls.map (fill blank value)) := by
  rw [fill, unlines, unlines, String.toList_ofList]
  congr 1
  induction ls with
  | nil => rfl
  | cons l ls ih =>
    rw [List.flatMap_cons, List.append_assoc, List.singleton_append,
      fillFrom_append_lineFeed hne hblank _ (Nat.zero_le _), ih, List.map_cons, List.flatMap_cons,
      fill, String.toList_ofList, List.append_assoc, List.singleton_append]

theorem fill_of_not_contains {blank s : String} (h : contains blank.toList s.toList = false)
    (value : String) : fill blank value s = s := by
  suffices hlist : ∀ t : List Char, contains blank.toList t = false →
      fillFrom blank.toList value.toList 0 t = t by
    rw [fill, hlist s.toList h, String.ofList_toList]
  intro t ht
  induction t with
  | nil => rfl
  | cons c t ih =>
    rw [contains_cons, Bool.or_eq_false_iff] at ht
    simp [fillFrom, ht.1, ih ht.2]

theorem fillFrom_append {c : Char} {a : List Char} (hc : c ∉ a) (s : List Char) :
    fillFrom (c :: blank) value 0 (a ++ s) = a ++ fillFrom (c :: blank) value 0 s := by
  induction a with
  | nil => rfl
  | cons d a ih =>
    have hd : c ≠ d := fun h => hc (by simp [h])
    have hno : (c :: blank).isPrefixOf (d :: (a ++ s)) = false := by
      simp [List.isPrefixOf_cons_cons, hd]
    rw [List.cons_append, fillFrom]
    simp [hno, ih fun h => hc (List.mem_cons_of_mem d h)]

theorem fillFrom_skip {skip : Nat} {a : List Char} (h : a.length = skip) (s : List Char) :
    fillFrom blank value skip (a ++ s) = fillFrom blank value 0 s := by
  induction a generalizing skip with
  | nil => rw [← h]; rfl
  | cons c a ih =>
    rw [← h]
    exact ih rfl

theorem fillFrom_blank_append (hne : blank ≠ []) (s : List Char) :
    fillFrom blank value 0 (blank ++ s) = value ++ fillFrom blank value 0 s := by
  obtain ⟨c, rest, rfl⟩ := List.exists_cons_of_ne_nil hne
  have hyes : (c :: rest).isPrefixOf (c :: (rest ++ s)) = true :=
    List.isPrefixOf_iff_prefix.2 (List.prefix_append (c :: rest) s)
  rw [List.cons_append, fillFrom]
  simp only [hyes, if_true]
  rw [fillFrom_skip (by simp)]

theorem fill_append {blank front : String} {c : Char} (hhead : blank.toList.head? = some c)
    (hc : c ∉ front.toList) (value rest : String) :
    fill blank value (front ++ rest) = front ++ fill blank value rest := by
  obtain ⟨r, hr⟩ := List.head?_eq_some_iff.1 hhead
  rw [← String.toList_inj, fill, fill]
  simp only [String.toList_ofList, String.toList_append]
  rw [hr, fillFrom_append hc]

theorem fill_append_blank {blank front : String} {c : Char} (hhead : blank.toList.head? = some c)
    (hc : c ∉ front.toList) (value rest : String) :
    fill blank value (front ++ blank ++ rest) = front ++ value ++ fill blank value rest := by
  obtain ⟨r, hr⟩ := List.head?_eq_some_iff.1 hhead
  have hblank : fill blank value (blank ++ rest) = value ++ fill blank value rest := by
    rw [← String.toList_inj, fill, fill]
    simp only [String.toList_ofList, String.toList_append]
    rw [hr, fillFrom_blank_append (List.cons_ne_nil c r)]
  rw [String.append_assoc, fill_append hhead hc, hblank, String.append_assoc]

theorem mem_of_mem_fillFrom {d : Char} {skip : Nat} {s : List Char}
    (h : d ∈ fillFrom blank value skip s) : d ∈ value ∨ d ∈ s := by
  induction s generalizing skip with
  | nil => cases h
  | cons c s ih =>
    cases skip with
    | succ n => exact (ih h).imp_right (List.mem_cons_of_mem c)
    | zero =>
      rw [fillFrom] at h
      split at h
      · rcases List.mem_append.1 h with h | h
        · exact .inl h
        · exact (ih h).imp_right (List.mem_cons_of_mem c)
      · rcases List.mem_cons.1 h with rfl | h
        · exact .inr List.mem_cons_self
        · exact (ih h).imp_right (List.mem_cons_of_mem c)

end AddressExport.Text
