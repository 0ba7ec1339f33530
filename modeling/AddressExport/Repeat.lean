/-!
# The first repeat

Several checks look for the first element of a list whose key an earlier element has already, and
name both.
-/

namespace AddressExport

variable {α κ : Type} [DecidableEq κ]

/-- The first element of the list whose key one of `seen`, or of the elements before it, has; and
the first of those.  Elements that have been seen come with their keys. -/
def firstRepeatAfter? (key : α → κ) (seen : List (κ × α)) : List α → Option (α × α)
  | [] => none
  | b :: r =>
    let k := key b
    match seen.find? fun a => a.1 = k with
    | some a => some (a.2, b)
    | none => firstRepeatAfter? key (seen ++ [(k, b)]) r

/-- The first element whose key an earlier one has, behind that earlier one. -/
def firstRepeat? (key : α → κ) (l : List α) : Option (α × α) :=
  firstRepeatAfter? key [] l

/-- There is a repeat unless the keys are pairwise distinct and new. -/
theorem firstRepeatAfter?_eq_none_iff {key : α → κ} {seen : List (κ × α)} {l : List α} :
    firstRepeatAfter? key seen l = none ↔
      (l.map key).Nodup ∧ ∀ a ∈ seen, ∀ b ∈ l, a.1 ≠ key b := by
  induction l generalizing seen with
  | nil => simp [firstRepeatAfter?]
  | cons b r ih =>
    simp only [firstRepeatAfter?]
    split
    · next a h =>
      have ha := List.mem_of_find?_eq_some h
      have hk : a.1 = key b := by simpa using List.find?_some h
      simp only [reduceCtorEq, false_iff, not_and]
      intro _ hall
      exact hall a ha b (by simp) hk
    · next h =>
      have hnew : ∀ a ∈ seen, a.1 ≠ key b := fun a ha => by
        simpa using List.find?_eq_none.1 h a ha
      rw [ih]
      simp only [List.map_cons, List.nodup_cons, List.mem_append, List.mem_cons,
        List.not_mem_nil, or_false, List.mem_map, not_exists, not_and]
      constructor
      · rintro ⟨hn, hall⟩
        refine ⟨⟨fun x hx => (hall (key b, b) (Or.inr rfl) x hx).symm, hn⟩, fun a ha x hx => ?_⟩
        rcases hx with rfl | hx
        · exact hnew a ha
        · exact hall a (Or.inl ha) x hx
      · rintro ⟨⟨hb, hn⟩, hall⟩
        refine ⟨hn, fun a ha x hx => ?_⟩
        rcases ha with ha | rfl
        · exact hall a ha x (Or.inr hx)
        · exact fun h' => hb x hx h'.symm

theorem firstRepeat?_eq_none_iff {key : α → κ} {l : List α} :
    firstRepeat? key l = none ↔ (l.map key).Nodup := by
  simp [firstRepeat?, firstRepeatAfter?_eq_none_iff]

end AddressExport
