import AddressExport.Proofs.Signature.Parentheses
import AddressExport.Proofs.Text.Blank
import AddressExport.Proofs.Text.Pieces

/-!
# Parts stand in the signature

A signature has parts exactly if it can be cut around a parameter list with something in front of it
(`Signature.ofText?_eq_some_iff`).  What the parts are made of stands in the signature, so the type
of a pointer to the function has no line feed if the signature has none.
-/

namespace AddressExport

theorem splitParameters_ne_nil (depth : Int) (s : List Char) : splitParameters depth s ≠ [] := by
  fun_cases splitParameters depth s <;> simp_all

theorem mem_of_mem_splitParameters {depth : Int} {s p : List Char}
    (hp : p ∈ splitParameters depth s) {c : Char} (hc : c ∈ p) : c ∈ s := by
  induction s generalizing depth p with
  | nil =>
    rw [splitParameters, List.mem_singleton] at hp
    rwa [hp] at hc
  | cons d r ih =>
    rw [splitParameters] at hp
    split at hp
    · rcases List.mem_cons.1 hp with rfl | hp
      · cases hc
      · exact List.mem_cons_of_mem d (ih hp hc)
    · obtain ⟨x, xs, hx⟩ :=
        List.exists_cons_of_ne_nil (splitParameters_ne_nil (depth + nesting d) r)
      rw [hx] at hp
      rcases List.mem_cons.1 hp with rfl | hp
      · rcases List.mem_cons.1 hc with rfl | hc
        · exact List.mem_cons_self
        · exact List.mem_cons_of_mem d (ih (hx ▸ List.mem_cons_self) hc)
      · exact List.mem_cons_of_mem d (ih (hx ▸ List.mem_cons_of_mem x hp) hc)

theorem mem_of_mem_parametersOf {list : List Char} {p : String} (hp : p ∈ parametersOf list)
    {c : Char} (hc : c ∈ p.toList) : c ∈ list := by
  unfold parametersOf at hp
  dsimp only at hp
  split at hp
  · cases hp
  · obtain ⟨q, hq, rfl⟩ := List.mem_map.1 hp
    rw [String.toList_ofList] at hc
    exact Text.mem_of_mem_trimBlanks (mem_of_mem_splitParameters hq (Text.mem_of_mem_trimBlanks hc))

namespace Signature

variable {signature : String} {s : Signature}

/-- A signature cut around its outermost parameter list: the parenthesis that closes the list is the
last one that closes, and the one that opens it is the partner of that one. -/
structure IsCut (signature front list back : List Char) : Prop where
  eq : signature = front ++ '(' :: (list ++ ')' :: back)
  isBalanced : IsBalanced list
  not_mem_back : ')' ∉ back

theorem isCut_iff {signature front list back : List Char} :
    IsCut signature front list back ↔
      Text.splitFirst? (· == ')') signature.reverse =
        some (back.reverse, (front ++ '(' :: list).reverse) ∧
        splitAtOpening? 0 (front ++ '(' :: list).reverse = some (list.reverse, front.reverse) := by
  rw [splitAtOpening?_reverse_eq_some_iff, Text.splitFirst?_eq_some_iff]
  constructor
  · rintro ⟨rfl, hbalanced, hback⟩
    refine ⟨⟨')', rfl, by simp, fun x hx => ?_⟩, rfl, hbalanced⟩
    rw [beq_eq_false_iff_ne]
    rintro rfl
    exact hback (List.mem_reverse.1 hx)
  · rintro ⟨⟨c, hc, hsignature, hback⟩, -, hbalanced⟩
    obtain rfl := eq_of_beq hc
    refine ⟨?_, hbalanced, fun hmem => ?_⟩
    · rw [← List.reverse_inj, hsignature]
      simp
    · simpa using hback ')' (List.mem_reverse.2 hmem)

/-- A signature has parts exactly if it can be cut around a parameter list in front of which not all
is blank. -/
theorem ofText?_eq_some_iff :
    ofText? signature = some s ↔
      ∃ front list back, IsCut signature.toList front list back ∧ Text.trimBlanks front ≠ [] ∧
        s = ⟨String.ofList (Text.trimBlanks front), parametersOf list,
          String.ofList (Text.trimBlanks back)⟩ := by
  constructor
  · intro h
    unfold ofText? at h
    split at h
    · next back upToList hclose =>
      split at h
      · next list front hopen =>
        dsimp only at h
        rw [Option.ite_none_left_eq_some] at h
        obtain ⟨hfront, hs⟩ := h
        have hparts := (splitAtOpening?_eq_some_iff.1 hopen).1
        refine ⟨front.reverse, list.reverse, back.reverse, isCut_iff.2 ?_, hfront,
          (Option.some.inj hs).symm⟩
        have hrev : (front.reverse ++ '(' :: list.reverse).reverse = upToList := by simp [hparts]
        rw [hrev, List.reverse_reverse, List.reverse_reverse, List.reverse_reverse]
        exact ⟨hclose, hopen⟩
      · cases h
    · cases h
  · rintro ⟨front, list, back, hcut, hfront, rfl⟩
    obtain ⟨hclose, hopen⟩ := isCut_iff.1 hcut
    simp only [ofText?, hclose, hopen, List.reverse_reverse, if_neg hfront]

theorem mem_of_ofText? (h : ofText? signature = some s) {c : Char}
    (hc : c ∈ s.result.toList ∨ (∃ p ∈ s.parameters, c ∈ p.toList) ∨ c ∈ s.trailing.toList) :
    c ∈ signature.toList := by
  obtain ⟨front, list, back, hcut, -, rfl⟩ := ofText?_eq_some_iff.1 h
  rw [hcut.eq]
  simp only [String.toList_ofList] at hc
  rcases hc with hc | ⟨p, hp, hc⟩ | hc
  · simp [Text.mem_of_mem_trimBlanks hc]
  · simp [mem_of_mem_parametersOf hp hc]
  · simp [Text.mem_of_mem_trimBlanks hc]

theorem mem_of_ofText (h : ofText signature = .ok s) {c : Char}
    (hc : c ∈ s.result.toList ∨ (∃ p ∈ s.parameters, c ∈ p.toList) ∨ c ∈ s.trailing.toList) :
    c ∈ signature.toList := by
  unfold ofText at h
  split at h
  · next hs => exact mem_of_ofText? (Except.ok.inj h ▸ hs) hc
  · cases h

end Signature

theorem lineFeed_not_mem_pointerType {signature type : String}
    (h : pointerType signature = .ok type) (hsig : '\n' ∉ signature.toList) :
    '\n' ∉ type.toList := by
  unfold pointerType at h
  cases hs : Signature.ofText signature with
  | error e => simp [hs, Except.map] at h
  | ok s =>
    simp only [hs, Except.map, Except.ok.injEq] at h
    subst h
    have hresult : '\n' ∉ s.result.toList := fun hc => hsig (Signature.mem_of_ofText hs (.inl hc))
    have htrailing : '\n' ∉ s.trailing.toList := fun hc =>
      hsig (Signature.mem_of_ofText hs (.inr (.inr hc)))
    have hparameters : '\n' ∉ [',', ' '].intercalate (s.parameters.map String.toList) := by
      intro hmem
      rcases Text.mem_of_mem_intercalate hmem with hmem | ⟨q, hq, hmem⟩
      · exact absurd hmem (by decide)
      · obtain ⟨p, hp, rfl⟩ := List.mem_map.1 hq
        exact hsig (Signature.mem_of_ofText hs (.inr (.inl ⟨p, hp, hmem⟩)))
    unfold Signature.pointerType
    split <;> simp [hresult, hparameters, htrailing]

end AddressExport
