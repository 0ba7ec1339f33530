import AddressExport.Proofs.Signature.Splitting

/-!
# Joining parameters and splitting them again

Texts are the pieces of the list that they make with commas between them exactly if none of them
could be parted and each but the last closes its brackets (`splitParameters_intercalate`,
`arePieces_splitParameters`).  So what `parametersOf` finds in a list it finds again when the
parameters are written with a comma and a space between them (`parametersOf_intercalate`), and a
signature whose parts are such texts is read as it was written (`Signature.ofText_of_written`).
-/

namespace AddressExport

/-! ## Pieces -/

variable {depth : Int} {s p : List Char} {ps : List (List Char)}

theorem splitParameters_cons {c : Char} (hc : ¬ (c = ',' ∧ depth = 0)) (s : List Char) :
    splitParameters depth (c :: s) =
      (splitParameters (depth + nesting c) s).modifyHead (c :: ·) := by
  obtain ⟨q, qs, hqs⟩ := List.exists_cons_of_ne_nil (splitParameters_ne_nil (depth + nesting c) s)
  rw [splitParameters, if_neg hc, hqs, List.modifyHead_cons]

/-- An unparted text belongs to the piece that begins with it. -/
theorem splitParameters_append (h : IsUnparted depth p) (s : List Char) :
    splitParameters depth (p ++ s) =
      (splitParameters (depth + bracketExcess p) s).modifyHead (p ++ ·) := by
  induction p generalizing depth with
  | nil =>
    rw [bracketExcess_nil, Int.add_zero]
    exact (congrFun List.modifyHead_id _).symm
  | cons c p ih =>
    obtain ⟨hc, hp⟩ := isUnparted_cons_iff.1 h
    rw [List.cons_append, splitParameters_cons hc, ih hp, List.modifyHead_modifyHead,
      bracketExcess_cons, Int.add_assoc]
    rfl

theorem splitParameters_of_isUnparted (h : IsUnparted depth p) : splitParameters depth p = [p] := by
  have := splitParameters_append h []
  rw [List.append_nil, splitParameters, List.modifyHead_cons, List.append_nil] at this
  exact this

/-- Joined pieces are found again. -/
theorem splitParameters_intercalate (h : ArePieces depth ps) :
    splitParameters depth ([','].intercalate ps) = ps := by
  induction ps generalizing depth with
  | nil => cases h
  | cons p ps ih =>
    cases ps with
    | nil =>
      rw [List.intercalate_singleton]
      exact splitParameters_of_isUnparted h
    | cons q qs =>
      obtain ⟨hp, hclosed, hrest⟩ := h
      rw [List.intercalate_cons_cons, List.append_assoc, List.singleton_append,
        splitParameters_append hp, hclosed, splitParameters, if_pos ⟨rfl, rfl⟩, ih hrest,
        List.modifyHead_cons, List.append_nil]

/-! ## Blanks around pieces -/

theorem isUnparted_append_iff {a b : List Char} :
    IsUnparted depth (a ++ b) ↔ IsUnparted depth a ∧ IsUnparted (depth + bracketExcess a) b := by
  induction a generalizing depth with
  | nil => simp [isUnparted_nil]
  | cons c a ih =>
    rw [List.cons_append, isUnparted_cons_iff, isUnparted_cons_iff, ih, bracketExcess_cons,
      Int.add_assoc, and_assoc]

theorem isUnparted_of_blanks (h : ∀ c ∈ s, Text.isBlank c = true) : IsUnparted depth s := by
  rintro a b rfl
  exact absurd (h ',' (by simp)) (by decide)

theorem ArePieces.blanks_append (h : ArePieces depth (p :: ps)) {front : List Char}
    (hfront : ∀ c ∈ front, Text.isBlank c = true) : ArePieces depth ((front ++ p) :: ps) := by
  have hzero := bracketExcess_of_blanks hfront
  have hunparted (hp : IsUnparted depth p) : IsUnparted depth (front ++ p) :=
    isUnparted_append_iff.2 ⟨isUnparted_of_blanks hfront, by rwa [hzero, Int.add_zero]⟩
  cases ps with
  | nil => exact hunparted h
  | cons q qs =>
    exact ⟨hunparted h.1, by rw [bracketExcess_append, hzero, Int.zero_add]; exact h.2.1, h.2.2⟩

/-- Blanks behind a list belong to its last piece. -/
theorem ArePieces.exists_append_blanks (h : ArePieces depth ps) {back : List Char}
    (hback : ∀ c ∈ back, Text.isBlank c = true) :
    ∃ qs, ArePieces depth qs ∧ [','].intercalate qs = [','].intercalate ps ++ back ∧
      qs.map Text.trimBlanks = ps.map Text.trimBlanks := by
  induction ps generalizing depth with
  | nil => cases h
  | cons p ps ih =>
    cases ps with
    | nil =>
      refine ⟨[p ++ back], isUnparted_append_iff.2 ⟨h, isUnparted_of_blanks hback⟩, by simp, ?_⟩
      rw [List.map_singleton, List.map_singleton, Text.trimBlanks_append_blanks hback]
    | cons q ps =>
      obtain ⟨hp, hclosed, hrest⟩ := h
      obtain ⟨qs, hqs, hjoin, htrim⟩ := ih hrest
      cases qs with
      | nil => cases hqs
      | cons r rs =>
        refine ⟨p :: r :: rs, ⟨hp, hclosed, hqs⟩, ?_, congrArg (Text.trimBlanks p :: ·) htrim⟩
        rw [List.intercalate_cons_cons, hjoin, List.intercalate_cons_cons,
          List.append_assoc _ _ back]

/-- Blanks around a list change no parameter. -/
theorem map_trimBlanks_splitParameters (s : List Char) :
    (splitParameters 0 (Text.trimBlanks s)).map Text.trimBlanks =
      (splitParameters 0 s).map Text.trimBlanks := by
  obtain ⟨front, back, hs, hfront, hback⟩ := Text.exists_blanks_around s
  obtain ⟨qs, hqs, hjoin, htrim⟩ :=
    (arePieces_splitParameters 0 (Text.trimBlanks s)).exists_append_blanks hback
  rw [intercalate_splitParameters] at hjoin
  cases qs with
  | nil => cases hqs
  | cons q qs =>
    have hsplit : splitParameters 0 s = (front ++ q) :: qs := by
      rw [hs, ← hjoin, ← splitParameters_intercalate (hqs.blanks_append hfront)]
      cases qs <;> simp
    rw [hsplit, ← htrim]
    simp only [List.map_cons, Text.trimBlanks_blanks_append hfront]

/-! ## Lists of parameters -/

theorem bracketExcess_trimBlanks (s : List Char) :
    bracketExcess (Text.trimBlanks s) = bracketExcess s := by
  obtain ⟨front, back, hs, hfront, hback⟩ := Text.exists_blanks_around s
  conv => rhs; rw [hs]
  rw [bracketExcess_append, bracketExcess_append, bracketExcess_of_blanks hfront,
    bracketExcess_of_blanks hback, Int.zero_add, Int.add_zero]

theorem ArePieces.map_trimBlanks (h : ArePieces 0 ps) : ArePieces 0 (ps.map Text.trimBlanks) := by
  induction ps with
  | nil => cases h
  | cons p ps ih =>
    cases ps with
    | nil => exact IsUnparted.trimBlanks h
    | cons q qs => exact ⟨h.1.trimBlanks, by rw [bracketExcess_trimBlanks]; exact h.2.1, ih h.2.2⟩

/-- A space in front of every piece but the first leaves them pieces. -/
theorem ArePieces.spaced (h : ArePieces depth (p :: ps)) :
    ArePieces depth (p :: ps.map (' ' :: ·)) := by
  induction ps generalizing depth p with
  | nil => exact h
  | cons q qs ih => exact ⟨h.1, h.2.1, (ih h.2.2).blanks_append (List.forall_mem_singleton.2 rfl)⟩

theorem intercalate_spaced (p : List Char) (ps : List (List Char)) :
    [',', ' '].intercalate (p :: ps) = [','].intercalate (p :: ps.map (' ' :: ·)) := by
  induction ps generalizing p with
  | nil => rfl
  | cons q qs ih =>
    rw [List.intercalate_cons_cons, ih q, List.map_cons, List.intercalate_cons_cons,
      List.intercalate_cons_cons_left]
    simp

/-- Whether texts can be the parameters of a signature. -/
structure IsParameterList (ps : List String) : Prop where
  arePieces : ps ≠ [] → ArePieces 0 (ps.map String.toList)
  isTrimmed : ∀ p ∈ ps, Text.IsTrimmed p.toList
  /-- A list without text has no parameters. -/
  ne_empty : ps ≠ [""]
  /-- The word `void` is no parameter. -/
  ne_void : ps ≠ ["void"]

theorem isParameterList_nil : IsParameterList [] := ⟨by simp, by simp, by simp, by simp⟩

/-- The parameters of a list that has some. -/
def trimmedPieces (s : List Char) : List String :=
  (splitParameters 0 s).map fun p => String.ofList (Text.trimBlanks p)

theorem parametersOf_of_ne {list : List Char} (hnil : Text.trimBlanks list ≠ [])
    (hvoid : Text.trimBlanks list ≠ "void".toList) :
    parametersOf list = trimmedPieces (Text.trimBlanks list) := by
  rw [parametersOf, if_neg (not_or.2 ⟨hnil, hvoid⟩), trimmedPieces]

theorem map_toList_trimmedPieces (s : List Char) :
    (trimmedPieces s).map String.toList = (splitParameters 0 s).map Text.trimBlanks := by
  rw [trimmedPieces, List.map_map]
  exact List.map_congr_left fun p _ => String.toList_ofList

/-- A list with one parameter is that parameter. -/
theorem toList_eq_of_trimmedPieces {x : String} (hs : Text.IsTrimmed s)
    (h : trimmedPieces s = [x]) : x.toList = s := by
  obtain ⟨q, hq, rfl⟩ := List.map_eq_singleton_iff.1 h
  have hjoin := intercalate_splitParameters 0 s
  rw [hq, List.intercalate_singleton] at hjoin
  rw [String.toList_ofList, hjoin, hs.trimBlanks_eq]

theorem isParameterList_parametersOf (list : List Char) : IsParameterList (parametersOf list) := by
  by_cases hnil : Text.trimBlanks list = []
  · rw [parametersOf, if_pos (.inl hnil)]
    exact isParameterList_nil
  · by_cases hvoid : Text.trimBlanks list = "void".toList
    · rw [parametersOf_of_void hvoid]
      exact isParameterList_nil
    · rw [parametersOf_of_ne hnil hvoid]
      have htrimmed := Text.isTrimmed_trimBlanks list
      refine ⟨fun _ => ?_, fun p hp => ?_, fun h => ?_, fun h => ?_⟩
      · rw [map_toList_trimmedPieces]
        exact (arePieces_splitParameters 0 _).map_trimBlanks
      · obtain ⟨q, -, rfl⟩ := List.mem_map.1 hp
        rw [String.toList_ofList]
        exact Text.isTrimmed_trimBlanks q
      · exact hnil (toList_eq_of_trimmedPieces htrimmed h).symm
      · exact hvoid (toList_eq_of_trimmedPieces htrimmed h).symm

/-- The pieces of parameters that are written with a comma and a space between them are the
parameters, but for the spaces. -/
theorem map_trimBlanks_splitParameters_spaced {p : String} {ps : List String}
    (h : IsParameterList (p :: ps)) :
    (splitParameters 0 (", ".intercalate (p :: ps)).toList).map Text.trimBlanks =
      (p :: ps).map String.toList := by
  have hjoin : (", ".intercalate (p :: ps)).toList =
      [','].intercalate (p.toList :: (ps.map String.toList).map (' ' :: ·)) := by
    rw [String.toList_intercalate, ← intercalate_spaced]
    rfl
  have htrim (q : String) (hq : q ∈ p :: ps) : Text.trimBlanks q.toList = q.toList :=
    (h.isTrimmed q hq).trimBlanks_eq
  rw [hjoin, splitParameters_intercalate (h.arePieces (by simp)).spaced, List.map_cons,
    List.map_cons, htrim p (by simp), List.map_map, List.map_map]
  refine congrArg _ (List.map_congr_left fun q hq => ?_)
  exact (Text.trimBlanks_cons_blank rfl _).trans (htrim q (by simp [hq]))

/-- Parameters that are written with a comma and a space between them are found again. -/
theorem parametersOf_intercalate {ps : List String} (h : IsParameterList ps) :
    parametersOf (", ".intercalate ps).toList = ps := by
  cases ps with
  | nil => rfl
  | cons p ps =>
    have hfound : trimmedPieces (Text.trimBlanks (", ".intercalate (p :: ps)).toList) =
        p :: ps := by
      rw [← List.map_inj_right (fun _ _ => String.toList_inj.1), map_toList_trimmedPieces,
        map_trimBlanks_splitParameters, map_trimBlanks_splitParameters_spaced h]
    rw [parametersOf_of_ne, hfound]
    · intro hnil
      rw [hnil] at hfound
      exact h.ne_empty hfound.symm
    · intro hvoid
      rw [hvoid] at hfound
      exact h.ne_void hfound.symm

/-! ## Signatures -/

theorem withoutBlanks_intercalate_spaced (ps : List String) :
    Text.withoutBlanks (", ".intercalate ps).toList =
      Text.withoutBlanks (",".intercalate ps).toList := by
  rw [String.toList_intercalate, String.toList_intercalate, Text.withoutBlanks, Text.withoutBlanks,
    Text.filter_intercalate, Text.filter_intercalate]
  rfl

theorem isBalanced_intercalate_spaced_iff {ps : List String} :
    IsBalanced (", ".intercalate ps).toList ↔ IsBalanced (",".intercalate ps).toList := by
  rw [← isBalanced_filter_iff (p := fun c => !Text.isBlank c) rfl rfl, ← Text.withoutBlanks,
    withoutBlanks_intercalate_spaced, Text.withoutBlanks, isBalanced_filter_iff rfl rfl]

namespace Signature

/-- Whether texts can be the parts of a signature. -/
structure IsWellFormed (s : Signature) : Prop where
  result_ne : s.result ≠ ""
  isTrimmed_result : Text.IsTrimmed s.result.toList
  isParameterList : IsParameterList s.parameters
  isBalanced_parameters : IsBalanced (", ".intercalate s.parameters).toList
  isTrimmed_trailing : Text.IsTrimmed s.trailing.toList
  not_mem_trailing : ')' ∉ s.trailing.toList

variable {signature : String} {s : Signature}

theorem isWellFormed_of_ofText (h : ofText signature = .ok s) : s.IsWellFormed := by
  obtain ⟨front, list, back, hcut, hfront, rfl⟩ := ofText?_eq_some_iff.1 (ofText_eq_ok_iff.1 h)
  have hsplit := isSplit_of_isCut hcut
  exact {
    result_ne := fun hnil => hfront (by simpa using hnil)
    isTrimmed_result := hsplit.isTrimmed_result
    isParameterList := isParameterList_parametersOf list
    isBalanced_parameters := isBalanced_intercalate_spaced_iff.2 hsplit.isBalanced_parameters
    isTrimmed_trailing := hsplit.isTrimmed_trailing
    not_mem_trailing := hsplit.not_mem_trailing }

/-- A signature is read as it was written, whatever blanks stand around its result and its trailing
text. -/
theorem ofText_of_written (h : s.IsWellFormed) {front back : List Char}
    (hsignature : signature.toList =
      front ++ '(' :: ((", ".intercalate s.parameters).toList ++ ')' :: back))
    (hfront : Text.trimBlanks front = s.result.toList)
    (hback : Text.trimBlanks back = s.trailing.toList) (hclose : ')' ∉ back) :
    ofText signature = .ok s := by
  have hcut : IsCut signature.toList front (", ".intercalate s.parameters).toList back :=
    ⟨hsignature, h.isBalanced_parameters, hclose⟩
  rw [ofText_eq_ok_iff, ofText?_eq_some_iff]
  refine ⟨front, _, back, hcut, ?_, ?_⟩
  · rw [hfront]
    simpa using h.result_ne
  · rw [hfront, hback, parametersOf_intercalate h.isParameterList, String.ofList_toList,
      String.ofList_toList]

end Signature

end AddressExport
