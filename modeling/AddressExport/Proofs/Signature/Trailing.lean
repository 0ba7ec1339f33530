import AddressExport.Proofs.Signature.Pointer

/-!
# What stands behind the parameters

The parameter list of a signature ends with the last parenthesis that closes.  So a signature is
read as it was written if its trailing text closes none, as in `const noexcept`, but the list behind
the word `noexcept` is taken for the parameters, and what stands in front of that list for the
result (`ofText_text_outcome`).
-/

namespace AddressExport

/-! ## Parameters as they are written -/

/-- The kinds of brackets, each by what opens and what closes. -/
def bracketKinds : List (Char × Char) := [('(', ')'), ('<', '>'), ('[', ']')]

theorem bracketExcess_eq (s : List Char) :
    bracketExcess s = excess ['('] [')'] s + excess ['<'] ['>'] s + excess ['['] [']'] s := by
  induction s with
  | nil => rfl
  | cons c s ih =>
    have hc : nesting c = excess ['('] [')'] [c] + excess ['<'] ['>'] [c] +
        excess ['['] [']'] [c] := by
      by_cases h : c ∈ ['(', ')', '<', '>', '[', ']']
      · simp only [List.mem_cons, List.not_mem_nil, or_false] at h
        rcases h with rfl | rfl | rfl | rfl | rfl | rfl <;> rfl
      · simp only [List.mem_cons, List.not_mem_nil, or_false, not_or] at h
        simp [nesting, excess, h]
    rw [bracketExcess_cons, ih, hc, excess_cons c s, excess_cons c s, excess_cons c s]
    omega

/-- Whether a text can be written as a parameter: it says something, with no blanks around it, every
bracket in it has its partner there, and every comma stands between brackets. -/
structure IsParameter (p : List Char) : Prop where
  ne_nil : p ≠ []
  isTrimmed : Text.IsTrimmed p
  excess_eq : ∀ k ∈ bracketKinds, excess [k.1] [k.2] p = 0
  nonneg_of_prefix : ∀ k ∈ bracketKinds, ∀ a, a <+: p → 0 ≤ excess [k.1] [k.2] a
  enclosed_of_comma : ∀ a, a ++ [','] <+: p → ∃ k ∈ bracketKinds, 0 < excess [k.1] [k.2] a

instance (p : List Char) : Decidable (IsParameter p) :=
  decidable_of_iff (p ≠ [] ∧ Text.IsTrimmed p ∧
    (bracketKinds.all fun k => excess [k.1] [k.2] p = 0) = true ∧
    (bracketKinds.all fun k => p.inits.all fun a => 0 ≤ excess [k.1] [k.2] a) = true ∧
    ∀ a ∈ p.inits, a ++ [','] <+: p →
      (bracketKinds.any fun k => 0 < excess [k.1] [k.2] a) = true) <| by
    simp only [List.all_eq_true, List.any_eq_true, decide_eq_true_eq, List.mem_inits]
    constructor
    · rintro ⟨hnil, htrimmed, hexcess, hnonneg, hcomma⟩
      exact ⟨hnil, htrimmed, hexcess, hnonneg,
        fun a ha => hcomma a ((List.prefix_append a _).trans ha) ha⟩
    · intro h
      exact ⟨h.ne_nil, h.isTrimmed, h.excess_eq, h.nonneg_of_prefix,
        fun a _ => h.enclosed_of_comma a⟩

namespace IsParameter

variable {p : List Char}

theorem isBalanced (h : IsParameter p) : IsBalanced p :=
  ⟨h.excess_eq ('(', ')') (by simp [bracketKinds]),
    h.nonneg_of_prefix ('(', ')') (by simp [bracketKinds])⟩

theorem bracketExcess_eq_zero (h : IsParameter p) : bracketExcess p = 0 := by
  have hzero := h.excess_eq
  simp only [bracketKinds, List.forall_mem_cons] at hzero
  rw [bracketExcess_eq]
  omega

theorem isUnparted (h : IsParameter p) : IsUnparted 0 p := by
  rintro a b rfl
  obtain ⟨k, hk, hpos⟩ := h.enclosed_of_comma a ⟨b, by simp⟩
  have hnonneg (k : Char × Char) (hk : k ∈ bracketKinds) : 0 ≤ excess [k.1] [k.2] a :=
    h.nonneg_of_prefix k hk a (List.prefix_append a _)
  have hround : 0 ≤ excess ['('] [')'] a := hnonneg ('(', ')') (by simp [bracketKinds])
  have hangle : 0 ≤ excess ['<'] ['>'] a := hnonneg ('<', '>') (by simp [bracketKinds])
  have hsquare : 0 ≤ excess ['['] [']'] a := hnonneg ('[', ']') (by simp [bracketKinds])
  -- none of the three counts is negative, and one is positive
  have hsum : 0 < excess ['('] [')'] a + excess ['<'] ['>'] a + excess ['['] [']'] a := by
    simp only [bracketKinds, List.mem_cons, List.not_mem_nil, or_false] at hk
    rcases hk with rfl | rfl | rfl <;> dsimp only at hpos <;> omega
  rw [bracketExcess_eq]
  omega

end IsParameter

theorem arePieces_of_forall {ps : List (List Char)} (hne : ps ≠ [])
    (h : ∀ p ∈ ps, IsUnparted 0 p ∧ bracketExcess p = 0) : ArePieces 0 ps := by
  induction ps with
  | nil => exact absurd rfl hne
  | cons p ps ih =>
    rw [List.forall_mem_cons] at h
    cases ps with
    | nil => exact h.1.1
    | cons q qs => exact ⟨h.1.1, by rw [h.1.2, Int.add_zero], ih (by simp) h.2⟩

theorem isParameterList_of_isParameter {ps : List String} (h : ∀ p ∈ ps, IsParameter p.toList)
    (hvoid : ps ≠ ["void"]) : IsParameterList ps where
  arePieces hne := by
    refine arePieces_of_forall (by simpa using hne) ?_
    rw [List.forall_mem_map]
    exact fun p hp => ⟨(h p hp).isUnparted, (h p hp).bracketExcess_eq_zero⟩
  isTrimmed p hp := (h p hp).isTrimmed
  ne_empty := by
    rintro rfl
    exact (h "" (by simp)).ne_nil rfl
  ne_void := hvoid

theorem isBalanced_intercalate_of_isParameter {ps : List String}
    (h : ∀ p ∈ ps, IsParameter p.toList) : IsBalanced (", ".intercalate ps).toList := by
  rw [String.toList_intercalate]
  refine isBalanced_intercalate (isBalanced_of_not_mem (by decide) (by decide)) ?_
  rw [List.forall_mem_map]
  exact fun p hp => (h p hp).isBalanced

/-! ## Signatures as they are written -/

namespace Signature

/-- The signature that is written with these parts. -/
def text (s : Signature) : String :=
  s.result ++ " (" ++ ", ".intercalate s.parameters ++ ")" ++ Text.setOff s.trailing

variable {s : Signature}

theorem ofText_text (h : s.IsWellFormed) : ofText s.text = .ok s := by
  have hfront : Text.trimBlanks (s.result.toList ++ [' ']) = s.result.toList := by
    rw [Text.trimBlanks_append_blank _ rfl, h.isTrimmed_result.trimBlanks_eq]
  refine ofText_of_written h ?_ hfront (Text.trimBlanks_setOff h.isTrimmed_trailing)
    (Text.not_mem_setOff (by decide) h.not_mem_trailing)
  simp [text]

/-- A list behind the word `noexcept` is read as the parameters. -/
theorem ofText_text_of_noexcept {condition : String} (hresult : s.result ≠ "")
    (htrimmed : Text.IsTrimmed s.result.toList) (hcondition : IsBalanced condition.toList)
    (htrailing : s.trailing = "noexcept(" ++ condition ++ ")") :
    ofText s.text = .ok ⟨s.result ++ " (" ++ ", ".intercalate s.parameters ++ ") noexcept",
      parametersOf condition.toList, ""⟩ := by
  have hfront : Text.IsTrimmed (s.result ++ " (" ++ ", ".intercalate s.parameters ++
      ") noexcept").toList := by
    have hne : s.result.toList ≠ [] := by simpa using hresult
    simpa using htrimmed.append_singleton (c := 't') rfl hne
      (" (" ++ ", ".intercalate s.parameters ++ ") noexcep").toList
  have hcut : IsCut s.text.toList
      (s.result ++ " (" ++ ", ".intercalate s.parameters ++ ") noexcept").toList
      condition.toList [] :=
    ⟨by simp [text, Text.setOff, htrailing], hcondition, by simp⟩
  rw [ofText_eq_ok_iff, ofText?_eq_some_iff]
  refine ⟨_, _, [], hcut, ?_, ?_⟩
  · rw [hfront.trimBlanks_eq]
    simp
  · rw [hfront.trimBlanks_eq, String.ofList_toList]
    rfl

end Signature

/-- A signature with parameters as they are written is read as it was written if its trailing text
closes no parenthesis.  If that text is the word `noexcept` with a list behind it, then this list is
taken for the parameters, and all in front of it for the result. -/
theorem ofText_text_outcome {result : String} {parameters : List String} (hresult : result ≠ "")
    (htrimmed : Text.IsTrimmed result.toList) (hparameters : ∀ p ∈ parameters, IsParameter p.toList)
    (hvoid : parameters ≠ ["void"]) :
    (∀ trailing, Text.IsTrimmed trailing.toList → ')' ∉ trailing.toList →
      Signature.ofText (Signature.text ⟨result, parameters, trailing⟩) =
        .ok ⟨result, parameters, trailing⟩ ∧
      pointerType (Signature.text ⟨result, parameters, trailing⟩) =
        .ok (Signature.pointerType ⟨result, parameters, trailing⟩)) ∧
    ∀ condition, IsBalanced condition.toList →
      Signature.ofText (Signature.text ⟨result, parameters, "noexcept(" ++ condition ++ ")"⟩) =
        .ok ⟨result ++ " (" ++ ", ".intercalate parameters ++ ") noexcept",
          parametersOf condition.toList, ""⟩ ∧
      pointerType (Signature.text ⟨result, parameters, "noexcept(" ++ condition ++ ")"⟩) =
        .ok (result ++ " (" ++ ", ".intercalate parameters ++ ") noexcept (*)(" ++
          ", ".intercalate (parametersOf condition.toList) ++ ")") := by
  constructor
  · intro trailing htrailing hclose
    have h := Signature.ofText_text (s := ⟨result, parameters, trailing⟩)
      ⟨hresult, htrimmed, isParameterList_of_isParameter hparameters hvoid,
        isBalanced_intercalate_of_isParameter hparameters, htrailing, hclose⟩
    exact ⟨h, pointerType_eq_ok_iff.2 ⟨_, h, rfl⟩⟩
  · intro condition hcondition
    have h :=
      Signature.ofText_text_of_noexcept (s := ⟨result, parameters, "noexcept(" ++ condition ++ ")"⟩)
      hresult htrimmed hcondition rfl
    refine ⟨h, pointerType_eq_ok_iff.2 ⟨_, h, ?_⟩⟩
    simp [Signature.pointerType, String.append_assoc]

/-- A comma in angle brackets, and a condition with a list of its own. -/
theorem ofText_text_sizeCondition :
    (∀ p ∈ ["int (*)(char)", "std::map<int, long>"], IsParameter p.toList) ∧
    Signature.text ⟨"void *", ["int (*)(char)", "std::map<int, long>"], "const noexcept"⟩ =
      "void * (int (*)(char), std::map<int, long>) const noexcept" ∧
    Signature.ofText "void * (int (*)(char), std::map<int, long>) const noexcept" =
      .ok ⟨"void *", ["int (*)(char)", "std::map<int, long>"], "const noexcept"⟩ ∧
    Signature.text ⟨"void *", ["int (*)(char)", "std::map<int, long>"],
      "noexcept(sizeof(int) == 4)"⟩ =
      "void * (int (*)(char), std::map<int, long>) noexcept(sizeof(int) == 4)" ∧
    Signature.ofText "void * (int (*)(char), std::map<int, long>) noexcept(sizeof(int) == 4)" =
      .ok ⟨"void * (int (*)(char), std::map<int, long>) noexcept", ["sizeof(int) == 4"], ""⟩ := by
  have hparameters : ∀ p ∈ ["int (*)(char)", "std::map<int, long>"], IsParameter p.toList := by
    decide +kernel
  have hresult : "void *" ≠ "" := by decide
  obtain ⟨hplain, hnoexcept⟩ := ofText_text_outcome hresult (by decide) hparameters (by decide)
  exact ⟨hparameters, by decide +kernel, (hplain "const noexcept" (by decide) (by decide)).1,
    by decide +kernel, (hnoexcept "sizeof(int) == 4" (by decide +kernel)).1⟩

end AddressExport
