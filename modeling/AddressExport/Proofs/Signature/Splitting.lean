import AddressExport.Proofs.Signature.Parts

/-!
# Nothing is lost between the parts of a signature

Splitting takes away blanks, the two parentheses around the parameters and the commas that part
them; all else stands in the parts in its order (`Signature.ofText_outcome`).
-/

namespace AddressExport

/-! ## Parameters -/

theorem intercalate_splitParameters (depth : Int) (s : List Char) :
    [','].intercalate (splitParameters depth s) = s := by
  fun_induction splitParameters depth s with
  | case1 => rfl
  | case2 depth c r h ih =>
    rw [List.intercalate_cons_of_ne_nil (splitParameters_ne_nil depth r), ih, h.1]
    rfl
  | case3 depth c r h p ps hps ih => rw [List.intercalate_cons_cons_left, ← hps, ih]
  | case4 depth c r h hps ih => exact absurd hps (splitParameters_ne_nil _ r)

/-- How many more brackets of a text open than close. -/
def bracketExcess (s : List Char) : Int := excess ['(', '<', '['] [')', '>', ']'] s

@[simp] theorem bracketExcess_nil : bracketExcess [] = 0 := rfl

theorem bracketExcess_append (a b : List Char) :
    bracketExcess (a ++ b) = bracketExcess a + bracketExcess b := excess_append a b

theorem bracketExcess_singleton (c : Char) : bracketExcess [c] = nesting c := by
  unfold bracketExcess excess nesting
  split
  · next h => rcases h with rfl | rfl | rfl <;> rfl
  · next hopen =>
    split
    · next h => rcases h with rfl | rfl | rfl <;> rfl
    · next hclose => simp [hopen, hclose]

theorem bracketExcess_cons (c : Char) (s : List Char) :
    bracketExcess (c :: s) = nesting c + bracketExcess s := by
  rw [← bracketExcess_singleton]
  exact excess_cons c s

theorem bracketExcess_of_blanks {s : List Char} (h : ∀ c ∈ s, Text.isBlank c = true) :
    bracketExcess s = 0 := by
  have hblank (c : Char) (hc : Text.isBlank c = true) : nesting c = 0 := by
    unfold nesting
    split
    · next hopen => rcases hopen with rfl | rfl | rfl <;> exact absurd hc (by decide)
    · split
      · next hclose => rcases hclose with rfl | rfl | rfl <;> exact absurd hc (by decide)
      · rfl
  induction s with
  | nil => rfl
  | cons c s ih =>
    rw [List.forall_mem_cons] at h
    rw [bracketExcess_cons, hblank c h.1, ih h.2, Int.zero_add]

/-- Whether no comma of a text stands where all brackets are closed, if `depth` are open in front of
it. -/
def IsUnparted (depth : Int) (s : List Char) : Prop :=
  ∀ a b, s = a ++ ',' :: b → depth + bracketExcess a ≠ 0

theorem isUnparted_nil (depth : Int) : IsUnparted depth [] := fun a b h => by simp at h

theorem isUnparted_cons_iff {depth : Int} {c : Char} {s : List Char} :
    IsUnparted depth (c :: s) ↔ ¬ (c = ',' ∧ depth = 0) ∧ IsUnparted (depth + nesting c) s := by
  constructor
  · intro h
    refine ⟨?_, fun a b hs => ?_⟩
    · rintro ⟨rfl, rfl⟩
      exact h [] s rfl rfl
    · have := h (c :: a) b (by rw [hs, List.cons_append])
      rwa [bracketExcess_cons, ← Int.add_assoc] at this
  · rintro ⟨hc, h⟩ a b hs
    cases a with
    | nil =>
      obtain ⟨rfl, -⟩ := List.cons.inj hs
      intro hzero
      exact hc ⟨rfl, by simpa using hzero⟩
    | cons d a =>
      obtain ⟨rfl, hrest⟩ := List.cons.inj hs
      rw [bracketExcess_cons, ← Int.add_assoc]
      exact h a b hrest

/-- Whether texts can be the pieces of a list that has `depth` brackets open in front of it: no
piece could be parted further, and each but the last closes all that is open. -/
def ArePieces : Int → List (List Char) → Prop
  | _, [] => False
  | depth, [p] => IsUnparted depth p
  | depth, p :: q :: ps => IsUnparted depth p ∧ depth + bracketExcess p = 0 ∧ ArePieces 0 (q :: ps)

theorem arePieces_splitParameters (depth : Int) (s : List Char) :
    ArePieces depth (splitParameters depth s) := by
  fun_induction splitParameters depth s with
  | case1 depth => exact isUnparted_nil depth
  | case2 depth c r h ih =>
    obtain ⟨-, rfl⟩ := h
    obtain ⟨q, qs, hqs⟩ := List.exists_cons_of_ne_nil (splitParameters_ne_nil 0 r)
    rw [hqs] at ih ⊢
    exact ⟨isUnparted_nil 0, rfl, ih⟩
  | case3 depth c r h p ps hps ih =>
    rw [hps] at ih
    cases ps with
    | nil => exact isUnparted_cons_iff.2 ⟨h, ih⟩
    | cons q qs =>
      obtain ⟨hp, hclosed, hrest⟩ := ih
      exact ⟨isUnparted_cons_iff.2 ⟨h, hp⟩, by rw [bracketExcess_cons]; omega, hrest⟩
  | case4 depth c r h hps ih => exact absurd hps (splitParameters_ne_nil _ r)

theorem ArePieces.isUnparted {ps : List (List Char)} (h : ArePieces 0 ps) :
    ∀ p ∈ ps, IsUnparted 0 p := by
  induction ps with
  | nil => cases h
  | cons p ps ih =>
    cases ps with
    | nil => exact List.forall_mem_singleton.2 h
    | cons q qs => exact List.forall_mem_cons.2 ⟨h.1, ih h.2.2⟩

theorem IsUnparted.trimBlanks {s : List Char} (h : IsUnparted 0 s) :
    IsUnparted 0 (Text.trimBlanks s) := by
  obtain ⟨front, back, hs, hfront, -⟩ := Text.exists_blanks_around s
  intro a b hab
  have hcomma := h (front ++ a) (b ++ back) (by rw [hs, hab]; simp)
  rwa [bracketExcess_append, bracketExcess_of_blanks hfront, Int.zero_add] at hcomma

/-! ## The list of parameters -/

variable {list : List Char}

theorem parametersOf_of_void (h : Text.trimBlanks list = "void".toList) :
    parametersOf list = [] := by
  simp [parametersOf, h]

theorem exists_piece_of_mem_parametersOf {p : String} (h : p ∈ parametersOf list) :
    ∃ q, IsUnparted 0 q ∧ p.toList = Text.trimBlanks q := by
  unfold parametersOf at h
  dsimp only at h
  split at h
  · cases h
  · obtain ⟨q, hq, rfl⟩ := List.mem_map.1 h
    exact ⟨q, (arePieces_splitParameters 0 _).isUnparted q hq, String.toList_ofList⟩

/-- The parameters, with commas between them, are the list that they were cut from, but for
blanks. -/
theorem withoutBlanks_intercalate_parametersOf (h : Text.trimBlanks list ≠ "void".toList) :
    Text.withoutBlanks (",".intercalate (parametersOf list)).toList = Text.withoutBlanks list := by
  rw [← Text.withoutBlanks_trimBlanks list]
  by_cases hnil : Text.trimBlanks list = []
  · simp [parametersOf, hnil]
  · have hcomma : Text.withoutBlanks [','] = [','] := rfl
    have hparameters : (parametersOf list).map String.toList =
        (splitParameters 0 (Text.trimBlanks list)).map Text.trimBlanks := by
      rw [parametersOf, if_neg (not_or.2 ⟨hnil, h⟩), List.map_map]
      exact List.map_congr_left fun p _ => String.toList_ofList
    calc Text.withoutBlanks (",".intercalate (parametersOf list)).toList
        = Text.withoutBlanks ([','].intercalate
            ((splitParameters 0 (Text.trimBlanks list)).map Text.trimBlanks)) := by
          rw [String.toList_intercalate, hparameters]
          rfl
      _ = [','].intercalate
            ((splitParameters 0 (Text.trimBlanks list)).map Text.withoutBlanks) := by
          rw [Text.withoutBlanks, Text.filter_intercalate, ← Text.withoutBlanks, hcomma,
            List.map_map]
          congr 1
          exact List.map_congr_left fun p _ => Text.withoutBlanks_trimBlanks p
      _ = Text.withoutBlanks ([','].intercalate (splitParameters 0 (Text.trimBlanks list))) := by
          rw [Text.withoutBlanks, Text.filter_intercalate, ← Text.withoutBlanks, hcomma]
          rfl
      _ = Text.withoutBlanks (Text.trimBlanks list) := by rw [intercalate_splitParameters]

/-! ## Signatures -/

namespace Signature

/-- The signature that the parts make with the given list of parameters. -/
def around (s : Signature) (list : String) : String := s.result ++ "(" ++ list ++ ")" ++ s.trailing

/-- What the parts of a signature are that is cut around `list`. -/
structure IsSplit (s : Signature) (signature : String) (front list back : List Char) : Prop where
  result_eq : s.result.toList = Text.trimBlanks front
  trailing_eq : s.trailing.toList = Text.trimBlanks back
  /-- The word `void` is no parameter. -/
  of_void : Text.trimBlanks list = "void".toList → s.parameters = [] ∧
    Text.withoutBlanks (s.around "void").toList = Text.withoutBlanks signature.toList
  /-- Any other list is made of the parameters. -/
  of_not_void : Text.trimBlanks list ≠ "void".toList →
    Text.withoutBlanks (s.around (",".intercalate s.parameters)).toList =
      Text.withoutBlanks signature.toList
  isTrimmed_result : Text.IsTrimmed s.result.toList
  isTrimmed_parameters : ∀ p ∈ s.parameters, Text.IsTrimmed p.toList
  isTrimmed_trailing : Text.IsTrimmed s.trailing.toList
  not_mem_trailing : ')' ∉ s.trailing.toList
  isBalanced_parameters : IsBalanced (",".intercalate s.parameters).toList
  isUnparted_parameters : ∀ p ∈ s.parameters, IsUnparted 0 p.toList

theorem isBalanced_intercalate_parametersOf {list : List Char} (h : IsBalanced list) :
    IsBalanced (",".intercalate (parametersOf list)).toList := by
  by_cases hvoid : Text.trimBlanks list = "void".toList
  · rw [parametersOf_of_void hvoid]
    exact isBalanced_nil
  · -- the two texts differ in blanks, which do not count
    rw [← isBalanced_filter_iff (p := fun c => !Text.isBlank c) rfl rfl] at h ⊢
    rwa [← Text.withoutBlanks, withoutBlanks_intercalate_parametersOf hvoid]

theorem withoutBlanks_around {signature text : String} {front list back : List Char}
    {parameters : List String} (h : IsCut signature.toList front list back)
    (htext : Text.withoutBlanks text.toList = Text.withoutBlanks list) :
    Text.withoutBlanks (around ⟨String.ofList (Text.trimBlanks front), parameters,
      String.ofList (Text.trimBlanks back)⟩ text).toList = Text.withoutBlanks signature.toList := by
  have hopen : Text.isBlank '(' = false := rfl
  have hclose : Text.isBlank ')' = false := rfl
  rw [h.eq]
  simp [around, Text.withoutBlanks_cons hopen, Text.withoutBlanks_cons hclose, htext]

theorem isSplit_of_isCut {signature : String} {front list back : List Char}
    (h : IsCut signature.toList front list back) :
    IsSplit ⟨String.ofList (Text.trimBlanks front), parametersOf list,
      String.ofList (Text.trimBlanks back)⟩
      signature front list back where
  result_eq := String.toList_ofList
  trailing_eq := String.toList_ofList
  of_void hvoid := by
    refine ⟨parametersOf_of_void hvoid, withoutBlanks_around h ?_⟩
    rw [← hvoid, Text.withoutBlanks_trimBlanks]
  of_not_void hvoid := withoutBlanks_around h (withoutBlanks_intercalate_parametersOf hvoid)
  isTrimmed_result := by
    rw [String.toList_ofList]
    exact Text.isTrimmed_trimBlanks front
  isTrimmed_parameters p hp := by
    obtain ⟨q, -, hq⟩ := exists_piece_of_mem_parametersOf hp
    rw [hq]
    exact Text.isTrimmed_trimBlanks q
  isTrimmed_trailing := by
    rw [String.toList_ofList]
    exact Text.isTrimmed_trimBlanks back
  not_mem_trailing := by
    rw [String.toList_ofList]
    exact fun hmem => h.not_mem_back (Text.mem_of_mem_trimBlanks hmem)
  isBalanced_parameters := isBalanced_intercalate_parametersOf h.isBalanced
  isUnparted_parameters p hp := by
    obtain ⟨q, hunparted, hq⟩ := exists_piece_of_mem_parametersOf hp
    rw [hq]
    exact hunparted.trimBlanks

theorem ofText_eq_ok_iff {signature : String} {s : Signature} :
    ofText signature = .ok s ↔ ofText? signature = some s := by
  unfold ofText
  cases ofText? signature <;> simp

/-- A signature has parts exactly if its last closing parenthesis has a partner with something in
front of it that is not blank.  Then nothing of it is lost but blanks, and no parameter could be
parted further. -/
theorem ofText_outcome (signature : String) :
    ((∃ s, ofText signature = .ok s) ↔
      ∃ front list back, IsCut signature.toList front list back ∧
        ∃ c ∈ front, Text.isBlank c = false) ∧
    (∀ s, ofText signature = .ok s →
      ∃ front list back, IsCut signature.toList front list back ∧
        s.IsSplit signature front list back) ∧
    ∀ e, ofText signature = .error e → e = .malformed signature := by
  have hinked (front : List Char) : Text.trimBlanks front ≠ [] ↔
      ∃ c ∈ front, Text.isBlank c = false := by
    rw [ne_eq, Text.trimBlanks_eq_nil_iff]
    simp
  refine ⟨?_, fun s h => ?_, fun e h => ?_⟩
  · simp only [ofText_eq_ok_iff, ofText?_eq_some_iff, ← hinked]
    constructor
    · rintro ⟨s, front, list, back, hcut, hfront, -⟩
      exact ⟨front, list, back, hcut, hfront⟩
    · rintro ⟨front, list, back, hcut, hfront⟩
      exact ⟨_, front, list, back, hcut, hfront, rfl⟩
  · obtain ⟨front, list, back, hcut, -, rfl⟩ := ofText?_eq_some_iff.1 (ofText_eq_ok_iff.1 h)
    exact ⟨front, list, back, hcut, isSplit_of_isCut hcut⟩
  · unfold ofText at h
    split at h
    · cases h
    · exact (Except.error.inj h).symm

/-- The last list counts, and a comma in angle brackets parts nothing. -/
example : ofText "int (*)(char, map<int, long>) const" =
    .ok ⟨"int (*)", ["char", "map<int, long>"], "const"⟩ := by decide +kernel

end Signature

end AddressExport
