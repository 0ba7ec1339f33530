import AddressExport.Signature.Parts
import Mathlib.Data.List.Infix

/-!
# Matching parentheses

The parenthesis that opens a list is found by reading backwards from the one that closes it and
counting.  `splitAtOpening?` stops at the first place where as many have been opened as closed, so
what it has read by then is balanced, and it stops at every opening parenthesis that has a balanced
text behind it (`splitAtOpening?_reverse_eq_some_iff`).
-/

namespace AddressExport

/-! ## Counting -/

/-- How many more characters of a text open than close. -/
def excess (opening closing s : List Char) : Int :=
  s.countP (opening.contains ·) - s.countP (closing.contains ·)

section Excess

variable {opening closing : List Char}

@[simp] theorem excess_nil : excess opening closing [] = 0 := rfl

theorem excess_append (a b : List Char) :
    excess opening closing (a ++ b) = excess opening closing a + excess opening closing b := by
  simp only [excess, List.countP_append]
  omega

theorem excess_cons (c : Char) (s : List Char) :
    excess opening closing (c :: s) = excess opening closing [c] + excess opening closing s :=
  excess_append [c] s

theorem excess_reverse (s : List Char) :
    excess opening closing s.reverse = excess opening closing s := by
  simp only [excess, List.countP_reverse]

/-- Only the characters that open or close count. -/
theorem excess_filter {p : Char → Bool} (h : ∀ c, p c = false → excess opening closing [c] = 0)
    (s : List Char) : excess opening closing (s.filter p) = excess opening closing s := by
  induction s with
  | nil => rfl
  | cons c s ih =>
    rw [excess_cons c s, ← ih]
    cases hc : p c with
    | true => rw [List.filter_cons_of_pos hc, excess_cons]
    | false => rw [List.filter_cons_of_neg (by simp [hc]), h c hc, Int.zero_add]

end Excess

/-! ## Balanced texts -/

/-- Whether every parenthesis of a text has its partner there: no beginning of the text closes more
than it opens, and the whole text closes all that it opens. -/
structure IsBalanced (s : List Char) : Prop where
  excess_eq : excess ['('] [')'] s = 0
  nonneg_of_prefix : ∀ a, a <+: s → 0 ≤ excess ['('] [')'] a

instance (s : List Char) : Decidable (IsBalanced s) :=
  decidable_of_iff (excess ['('] [')'] s = 0 ∧ ∀ a ∈ s.inits, 0 ≤ excess ['('] [')'] a) <| by
    simp only [List.mem_inits]
    exact ⟨fun h => ⟨h.1, h.2⟩, fun h => ⟨h.1, h.2⟩⟩

theorem isBalanced_nil : IsBalanced [] :=
  ⟨rfl, fun a ha => by simp [List.prefix_nil.1 ha]⟩

theorem IsBalanced.append {a b : List Char} (ha : IsBalanced a) (hb : IsBalanced b) :
    IsBalanced (a ++ b) := by
  refine ⟨by rw [excess_append, ha.excess_eq, hb.excess_eq, Int.zero_add], fun p hp => ?_⟩
  rcases List.prefix_or_prefix_of_prefix hp (List.prefix_append a b) with hpa | ⟨q, rfl⟩
  · exact ha.nonneg_of_prefix p hpa
  · rw [excess_append, ha.excess_eq, Int.zero_add]
    exact hb.nonneg_of_prefix q ((List.prefix_append_right_inj a).1 hp)

theorem isBalanced_intercalate {sep : List Char} {ps : List (List Char)} (hsep : IsBalanced sep)
    (h : ∀ p ∈ ps, IsBalanced p) : IsBalanced (sep.intercalate ps) := by
  induction ps with
  | nil => exact isBalanced_nil
  | cons p ps ih =>
    rw [List.forall_mem_cons] at h
    cases ps with
    | nil =>
      rw [List.intercalate_singleton]
      exact h.1
    | cons q qs =>
      rw [List.intercalate_cons_cons]
      exact (h.1.append hsep).append (ih h.2)

/-- Only the parentheses of a text decide whether it is balanced. -/
theorem isBalanced_filter_iff {p : Char → Bool} (hopen : p '(' = true) (hclose : p ')' = true)
    {s : List Char} : IsBalanced (s.filter p) ↔ IsBalanced s := by
  have hzero (c : Char) (hc : p c = false) : excess ['('] [')'] [c] = 0 := by
    have hne : c ≠ '(' ∧ c ≠ ')' :=
      ⟨by rintro rfl; simp [hopen] at hc, by rintro rfl; simp [hclose] at hc⟩
    simp [excess, hne]
  constructor
  · intro h
    refine ⟨(excess_filter hzero s).symm.trans h.excess_eq, fun a ha => ?_⟩
    rw [← excess_filter hzero a]
    exact h.nonneg_of_prefix _ (ha.filter p)
  · intro h
    refine ⟨(excess_filter hzero s).trans h.excess_eq, fun a ha => ?_⟩
    obtain ⟨b, hb, rfl⟩ := List.prefix_filter_iff.1 ha
    rw [excess_filter hzero b]
    exact h.nonneg_of_prefix b hb

theorem isBalanced_of_not_mem {s : List Char} (hopen : '(' ∉ s) (hclose : ')' ∉ s) :
    IsBalanced s := by
  have hnone : s.filter (fun c => c == '(' || c == ')') = [] := by
    rw [List.filter_eq_nil_iff]
    rintro c hc hparenthesis
    rcases Bool.or_eq_true_iff.1 hparenthesis with h | h
    · exact hopen (eq_of_beq h ▸ hc)
    · exact hclose (eq_of_beq h ▸ hc)
  rw [← isBalanced_filter_iff (p := fun c => c == '(' || c == ')') rfl rfl, hnone]
  exact isBalanced_nil

/-! ## Reading backwards -/

/-- Whether a text that is read backwards opens what it closes and `inner` lists more, and never
more than that on the way. -/
structure OpensBack (inner : Int) (s : List Char) : Prop where
  excess_eq : excess ['('] [')'] s = inner
  le_of_prefix : ∀ a, a <+: s → excess ['('] [')'] a ≤ inner

theorem OpensBack.nonneg {inner : Int} {s : List Char} (h : OpensBack inner s) : 0 ≤ inner :=
  h.le_of_prefix [] List.nil_prefix

theorem opensBack_nil_iff {inner : Int} : OpensBack inner [] ↔ inner = 0 := by
  constructor
  · intro h
    exact h.excess_eq.symm
  · rintro rfl
    exact ⟨rfl, fun a ha => by simp [List.prefix_nil.1 ha]⟩

theorem opensBack_cons_iff {inner : Int} {c : Char} {s : List Char} :
    OpensBack inner (c :: s) ↔ 0 ≤ inner ∧ OpensBack (inner - excess ['('] [')'] [c]) s := by
  constructor
  · intro h
    refine ⟨h.nonneg, ?_, fun a ha => ?_⟩
    · have := h.excess_eq
      rw [excess_cons] at this
      omega
    · have := h.le_of_prefix (c :: a) (by simpa using ha)
      rw [excess_cons] at this
      omega
  · rintro ⟨hinner, h⟩
    refine ⟨?_, fun a ha => ?_⟩
    · have := h.excess_eq
      rw [excess_cons]
      omega
    · rcases List.prefix_cons_iff.1 ha with rfl | ⟨b, rfl, hb⟩
      · exact hinner
      · have := h.le_of_prefix b hb
        rw [excess_cons]
        omega

/-- A text is balanced if, read backwards, it never opens what it has not closed. -/
theorem opensBack_reverse_iff {s : List Char} : OpensBack 0 s.reverse ↔ IsBalanced s := by
  have hsplit {a b : List Char} (h : a ++ b = s) :
      excess ['('] [')'] a + excess ['('] [')'] b = excess ['('] [')'] s := by
    rw [← h, excess_append]
  constructor
  · intro h
    have hzero : excess ['('] [')'] s = 0 := by rw [← excess_reverse, h.excess_eq]
    refine ⟨hzero, fun a ⟨b, hb⟩ => ?_⟩
    have hle := h.le_of_prefix b.reverse ⟨a.reverse, by rw [← hb, List.reverse_append]⟩
    rw [excess_reverse] at hle
    have := hsplit hb
    omega
  · intro h
    refine ⟨by rw [excess_reverse, h.excess_eq], fun b ⟨a, ha⟩ => ?_⟩
    have hs : a.reverse ++ b.reverse = s := by
      rw [← List.reverse_append, ha, List.reverse_reverse]
    have hnonneg := h.nonneg_of_prefix a.reverse ⟨b.reverse, hs⟩
    have hsum := hsplit hs
    rw [excess_reverse b] at hsum
    have := h.excess_eq
    omega

theorem map_consFst_eq_some_iff {c : Char} {x : Option (List Char × List Char)} {a b : List Char} :
    x.map (fun (list, front) => (c :: list, front)) = some (a, b) ↔
      ∃ l, a = c :: l ∧ x = some (l, b) := by
  constructor
  · intro h
    obtain ⟨⟨l, front⟩, hx, he⟩ := Option.map_eq_some_iff.1 h
    obtain ⟨rfl, rfl⟩ := Prod.mk.inj he
    exact ⟨l, rfl, hx⟩
  · rintro ⟨l, rfl, rfl⟩
    rfl

/-- A character at which the reading goes on belongs to what is read. -/
theorem map_consFst_eq_some_iff_opensBack {inner next : Nat} {c : Char} {r list front : List Char}
    {x : Option (List Char × List Char)} (hnext : (next : Int) = inner - excess ['('] [')'] [c])
    (hgo : c = '(' → inner ≠ 0)
    (hx : ∀ l, x = some (l, front) ↔ r = l ++ '(' :: front ∧ OpensBack next l) :
    x.map (fun (l, front) => (c :: l, front)) = some (list, front) ↔
      c :: r = list ++ '(' :: front ∧ OpensBack inner list := by
  rw [map_consFst_eq_some_iff]
  constructor
  · rintro ⟨l, rfl, hl⟩
    obtain ⟨rfl, hback⟩ := (hx l).1 hl
    rw [hnext] at hback
    exact ⟨rfl, opensBack_cons_iff.2 ⟨by omega, hback⟩⟩
  · rintro ⟨hs, hback⟩
    cases list with
    | nil =>
      have hzero := opensBack_nil_iff.1 hback
      exact absurd (by omega) (hgo (List.cons.inj hs).1)
    | cons d l =>
      obtain ⟨rfl, rfl⟩ := List.cons.inj hs
      have hrest := (opensBack_cons_iff.1 hback).2
      rw [← hnext] at hrest
      exact ⟨l, rfl, (hx l).2 ⟨rfl, hrest⟩⟩

theorem splitAtOpening?_eq_some_iff {inner : Nat} {s list front : List Char} :
    splitAtOpening? inner s = some (list, front) ↔
      s = list ++ '(' :: front ∧ OpensBack inner list := by
  have hopen : excess ['('] [')'] ['('] = 1 := rfl
  fun_induction splitAtOpening? inner s generalizing list with
  | case1 => simp
  | case2 r =>
    -- with no list open, the reading stops here
    cases list with
    | nil => simp [opensBack_nil_iff]
    | cons d list =>
      constructor
      · intro h
        cases h
      · rintro ⟨hs, hback⟩
        obtain ⟨rfl, -⟩ := List.cons.inj hs
        have := (opensBack_cons_iff.1 hback).2.nonneg
        omega
  | case3 r n ih => exact map_consFst_eq_some_iff_opensBack (by omega) (by simp) fun _ => ih
  | case4 inner c r hc ih =>
    have hc : c ≠ '(' := hc
    refine map_consFst_eq_some_iff_opensBack ?_ (fun h => absurd h hc) fun _ => ih
    by_cases hclose : c = ')'
    · simp [excess, hclose]
    · simp [excess, hclose, hc]

/-- A text is cut at the opening parenthesis that has a balanced text behind it. -/
theorem splitAtOpening?_reverse_eq_some_iff {s list front : List Char} :
    splitAtOpening? 0 s.reverse = some (list.reverse, front.reverse) ↔
      s = front ++ '(' :: list ∧ IsBalanced list := by
  have hs : s.reverse = list.reverse ++ '(' :: front.reverse ↔ s = front ++ '(' :: list := by
    rw [List.reverse_eq_iff]
    simp
  rw [splitAtOpening?_eq_some_iff, hs, Int.natCast_zero, opensBack_reverse_iff]

end AddressExport
