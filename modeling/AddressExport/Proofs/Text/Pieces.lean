import AddressExport.Text.Pieces

/-!
# Joining texts and cutting them again

The functions of `Text.Pieces` undo joins.  `splitTwice c` finds the pieces that were joined by `c`
written twice, if no piece holds such a pair or ends with `c` (`splitTwice_intercalate`), and
joining what it cuts gives the text back, whatever the text is (`intercalate_splitTwice`).  No cut
could be made further to the left (`isCut_iff`).  `splitLast?` cuts behind the last separator, so a
separator of equal characters is found in front of every text that does not hold that character
(`splitLast?_append_replicate`).
-/

namespace AddressExport.Text

/-! ## Occurrences -/

theorem contains_cons (p : List Char) (c : Char) (r : List Char) :
    contains p (c :: r) = (p.isPrefixOf (c :: r) || contains p r) := rfl

theorem contains_append (p a b : List Char) : contains p (a ++ (p ++ b)) = true := by
  induction a with
  | nil =>
    cases p with
    | nil => cases b <;> rfl
    | cons c p =>
      rw [List.nil_append, List.cons_append, contains_cons, Bool.or_eq_true]
      exact Or.inl (List.isPrefixOf_iff_prefix.2 (List.prefix_append (c :: p) b))
  | cons c a ih => rw [List.cons_append, contains_cons, ih, Bool.or_true]

theorem contains_eq_true_iff {p s : List Char} : contains p s = true ↔ p <:+: s := by
  induction s with
  | nil => simp [contains]
  | cons c r ih =>
    rw [contains_cons, Bool.or_eq_true, ih, List.isPrefixOf_iff_prefix, List.infix_cons_iff]

/-- A text without the character `c` holds no text that begins with `c`. -/
theorem contains_eq_false_of_not_mem {c : Char} {p s : List Char} (h : c ∉ s) :
    contains (c :: p) s = false := by
  induction s with
  | nil => rfl
  | cons d r ih =>
    have hd : c ≠ d := fun e => h (by simp [e])
    rw [contains_cons, ih fun hr => h (List.mem_cons_of_mem _ hr), List.isPrefixOf_cons_cons]
    simp [hd]

/-- Fewer than `n + 1` copies of a character, and then a text without it, hold no run of `n + 1`. -/
theorem contains_replicate_append_eq_false {c : Char} {b : List Char} (hb : c ∉ b) {m n : Nat}
    (hmn : m ≤ n) :
    contains (List.replicate (n + 1) c) (List.replicate m c ++ b) = false := by
  induction m with
  | zero => exact contains_eq_false_of_not_mem hb
  | succ m ih =>
    have hp : (List.replicate (n + 1) c).isPrefixOf (c :: (List.replicate m c ++ b)) = false := by
      rw [Bool.eq_false_iff, ne_eq, List.isPrefixOf_iff_prefix]
      rintro ⟨t, ht⟩
      have hsplit : List.replicate (n + 1) c =
          List.replicate (m + 1) c ++ List.replicate (n - m) c := by
        rw [List.replicate_append_replicate]
        congr 1
        omega
      rw [hsplit, List.append_assoc, ← List.cons_append, ← List.replicate_succ] at ht
      have hb' := List.append_cancel_left ht
      refine hb (hb' ▸ List.mem_append_left _ (List.mem_replicate.2 ⟨?_, rfl⟩))
      omega
    rw [List.replicate_succ (n := m), List.cons_append, contains_cons, hp, ih (by omega)]
    rfl

theorem startsWith_eq_true_iff {s p : String} :
    startsWith s p = true ↔ ∃ rest, s = p ++ rest := by
  rw [startsWith, List.isPrefixOf_iff_prefix]
  constructor
  · rintro ⟨rest, h⟩
    refine ⟨String.ofList rest, String.toList_inj.1 ?_⟩
    rw [String.toList_append, String.toList_ofList, h]
  · rintro ⟨rest, rfl⟩
    exact ⟨rest.toList, String.toList_append.symm⟩

theorem afterStart?_eq_none_iff {p s : List Char} : afterStart? p s = none ↔ ¬ p <+: s := by
  rw [afterStart?, ite_eq_right_iff]
  simp

/-! ## The last separator -/

theorem eq_append_of_splitLast? {sep s a b : List Char} (h : splitLast? sep s = some (a, b)) :
    s = a ++ (sep ++ b) := by
  induction s generalizing a with
  | nil => simp [splitLast?] at h
  | cons c r ih =>
    simp only [splitLast?] at h
    split at h
    · next before after hr =>
      obtain ⟨rfl, rfl⟩ := Prod.mk.inj (Option.some.inj h)
      simp [ih hr]
    · obtain ⟨after, ha, he⟩ := Option.map_eq_some_iff.1 h
      rw [Prod.mk.injEq] at he
      rw [← he.1, ← he.2, List.nil_append]
      exact afterStart?_eq_some_iff.1 ha

theorem splitLast?_eq_none_iff {sep : List Char} (hsep : sep ≠ []) {s : List Char} :
    splitLast? sep s = none ↔ contains sep s = false := by
  induction s with
  | nil => simpa [splitLast?, contains] using hsep
  | cons c r ih =>
    rw [contains_cons, Bool.or_eq_false_iff, ← ih]
    simp only [splitLast?]
    split
    · next hr => simp [hr]
    · next hr => simp [hr, afterStart?, Bool.eq_false_iff]

/-- A separator that does not occur further behind is the last one. -/
theorem splitLast?_append {sep b : List Char} (hsep : sep ≠ [])
    (h : contains sep (sep ++ b).tail = false) (a : List Char) :
    splitLast? sep (a ++ (sep ++ b)) = some (a, b) := by
  induction a with
  | nil =>
    obtain ⟨c, r, rfl⟩ := List.exists_cons_of_ne_nil hsep
    rw [List.cons_append, List.tail_cons, ← splitLast?_eq_none_iff (by simp)] at h
    simp only [List.nil_append, List.cons_append, splitLast?, h]
    rw [← List.cons_append, afterStart?_append]
    rfl
  | cons c a ih => simp only [List.cons_append, splitLast?, ih]

/-- A run of one character is the last separator if the text behind it is without that character. -/
theorem splitLast?_append_replicate {c : Char} {b : List Char} (hb : c ∉ b) (n : Nat)
    (a : List Char) :
    splitLast? (List.replicate (n + 1) c) (a ++ (List.replicate (n + 1) c ++ b)) = some (a, b) := by
  refine splitLast?_append (by simp) ?_ a
  rw [List.replicate_succ, List.cons_append, List.tail_cons, ← List.replicate_succ]
  exact contains_replicate_append_eq_false hb (Nat.le_refl n)

/-! ## Doubled separators -/

/-- A text that can be joined to others by `c` written twice: it holds no such pair, and does not
end with `c`, so that the separator cannot be taken one place too early. -/
structure IsPiece (c : Char) (p : List Char) : Prop where
  no_pair : contains [c, c] p = false
  not_at_end : p.getLast? ≠ some c

theorem isPiece_of_not_mem {c : Char} {p : List Char} (h : c ∉ p) : IsPiece c p :=
  ⟨contains_eq_false_of_not_mem h, fun hlast => h (List.mem_of_getLast? hlast)⟩

theorem IsPiece.tail {c a : Char} {p : List Char} (h : IsPiece c (a :: p)) : IsPiece c p := by
  refine ⟨(Bool.or_eq_false_iff.1 h.no_pair).2, ?_⟩
  cases p with
  | nil => simp
  | cons b p => simpa using h.not_at_end

/-- No pair begins with the first character of a piece, whatever follows the piece. -/
theorem IsPiece.head?_append_ne {c : Char} {p : List Char} (h : IsPiece c (c :: p))
    (s : List Char) : (p ++ s).head? ≠ some c := by
  cases p with
  | nil => exact absurd rfl h.not_at_end
  | cons b p =>
    have hb := (Bool.or_eq_false_iff.1 h.no_pair).1
    rw [List.isPrefixOf_cons_cons, List.isPrefixOf_cons_cons] at hb
    have : c ≠ b := by simpa using hb
    simpa using this.symm

/-- A character that does not begin a pair goes to the front of the first piece. -/
theorem splitTwice_cons {c a : Char} {s : List Char} (h : a = c → s.head? ≠ some c) :
    splitTwice c (a :: s) = (splitTwice c s).modifyHead (a :: ·) := by
  cases s with
  | nil => rfl
  | cons b r =>
    have hab : ¬ (a = c ∧ b = c) := fun ⟨ha, hb⟩ => h ha (by simp [hb])
    obtain ⟨p, ps, hps⟩ := List.exists_cons_of_ne_nil (splitTwice_ne_nil c (b :: r))
    simp only [splitTwice, if_neg hab, hps, List.modifyHead_cons]

theorem splitTwice_append {c : Char} {p : List Char} (h : IsPiece c p) (s : List Char) :
    splitTwice c (p ++ c :: c :: s) = p :: splitTwice c s := by
  induction p with
  | nil => simp [splitTwice]
  | cons a p ih =>
    rw [List.cons_append, splitTwice_cons, ih h.tail, List.modifyHead_cons]
    rintro rfl
    exact h.head?_append_ne _

theorem contains_pair_cons_eq_false_iff {c a : Char} {s : List Char} :
    contains [c, c] (a :: s) = false ↔ (a = c → s.head? ≠ some c) ∧ contains [c, c] s = false := by
  rw [contains_cons, Bool.or_eq_false_iff]
  refine and_congr_left fun _ => ?_
  cases s with
  | nil => simp [List.isPrefixOf]
  | cons b s => simp [List.isPrefixOf_cons_cons, @eq_comm _ c]

theorem splitTwice_eq_singleton {c : Char} {p : List Char} (h : contains [c, c] p = false) :
    splitTwice c p = [p] := by
  induction p with
  | nil => rfl
  | cons a p ih =>
    obtain ⟨hhead, hp⟩ := contains_pair_cons_eq_false_iff.1 h
    rw [splitTwice_cons hhead, ih hp, List.modifyHead_cons]

/-- The pieces of a joined text are found again. -/
theorem splitTwice_intercalate {c : Char} {ps : List (List Char)} (hps : ps ≠ [])
    (h : ∀ p ∈ ps, IsPiece c p) : splitTwice c ([c, c].intercalate ps) = ps := by
  induction ps with
  | nil => exact absurd rfl hps
  | cons p ps ih =>
    rw [List.forall_mem_cons] at h
    cases ps with
    | nil => rw [List.intercalate_singleton, splitTwice_eq_singleton h.1.no_pair]
    | cons q ps =>
      rw [List.intercalate_cons_cons, List.append_assoc]
      simp only [List.cons_append, List.nil_append]
      rw [splitTwice_append h.1, ih (by simp) h.2]

/-- What is cut at a doubled separator is joined to the text it was cut from. -/
theorem intercalate_splitTwice (c : Char) (s : List Char) :
    [c, c].intercalate (splitTwice c s) = s := by
  fun_induction splitTwice c s with
  | case1 => rfl
  | case2 a => rfl
  | case3 a b r hab ih =>
    obtain ⟨rfl, rfl⟩ := hab
    rw [List.intercalate_cons_of_ne_nil (splitTwice_ne_nil b r), ih]
    rfl
  | case4 a b r hab p ps hps ih => rw [List.intercalate_cons_cons_left, ← hps, ih]
  | case5 a b r hab hps ih => exact absurd hps (splitTwice_ne_nil c _)

/-- The pieces of a text that is cut at pairs of `c`, from the left.  No cut can be made earlier:
what stands in front of it holds no pair, not even with the first `c` of the separator. -/
inductive IsCut (c : Char) : List Char → List (List Char) → Prop where
  | last {p : List Char} (h : contains [c, c] p = false) : IsCut c p [p]
  | piece {p s : List Char} {ps : List (List Char)} (h : IsPiece c p) (hs : IsCut c s ps) :
      IsCut c (p ++ c :: c :: s) (p :: ps)

theorem isPiece_cons {c a : Char} {p : List Char} (h : IsPiece c p)
    (ha : a = c → p ≠ [] ∧ p.head? ≠ some c) : IsPiece c (a :: p) := by
  refine ⟨contains_pair_cons_eq_false_iff.2 ⟨fun hac => (ha hac).2, h.no_pair⟩, ?_⟩
  cases p with
  | nil =>
    have hac : a ≠ c := fun hac => (ha hac).1 rfl
    simpa using hac
  | cons b p => simpa using h.not_at_end

/-- A character that does not begin a pair goes to the front of the first piece. -/
theorem IsCut.cons {c a : Char} {s p : List Char} {ps : List (List Char)} (h : IsCut c s (p :: ps))
    (ha : a = c → s.head? ≠ some c) : IsCut c (a :: s) ((a :: p) :: ps) := by
  cases h with
  | last hp => exact .last (contains_pair_cons_eq_false_iff.2 ⟨ha, hp⟩)
  | piece hp hs =>
    refine .piece (isPiece_cons hp fun hac => ?_) hs
    have hhead := ha hac
    -- an empty piece would begin a pair with `a`
    cases p with
    | nil => exact absurd rfl hhead
    | cons b p => exact ⟨List.cons_ne_nil b p, hhead⟩

theorem isCut_splitTwice (c : Char) (s : List Char) : IsCut c s (splitTwice c s) := by
  fun_induction splitTwice c s with
  | case1 => exact .last rfl
  | case2 a => exact .last (by simp [contains, List.isPrefixOf])
  | case3 a b r hab ih =>
    obtain ⟨rfl, rfl⟩ := hab
    exact .piece (isPiece_of_not_mem List.not_mem_nil) ih
  | case4 a b r hab p ps hps ih =>
    rw [hps] at ih
    exact ih.cons fun hac hb => hab ⟨hac, Option.some.inj hb⟩
  | case5 a b r hab hps ih => exact absurd hps (splitTwice_ne_nil c _)

/-- A text is cut in one way only. -/
theorem isCut_iff {c : Char} {s : List Char} {ps : List (List Char)} :
    IsCut c s ps ↔ ps = splitTwice c s := by
  constructor
  · intro h
    induction h with
    | last h => rw [splitTwice_eq_singleton h]
    | piece h _ ih => rw [splitTwice_append h, ih]
  · rintro rfl
    exact isCut_splitTwice c s

/-! ## Cutting at a character -/

theorem splitFirst?_eq (p : Char → Bool) (s : List Char) :
    splitFirst? p s =
      match s.dropWhile (!p ·) with
      | [] => none
      | _ :: rest => some (s.takeWhile (!p ·), rest) := by
  induction s with
  | nil => rfl
  | cons c r ih =>
    cases hc : p c with
    | true => simp [splitFirst?, hc]
    | false =>
      simp only [splitFirst?, hc, Bool.false_eq_true, if_false, ih, List.dropWhile_cons,
        List.takeWhile_cons, Bool.not_false, if_true]
      cases r.dropWhile (!p ·) <;> rfl

theorem takeWhile_append_cons {p : Char → Bool} {a : List Char} (ha : ∀ x ∈ a, p x = true)
    {c : Char} (hc : ¬ p c = true) (b : List Char) : (a ++ c :: b).takeWhile p = a := by
  rw [List.takeWhile_append_of_pos ha, List.takeWhile_cons_of_neg hc, List.append_nil]

theorem dropWhile_append_cons {p : Char → Bool} {a : List Char} (ha : ∀ x ∈ a, p x = true)
    {c : Char} (hc : ¬ p c = true) (b : List Char) : (a ++ c :: b).dropWhile p = c :: b := by
  rw [List.dropWhile_append_of_pos ha, List.dropWhile_cons_of_neg hc]

theorem splitFirst?_eq_some_iff {p : Char → Bool} {s a b : List Char} :
    splitFirst? p s = some (a, b) ↔ ∃ c, p c = true ∧ s = a ++ c :: b ∧ ∀ x ∈ a, p x = false := by
  rw [splitFirst?_eq]
  constructor
  · intro h
    cases hrest : s.dropWhile (!p ·) with
    | nil =>
      rw [hrest] at h
      cases h
    | cons c rest =>
      rw [hrest] at h
      obtain ⟨rfl, rfl⟩ := Prod.mk.inj (Option.some.inj h)
      refine ⟨c, ?_, ?_, fun x hx => ?_⟩
      · have := List.head?_dropWhile_not (!p ·) s
        rw [hrest] at this
        simpa using this
      · rw [← hrest, List.takeWhile_append_dropWhile]
      · simpa using List.all_eq_true.1 List.all_takeWhile x hx
  · rintro ⟨c, hc, rfl, ha⟩
    have hfront : ∀ x ∈ a, (!p x) = true := by simpa using ha
    have hstop : ¬ (!p c) = true := by simp [hc]
    rw [dropWhile_append_cons hfront hstop, takeWhile_append_cons hfront hstop]

theorem splitAll_eq_splitOnP (p : Char → Bool) (s : List Char) : splitAll p s = s.splitOnP p := by
  induction s with
  | nil => rfl
  | cons c r ih =>
    rw [splitAll, List.splitOnP_cons_eq_if_modifyHead, ih]
    split
    · rfl
    · cases h : r.splitOnP p with
      | nil => exact absurd h (List.splitOnP_ne_nil p r)
      | cons q qs => rfl

theorem splitAll_append_cons {p : Char → Bool} {c : Char} (hc : p c = true) (a b : List Char) :
    splitAll p (a ++ c :: b) = splitAll p a ++ splitAll p b := by
  simp only [splitAll_eq_splitOnP, List.splitOnP_append_cons a b hc]

theorem splitAll_eq_singleton {p : Char → Bool} {s : List Char} (h : ∀ c ∈ s, p c = false) :
    splitAll p s = [s] := by
  rw [splitAll_eq_splitOnP, List.splitOnP_eq_singleton h]

theorem getLast?_splitAll_append_cons {p : Char → Bool} {c : Char} (hc : p c = true)
    (a b : List Char) : (splitAll p (a ++ c :: b)).getLast? = (splitAll p b).getLast? := by
  rw [splitAll_append_cons hc, List.getLast?_append,
    Option.or_of_isSome (List.getLast?_isSome.2 (splitAll_ne_nil p b))]

theorem not_of_mem_splitAll {p : Char → Bool} {s q : List Char} (hq : q ∈ splitAll p s) :
    ∀ c ∈ q, p c = false := by
  induction s generalizing q with
  | nil =>
    rw [splitAll, List.mem_singleton] at hq
    simp [hq]
  | cons c r ih =>
    rw [splitAll] at hq
    split at hq
    · rcases List.mem_cons.1 hq with rfl | hq
      · simp
      · exact ih hq
    · next hc =>
      obtain ⟨x, xs, hx⟩ := List.exists_cons_of_ne_nil (splitAll_ne_nil p r)
      rw [hx] at hq ih
      rcases List.mem_cons.1 hq with rfl | hq
      · exact List.forall_mem_cons.2 ⟨Bool.eq_false_iff.2 hc, ih List.mem_cons_self⟩
      · exact ih (List.mem_cons_of_mem x hq)

theorem mem_of_mem_splitAll {p : Char → Bool} {s q : List Char} (hq : q ∈ splitAll p s) {c : Char}
    (hc : c ∈ q) : c ∈ s := by
  induction s generalizing q with
  | nil =>
    rw [splitAll, List.mem_singleton] at hq
    rwa [hq] at hc
  | cons d r ih =>
    rw [splitAll] at hq
    split at hq
    · rcases List.mem_cons.1 hq with rfl | hq
      · cases hc
      · exact List.mem_cons_of_mem d (ih hq hc)
    · obtain ⟨x, xs, hx⟩ := List.exists_cons_of_ne_nil (splitAll_ne_nil p r)
      rw [hx] at hq ih
      rcases List.mem_cons.1 hq with rfl | hq
      · rcases List.mem_cons.1 hc with rfl | hc
        · exact List.mem_cons_self
        · exact List.mem_cons_of_mem d (ih List.mem_cons_self hc)
      · exact List.mem_cons_of_mem d (ih (List.mem_cons_of_mem x hq) hc)

/-- The last piece keeps the last character, unless that one parts the text. -/
theorem exists_getLast?_splitAll {p : Char → Bool} {c : Char} (hc : p c = false) (s : List Char) :
    ∃ q, (splitAll p (s ++ [c])).getLast? = some (q ++ [c]) := by
  induction s with
  | nil => exact ⟨[], by simp [splitAll, hc]⟩
  | cons d s ih =>
    obtain ⟨q, hq⟩ := ih
    obtain ⟨x, xs, hx⟩ := List.exists_cons_of_ne_nil (splitAll_ne_nil p (s ++ [c]))
    rw [hx] at hq
    rw [List.cons_append, splitAll, hx]
    by_cases hd : p d = true
    · exact ⟨q, by rw [if_pos hd, List.getLast?_cons_cons, hq]⟩
    · rw [if_neg hd]
      cases xs with
      | nil =>
        obtain rfl : x = q ++ [c] := by simpa using hq
        exact ⟨d :: q, rfl⟩
      | cons y ys => exact ⟨q, by rw [List.getLast?_cons_cons] at hq ⊢; exact hq⟩

theorem intercalate_splitAll (c : Char) (s : List Char) :
    [c].intercalate (splitAll (· == c) s) = s := by
  rw [splitAll_eq_splitOnP, ← List.splitOn_eq_splitOnP, List.intercalate_splitOn]

theorem splitAll_intercalate {c : Char} {ps : List (List Char)} (hne : ps ≠ [])
    (h : ∀ p ∈ ps, c ∉ p) : splitAll (· == c) ([c].intercalate ps) = ps := by
  rw [splitAll_eq_splitOnP, ← List.splitOn_eq_splitOnP, List.splitOn_intercalate c h hne]

theorem mem_of_mem_intercalate {c : Char} {sep : List Char} {ps : List (List Char)}
    (h : c ∈ sep.intercalate ps) : c ∈ sep ∨ ∃ p ∈ ps, c ∈ p := by
  induction ps with
  | nil => cases h
  | cons p ps ih =>
    cases ps with
    | nil =>
      rw [List.intercalate_singleton] at h
      exact .inr ⟨p, by simp, h⟩
    | cons q ps =>
      rw [List.intercalate_cons_cons, List.mem_append, List.mem_append] at h
      rcases h with (h | h) | h
      · exact .inr ⟨p, by simp, h⟩
      · exact .inl h
      · exact (ih h).imp_right fun ⟨r, hr, hc⟩ => ⟨r, List.mem_cons_of_mem p hr, hc⟩

theorem filter_intercalate (p : Char → Bool) (sep : List Char) (ps : List (List Char)) :
    (sep.intercalate ps).filter p = (sep.filter p).intercalate (ps.map (List.filter p)) := by
  induction ps with
  | nil => rfl
  | cons q ps ih =>
    cases ps with
    | nil => simp
    | cons r ps =>
      rw [List.intercalate_cons_cons, List.filter_append, List.filter_append, ih]
      simp [List.intercalate_cons_cons]

/-! ## Runs of three -/

theorem contains_triple_of_contains_pair {c : Char} {s : List Char}
    (h : contains [c, c] s = false) : contains [c, c, c] s = false := by
  induction s with
  | nil => rfl
  | cons a s ih =>
    rw [contains_cons, Bool.or_eq_false_iff] at h ⊢
    refine ⟨?_, ih h.2⟩
    rw [Bool.eq_false_iff, ne_eq, List.isPrefixOf_iff_prefix] at h ⊢
    exact fun hp => h.1 (List.IsPrefix.trans ⟨[c], rfl⟩ hp)

/-- A pair between a piece and a text that begins otherwise is part of no run of three. -/
theorem contains_triple_append {c : Char} {p s : List Char} (hp : IsPiece c p)
    (hhead : s.head? ≠ some c) (hs : contains [c, c, c] s = false) :
    contains [c, c, c] (p ++ c :: c :: s) = false := by
  induction p with
  | nil =>
    cases s with
    | nil => simp [contains, List.isPrefixOf]
    | cons a s =>
      have ha : c ≠ a := by simpa using hhead.symm
      simp [contains_cons, List.isPrefixOf_cons_cons, ha, hs]
  | cons a p ih =>
    rw [List.cons_append, contains_cons, ih hp.tail, Bool.or_false, Bool.eq_false_iff, ne_eq,
      List.isPrefixOf_iff_prefix, List.cons_prefix_cons]
    rintro ⟨rfl, t, ht⟩
    exact hp.head?_append_ne _ (by rw [← ht]; rfl)

/-- Joined pieces hold no run of three, if no piece begins with the character of the separator. -/
theorem contains_triple_intercalate {c : Char} {ps : List (List Char)}
    (h : ∀ p ∈ ps, IsPiece c p ∧ p.head? ≠ some c) (hne : ∀ p ∈ ps, p ≠ []) :
    contains [c, c, c] ([c, c].intercalate ps) = false ∧
      ([c, c].intercalate ps).head? ≠ some c := by
  induction ps with
  | nil => exact ⟨rfl, by simp⟩
  | cons p ps ih =>
    rw [List.forall_mem_cons] at h hne
    obtain ⟨⟨hp, hhead⟩, hps⟩ := h
    obtain ⟨a, p, rfl⟩ := List.exists_cons_of_ne_nil hne.1
    cases ps with
    | nil =>
      rw [List.intercalate_singleton]
      exact ⟨contains_triple_of_contains_pair hp.no_pair, hhead⟩
    | cons q ps =>
      obtain ⟨hrest, hrestHead⟩ := ih hps hne.2
      rw [List.intercalate_cons_cons, List.append_assoc]
      exact ⟨contains_triple_append hp hrestHead hrest, hhead⟩

end AddressExport.Text
