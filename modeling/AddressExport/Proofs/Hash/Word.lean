import AddressExport.Hash.Word
import Mathlib.Data.Nat.Digits.Lemmas

/-!
# Hashes of texts that differ in one word

A round can be undone on both sides: the state is turned and multiplied by an odd number, and the
word is added without carry (`round_injective_state`, `round_injective_word`).  So a difference that
one word makes stays to the end, whatever words follow: byte sequences of one length that differ in
one word only have different hashes (`hash_ne_of_differInOneWord`), and hashes have different digits
(`hexadecimal_injective`).
-/

namespace AddressExport.Hash

/-! ## Rounds -/

theorem toNat_turn (x : UInt64) : (turn x).toNat = 32 * (x.toNat % 2 ^ 59) + x.toNat / 2 ^ 59 := by
  have hx := x.toNat_lt
  have hlow : x.toNat / 2 ^ 59 < 2 ^ 5 := by omega
  have hhigh : x.toNat <<< 5 % 2 ^ 64 = (x.toNat % 2 ^ 59) <<< 5 := by
    rw [Nat.shiftLeft_eq, Nat.shiftLeft_eq]
    omega
  rw [turn, UInt64.toNat_or, UInt64.toNat_shiftLeft, UInt64.toNat_shiftRight]
  show x.toNat <<< 5 % 2 ^ 64 ||| x.toNat >>> 59 = _
  rw [hhigh, Nat.shiftRight_eq_div_pow, ← Nat.shiftLeft_add_eq_or_of_lt hlow, Nat.shiftLeft_eq,
    Nat.mul_comm]

theorem turn_injective : Function.Injective turn := by
  intro x y h
  have hturn : 32 * (x.toNat % 2 ^ 59) + x.toNat / 2 ^ 59 =
      32 * (y.toNat % 2 ^ 59) + y.toNat / 2 ^ 59 := by
    rw [← toNat_turn, ← toNat_turn, h]
  have hparts (a b c d : Nat) (hb : b < 32) (hd : d < 32) (hab : 32 * a + b = 32 * c + d) :
      a = c ∧ b = d := by
    omega
  obtain ⟨hlow, hhigh⟩ :=
    hparts _ _ _ _ (Nat.div_lt_of_lt_mul x.toNat_lt) (Nat.div_lt_of_lt_mul y.toNat_lt) hturn
  apply UInt64.toNat_inj.1
  rw [← Nat.div_add_mod x.toNat (2 ^ 59), hhigh, hlow, Nat.div_add_mod]

/-- The factor of a round is odd, so it has an inverse. -/
theorem factor_mul_inverse : factor * 0x2040003d780970bd = 1 := by
  decide

theorem mul_factor_injective : Function.Injective (· * factor) := by
  intro x y h
  have hinverse := congrArg (· * 0x2040003d780970bd) h
  simpa only [UInt64.mul_assoc, factor_mul_inverse, UInt64.mul_one] using hinverse

theorem round_injective_state (word : UInt64) :
    Function.Injective fun state => round state word := by
  intro s t h
  have hturn : turn s ^^^ word = turn t ^^^ word := mul_factor_injective h
  exact turn_injective ((UInt64.xor_left_inj word).1 hturn)

theorem round_injective_word (state : UInt64) : Function.Injective (round state) := by
  intro v w h
  have hturn : turn state ^^^ v = turn state ^^^ w := mul_factor_injective h
  exact (UInt64.xor_right_inj (turn state)).1 hturn

/-- A run of rounds keeps states apart. -/
theorem foldl_round_injective (ws : List UInt64) :
    Function.Injective fun state => ws.foldl round state := by
  induction ws with
  | nil => exact Function.injective_id
  | cons w ws ih => exact ih.comp (round_injective_state w)

/-! ## Numbers of bytes -/

/-- Up to eight bytes spell the number that has them as its digits to the base 256. -/
theorem toNat_littleEndian {bytes : List UInt8} (h : bytes.length ≤ 8) :
    (littleEndian bytes).toNat = Nat.ofDigits 256 (bytes.map UInt8.toNat) := by
  induction bytes with
  | nil => rfl
  | cons b bytes ih =>
    have hlength : bytes.length ≤ 7 := Nat.le_of_succ_le_succ h
    have hrest := ih (Nat.le_succ_of_le hlength)
    have hbound : (littleEndian bytes).toNat < 2 ^ 56 := by
      have hdigits : Nat.ofDigits 256 (bytes.map UInt8.toNat) <
          256 ^ (bytes.map UInt8.toNat).length :=
        Nat.ofDigits_lt_base_pow_length (by decide) (by simpa using fun b _ => b.toNat_lt)
      have hpow : 256 ^ (bytes.map UInt8.toNat).length ≤ 256 ^ 7 :=
        Nat.pow_le_pow_right (by decide) (by rwa [List.length_map])
      rw [hrest]
      exact Nat.lt_of_lt_of_le hdigits hpow
    have hshift : (littleEndian bytes).toNat <<< 8 % 2 ^ 64 = (littleEndian bytes).toNat <<< 8 := by
      rw [Nat.shiftLeft_eq]
      omega
    rw [littleEndian, UInt64.toNat_or, UInt64.toNat_shiftLeft, List.map_cons, Nat.ofDigits_cons,
      ← hrest, Nat.or_comm]
    show (littleEndian bytes).toNat <<< 8 % 2 ^ 64 ||| b.toNat = _
    rw [hshift, ← Nat.shiftLeft_add_eq_or_of_lt b.toNat_lt, Nat.shiftLeft_eq]
    omega

theorem littleEndian_injective {a b : List UInt8} (hlength : a.length = b.length)
    (hsize : a.length ≤ 8) (h : littleEndian a = littleEndian b) : a = b := by
  have hdigits : Nat.ofDigits 256 (a.map UInt8.toNat) = Nat.ofDigits 256 (b.map UInt8.toNat) := by
    rw [← toNat_littleEndian hsize, ← toNat_littleEndian (hlength ▸ hsize), h]
  have hbytes : a.map UInt8.toNat = b.map UInt8.toNat :=
    Nat.ofDigits_inj_of_len_eq (by decide) (by simpa using hlength)
      (by simpa using fun b _ => b.toNat_lt)
      (by simpa using fun b _ => b.toNat_lt) hdigits
  exact List.map_injective_iff.2 (fun _ _ => UInt8.toNat_inj.1) hbytes

/-! ## Words -/

/-- Whether `size` bytes from `start` on are a word of `n` bytes: eight bytes at a multiple of
eight, or one of the words of four, two and one byte behind those. -/
def IsWord (n start size : Nat) : Prop :=
  start + size ≤ n ∧
    (size = 8 ∧ 8 ∣ start ∨ size = 4 ∧ start = 8 * (n / 8) ∨ size = 2 ∧ start = 4 * (n / 4) ∨
      size = 1 ∧ start = 2 * (n / 2))

instance (n start size : Nat) : Decidable (IsWord n start size) :=
  inferInstanceAs (Decidable (_ ∧ _))

theorem words_append {chunk : List UInt8} (h : chunk.length = 8) (rest : List UInt8) :
    words (chunk ++ rest) = littleEndian chunk :: words rest := by
  match chunk, h with
  | [_, _, _, _, _, _, _, _], _ => rfl

theorem words_of_length_lt {bytes : List UInt8} (h : bytes.length < 8) :
    words bytes = lastWords bytes := by
  rw [words.eq_def]
  split
  · simp at h
    omega
  · rfl

/-- The word that a part of a text makes, if it is not empty. -/
def wordOf (part : List UInt8) : List UInt64 := if part.isEmpty then [] else [littleEndian part]

/-- The last words are those of the parts of four, two and one byte, as far as there are such
parts. -/
theorem lastWords_append {a b c : List UInt8} (ha : a.length = 4 ∨ a = [])
    (hb : b.length = 2 ∨ b = []) (hc : c.length ≤ 1) :
    lastWords (a ++ (b ++ c)) = wordOf a ++ (wordOf b ++ wordOf c) := by
  have hfour : (if 4 ≤ (a ++ (b ++ c)).length then 4 else 0) = a.length := by
    have hb' : b.length ≤ 2 := by
      rcases hb with hb | rfl
      · exact Nat.le_of_eq hb
      · exact Nat.zero_le 2
    rw [List.length_append, List.length_append]
    rcases ha with ha | rfl
    · rw [if_pos (by omega), ha]
    · rw [List.length_nil, if_neg (by omega)]
  have htwo : (if 2 ≤ (b ++ c).length then 2 else 0) = b.length := by
    rw [List.length_append]
    rcases hb with hb | rfl
    · rw [if_pos (by omega), hb]
    · rw [List.length_nil, if_neg (by omega)]
  unfold lastWords
  simp only [hfour, List.take_left, List.drop_left, htwo]
  cases a <;> cases b <;> cases c <;> rfl

theorem wordOf_of_pos {part : List UInt8} (h : 0 < part.length) :
    wordOf part = [littleEndian part] := by
  have hne : ¬ part.isEmpty = true := by
    rw [List.isEmpty_iff_length_eq_zero]
    exact Nat.ne_of_gt h
  rw [wordOf, if_neg hne]

/-- One of the last words, with those in front of it and those behind it. -/
theorem exists_lastWords_eq {front back : List UInt8} {size : Nat}
    (hn : front.length + (size + back.length) < 8)
    (h : IsWord (front.length + (size + back.length)) front.length size) :
    ∃ before after, ∀ w : List UInt8, w.length = size →
      lastWords (front ++ (w ++ back)) = before ++ littleEndian w :: after := by
  obtain ⟨-, ⟨rfl, -⟩ | ⟨rfl, hstart⟩ | ⟨rfl, hstart⟩ | ⟨rfl, hstart⟩⟩ := h
  · omega
  · -- the word of four bytes comes first
    obtain rfl : front = [] := List.eq_nil_of_length_eq_zero (by omega)
    refine ⟨[],
      wordOf (back.take (2 * (back.length / 2))) ++ wordOf (back.drop (2 * (back.length / 2))),
      fun w hw => ?_⟩
    have hb : (back.take (2 * (back.length / 2))).length = 2 ∨
        back.take (2 * (back.length / 2)) = [] := by
      rw [← List.length_eq_zero_iff, List.length_take]
      omega
    have hc : (back.drop (2 * (back.length / 2))).length ≤ 1 := by
      rw [List.length_drop]
      omega
    have hword : wordOf w = [littleEndian w] := wordOf_of_pos (hw ▸ by decide)
    conv => lhs; rw [← List.take_append_drop (2 * (back.length / 2)) back]
    rw [List.nil_append, lastWords_append (.inl hw) hb hc, hword]
    rfl
  · -- the word of two bytes comes behind that of four, if there is one
    refine ⟨wordOf front, wordOf back, fun w hw => ?_⟩
    have ha : front.length = 4 ∨ front = [] := by
      rw [← List.length_eq_zero_iff]
      omega
    have hword : wordOf w = [littleEndian w] := wordOf_of_pos (hw ▸ by decide)
    rw [lastWords_append ha (.inl hw) (by omega), hword]
    rfl
  · -- a single byte comes last
    obtain rfl : back = [] := List.eq_nil_of_length_eq_zero (by omega)
    rw [List.length_nil] at hn hstart
    refine ⟨wordOf (front.take (4 * (front.length / 4))) ++
      wordOf (front.drop (4 * (front.length / 4))), [], fun w hw => ?_⟩
    have ha : (front.take (4 * (front.length / 4))).length = 4 ∨
        front.take (4 * (front.length / 4)) = [] := by
      rw [← List.length_eq_zero_iff, List.length_take]
      omega
    have hb : (front.drop (4 * (front.length / 4))).length = 2 ∨
        front.drop (4 * (front.length / 4)) = [] := by
      rw [← List.length_eq_zero_iff, List.length_drop]
      omega
    have hword : wordOf w = [littleEndian w] := wordOf_of_pos (hw ▸ by decide)
    conv => lhs; rw [← List.take_append_drop (4 * (front.length / 4)) front]
    rw [List.append_nil, List.append_assoc, lastWords_append ha hb (Nat.le_of_eq hw), hword,
      List.append_assoc]

/-- A word of a text, with those in front of it and those behind it, which do not depend on its
bytes. -/
theorem exists_words_eq {front back : List UInt8} {size : Nat}
    (h : IsWord (front.length + (size + back.length)) front.length size) :
    ∃ before after, ∀ w : List UInt8, w.length = size →
      words (front ++ (w ++ back)) = before ++ littleEndian w :: after := by
  by_cases hshort : front.length + (size + back.length) < 8
  · obtain ⟨before, after, hwords⟩ := exists_lastWords_eq hshort h
    refine ⟨before, after, fun w hw => ?_⟩
    rw [words_of_length_lt (by simpa [hw] using hshort), hwords w hw]
  by_cases hfront : 8 ≤ front.length
  · -- the first eight bytes are a word that stands in front
    have hrest :
        IsWord ((front.drop 8).length + (size + back.length)) (front.drop 8).length size := by
      rw [List.length_drop]
      unfold IsWord at h ⊢
      omega
    obtain ⟨before, after, hwords⟩ := exists_words_eq hrest
    refine ⟨littleEndian (front.take 8) :: before, after, fun w hw => ?_⟩
    have hchunk : (front.take 8).length = 8 := by
      rw [List.length_take]
      omega
    conv => lhs; rw [← List.take_append_drop 8 front, List.append_assoc]
    rw [words_append hchunk, hwords w hw]
    rfl
  · -- no word but one of eight bytes starts in the first eight
    obtain ⟨hle, ⟨rfl, hstart⟩ | ⟨rfl, hstart⟩ | ⟨rfl, hstart⟩ | ⟨rfl, hstart⟩⟩ := h
    · obtain rfl : front = [] := List.eq_nil_of_length_eq_zero (by omega)
      exact ⟨[], words back, fun w hw => words_append hw back⟩
    all_goals omega
termination_by front.length

/-! ## Hashes -/

/-- Whether two byte sequences of one length differ, but not outside the bytes of one word. -/
structure DifferInOneWord (a b : List UInt8) : Prop where
  ne : a ≠ b
  length_eq : a.length = b.length
  inWord : ∃ start size, IsWord a.length start size ∧ a.take start = b.take start ∧
    a.drop (start + size) = b.drop (start + size)

theorem eq_take_append (l : List UInt8) (start size : Nat) :
    l = l.take start ++ ((l.drop start).take size ++ l.drop (start + size)) := by
  rw [← List.drop_drop, List.take_append_drop, List.take_append_drop]

theorem hash_ne_of_differInOneWord {a b : List UInt8} (h : DifferInOneWord a b) :
    hash a ≠ hash b := by
  obtain ⟨hne, hlength, start, size, hword, hfront, hback⟩ := h
  have hsize : size ≤ 8 := by
    unfold IsWord at hword
    omega
  have hle := hword.1
  have ha : ((a.drop start).take size).length = size := by
    rw [List.length_take, List.length_drop]
    omega
  have hb : ((b.drop start).take size).length = size := by
    rw [List.length_take, List.length_drop]
    omega
  have hfrontLength : (a.take start).length = start := by
    rw [List.length_take]
    omega
  have htotal : (a.take start).length + (size + (a.drop (start + size)).length) = a.length := by
    rw [hfrontLength, List.length_drop]
    omega
  have hplace : IsWord ((a.take start).length + (size + (a.drop (start + size)).length))
      (a.take start).length size := by
    rwa [htotal, hfrontLength]
  obtain ⟨before, after, hwords⟩ := exists_words_eq hplace
  intro hhash
  have hdiffer : (a.drop start).take size ≠ (b.drop start).take size := by
    intro heq
    rw [eq_take_append a start size, eq_take_append b start size, hfront, hback, heq] at hne
    exact hne rfl
  rw [eq_take_append a start size, eq_take_append b start size, ← hfront, ← hback, hash, hash,
    hwords _ ha, hwords _ hb, List.foldl_append, List.foldl_append, List.foldl_cons,
    List.foldl_cons] at hhash
  have hround := round_injective_word _ (foldl_round_injective after hhash)
  exact hdiffer (littleEndian_injective (ha.trans hb.symm) (ha.trans_le hsize) hround)

/-! ## Digits -/

theorem digit_eq_iff {m n : Nat} : digit m = digit n ↔ m % 16 = n % 16 := by
  have hdigits : ∀ i < 16, ∀ j < 16, digits.getD i '0' = digits.getD j '0' → i = j := by decide
  constructor
  · exact hdigits _ (Nat.mod_lt m (by decide)) _ (Nat.mod_lt n (by decide))
  · intro h
    rw [digit, digit, h]

/-- Numbers with the same last digits are equal up to those digits. -/
theorem mod_pow_eq_of_digits {m n : Nat} (k : Nat)
    (h : ∀ i < k, m / 16 ^ i % 16 = n / 16 ^ i % 16) : m % 16 ^ k = n % 16 ^ k := by
  induction k with
  | zero => rw [Nat.pow_zero, Nat.mod_one, Nat.mod_one]
  | succ k ih =>
    rw [Nat.mod_pow_succ, Nat.mod_pow_succ, ih fun i hi => h i (Nat.lt_succ_of_lt hi),
      h k (Nat.lt_succ_self k)]

theorem hexadecimal_injective : Function.Injective hexadecimal := by
  intro v w h
  apply UInt64.toNat_inj.1
  have hdigit : ∀ i < 16, v.toNat / 16 ^ i % 16 = w.toNat / 16 ^ i % 16 := by
    intro i hi
    have hmap := List.map_inj_left.1 h (15 - i) (List.mem_range.2 (by omega))
    rw [digit_eq_iff, Nat.shiftRight_eq_div_pow, Nat.shiftRight_eq_div_pow, Nat.pow_mul,
      Nat.sub_sub_self (Nat.le_of_lt_succ hi)] at hmap
    exact hmap
  have hmod := mod_pow_eq_of_digits 16 hdigit
  rwa [Nat.mod_eq_of_lt (show v.toNat < 16 ^ 16 from v.toNat_lt),
    Nat.mod_eq_of_lt (show w.toNat < 16 ^ 16 from w.toNat_lt)] at hmod

end AddressExport.Hash
