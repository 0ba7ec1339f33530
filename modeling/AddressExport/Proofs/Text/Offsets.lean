import AddressExport.Proofs.Text.Lines

/-!
# Where lines stand in a text

`Text.numberLines` counts one byte for the end of every line.  So the offset of a line is the length
of the text in front of it, less one for each line end there that is a carriage return and a line
feed (`exists_isIn_of_mem_numberedLines`).
-/

namespace AddressExport.Text

/-! ## Line ends of two characters -/

/-- The number of line feeds with a carriage return right before them. -/
def longEnds : List Char → Nat
  | [] => 0
  | c :: r => longEnds r + if c = '\r' ∧ r.head? = some '\n' then 1 else 0

theorem longEnds_cons (c : Char) (r : List Char) :
    longEnds (c :: r) = longEnds r + if c = '\r' ∧ r.head? = some '\n' then 1 else 0 := rfl

/-- Line ends are counted part by part if no part begins inside one. -/
theorem longEnds_append {a b : List Char} (h : a.getLast? = some '\r' → b.head? ≠ some '\n') :
    longEnds (a ++ b) = longEnds a + longEnds b := by
  induction a with
  | nil => simp [longEnds]
  | cons c a ih =>
    cases a with
    | nil =>
      have hc : ¬ (c = '\r' ∧ b.head? = some '\n') := fun ⟨hc, hb⟩ => h (by simp [hc]) hb
      simp [longEnds, if_neg hc]
    | cons d a =>
      rw [List.cons_append, longEnds_cons c, longEnds_cons c, ih (by simpa using h)]
      exact Nat.add_right_comm _ _ _

theorem longEnds_of_not_mem {l : List Char} (h : '\n' ∉ l) : longEnds l = 0 := by
  induction l with
  | nil => rfl
  | cons c l ih =>
    have hhead : l.head? ≠ some '\n' := fun hhead =>
      h (List.mem_cons_of_mem c (List.mem_of_mem_head? hhead))
    rw [longEnds, ih fun hl => h (List.mem_cons_of_mem c hl), if_neg fun hc => hhead hc.2]

theorem longEnds_line {l : List Char} (h : '\n' ∉ l) :
    longEnds (l ++ ['\n']) = if l.getLast? = some '\r' then 1 else 0 := by
  by_cases hr : l.getLast? = some '\r'
  · obtain ⟨m, rfl⟩ := List.getLast?_eq_some_iff.1 hr
    have hm : '\n' ∉ m := fun hmem => h (List.mem_append_left _ hmem)
    rw [if_pos hr, List.append_assoc, longEnds_append fun _ => by simp, longEnds_of_not_mem hm]
    rfl
  · rw [if_neg hr, longEnds_append fun hr' => absurd hr' hr, longEnds_of_not_mem h]
    rfl

/-! ## Bytes -/

theorem byteLength_append (a b : List Char) :
    byteLength (a ++ b) = byteLength a + byteLength b := by
  induction a with
  | nil => simp [byteLength]
  | cons c a ih => rw [List.cons_append, byteLength, ih, byteLength, Nat.add_assoc]

theorem size_utf8Encode (l : List Char) : l.utf8Encode.size = byteLength l := by
  induction l with
  | nil => rfl
  | cons c l ih =>
    rw [List.utf8Encode_cons, ByteArray.size_append, ih, List.utf8Encode_singleton,
      List.size_toByteArray, String.length_utf8EncodeChar, byteLength]

theorem utf8ByteSize_eq (s : String) : s.utf8ByteSize = byteLength s.toList := by
  rw [← size_utf8Encode, String.utf8Encode_toList]
  rfl

theorem length_le_byteLength (l : List Char) : l.length ≤ byteLength l := by
  induction l with
  | nil => exact Nat.le_refl 0
  | cons c l ih =>
    have hc := c.utf8Size_pos
    rw [List.length_cons, byteLength]
    omega

theorem length_le_utf8ByteSize (s : String) : s.length ≤ s.utf8ByteSize := by
  rw [utf8ByteSize_eq, ← String.length_toList]
  exact length_le_byteLength s.toList

/-- The bytes of a part of a text. -/
theorem extract_toUTF8 {s : String} {before part after : List Char}
    (h : s.toList = before ++ (part ++ after)) :
    s.toUTF8.extract (byteLength before) (byteLength before + byteLength part) =
      (String.ofList part).toUTF8 := by
  have hbytes : s.toUTF8 = (before.utf8Encode ++ part.utf8Encode) ++ after.utf8Encode := by
    rw [← List.utf8Encode_append, ← List.utf8Encode_append, List.append_assoc, ← h,
      String.utf8Encode_toList]
    rfl
  have hsize : (before.utf8Encode ++ part.utf8Encode).size =
      byteLength before + byteLength part := by
    rw [ByteArray.size_append, size_utf8Encode, size_utf8Encode]
  have hpart : (String.ofList part).toUTF8 = part.utf8Encode := by
    rw [← String.toList_ofList (l := part), String.utf8Encode_toList, String.toList_ofList]
    rfl
  rw [hbytes, ← hsize, ByteArray.extract_append_size_left, hpart]
  exact ByteArray.extract_append_eq_right (size_utf8Encode before).symm ByteArray.size_append

/-- A line fills its bytes, one for the line feed, and one for the carriage return if it ends in
one. -/
theorem byteLength_line {l : List Char} (h : '\n' ∉ l) :
    byteLength (l ++ ['\n']) = byteLength (chomp l) + 1 + longEnds (l ++ ['\n']) := by
  rw [longEnds_line h, byteLength_append]
  unfold chomp
  split
  · next hr =>
    obtain ⟨m, rfl⟩ := List.getLast?_eq_some_iff.1 hr
    rw [List.dropLast_concat, byteLength_append]
    rfl
  · rfl

/-! ## Lines -/

theorem eq_append_chomp (l : List Char) : l = chomp l ∨ l = chomp l ++ ['\r'] := by
  unfold chomp
  split
  · next hr =>
    obtain ⟨m, rfl⟩ := List.getLast?_eq_some_iff.1 hr
    exact .inr (by rw [List.dropLast_concat])
  · exact .inl rfl

theorem splitLines_of_not_mem {s : List Char} (hs : s ≠ []) (h : '\n' ∉ s) :
    splitLines s = [s] := by
  induction s with
  | nil => exact absurd rfl hs
  | cons c r ih =>
    have hc : c ≠ '\n' := fun hc => h (hc ▸ List.mem_cons_self)
    have hr : '\n' ∉ r := fun hr => h (List.mem_cons_of_mem c hr)
    rw [splitLines_cons hc fun _ hhead => hr (List.mem_of_mem_head? hhead)]
    cases r with
    | nil => rfl
    | cons d r => rw [ih (List.cons_ne_nil d r) hr]

/-- Whether a numbered line stands between two parts of a text: behind a line end or at the start,
and before a line end or the end of the text. -/
structure Line.IsIn (l : Line) (before after : List Char) : Prop where
  starts : before = [] ∨ before.getLast? = some '\n'
  ends : ∀ c ∈ after.head?, c = '\r' ∨ c = '\n'
  number_eq : l.number = before.count '\n' + 1
  offset_add : l.offset + longEnds before = byteLength before

theorem exists_isIn_of_mem_numberLines {before s : List Char} {number offset : Nat} {l : Line}
    (hstarts : before = [] ∨ before.getLast? = some '\n') (hnumber : number = before.count '\n' + 1)
    (hoffset : offset + longEnds before = byteLength before)
    (h : l ∈ numberLines number offset (splitLines s)) :
    ∃ before' after, before ++ s = before' ++ (l.text ++ after) ∧ l.IsIn before' after := by
  by_cases hs : '\n' ∈ s
  · obtain ⟨line, rest, rfl, hline⟩ := List.eq_append_cons_of_mem hs
    rw [splitLines_append_lineFeed_chomp hline, numberLines, List.mem_cons] at h
    rcases h with rfl | h
    · rcases eq_append_chomp line with hchomp | hchomp
      · exact ⟨before, '\n' :: rest, by rw [← hchomp], hstarts, by simp, hnumber, hoffset⟩
      · refine ⟨before, '\r' :: '\n' :: rest, ?_, hstarts, by simp, hnumber, hoffset⟩
        conv => lhs; rw [hchomp, List.append_assoc]
        rfl
    · -- the text in front of the lines that follow ends with this line and its line feed
      have hbefore : before ++ (line ++ '\n' :: rest) = (before ++ (line ++ ['\n'])) ++ rest := by
        simp
      have hjoint : before.getLast? = some '\r' → (line ++ ['\n']).head? ≠ some '\n' := by
        intro hr
        rcases hstarts with hnil | hlast
        · simp [hnil] at hr
        · simp [hlast] at hr
      rw [hbefore]
      refine exists_isIn_of_mem_numberLines (.inr (by simp)) ?_ ?_ h
      · rw [hnumber, List.count_append, List.count_append, List.count_eq_zero_of_not_mem hline]
        rfl
      · rw [longEnds_append hjoint, byteLength_append, byteLength_line hline]
        omega
  · cases s with
    | nil => cases h
    | cons c r =>
      rw [splitLines_of_not_mem (List.cons_ne_nil c r) hs] at h
      obtain rfl := List.mem_singleton.1 h
      exact ⟨before, [], by simp, hstarts, by simp, hnumber, hoffset⟩
termination_by s.length

/-- Every numbered line stands in its text. -/
theorem exists_isIn_of_mem_numberedLines {s : String} {l : Line} (h : l ∈ numberedLines s) :
    ∃ before after, s.toList = before ++ (l.text ++ after) ∧ l.IsIn before after := by
  have hstarts : ([] : List Char) = [] ∨ ([] : List Char).getLast? = some '\n' := .inl rfl
  exact exists_isIn_of_mem_numberLines hstarts rfl rfl h

end AddressExport.Text
