/-!
# Lines

A line ends at a line feed, and one carriage return right before that line feed belongs to the line
end.  A carriage return elsewhere, or at the end of a last line that no line feed ends, is an
ordinary character.

`unlines` writes a line feed after every line, and `lines_unlines` reads the lines back.
-/

namespace AddressExport.Text

/-- The lines of a text without their ends, as lists of characters. -/
def splitLines : List Char → List (List Char)
  | [] => []
  | '\n' :: r => [] :: splitLines r
  | '\r' :: '\n' :: r => [] :: splitLines r
  | c :: r =>
    match splitLines r with
    | [] => [[c]]
    | l :: ls => (c :: l) :: ls

/-- The lines of a text without their ends. -/
def lines (s : String) : List String :=
  (splitLines s.toList).map String.ofList

/-- The text of the given lines, each ended by a line feed. -/
def unlines (ls : List String) : String :=
  String.ofList (ls.flatMap fun l => l.toList ++ ['\n'])

/-! ## Reading written lines -/

/-- A character that does not begin a line end goes to the front of the first line. -/
theorem splitLines_cons {c : Char} {r : List Char} (hc : c ≠ '\n')
    (hr : c = '\r' → r.head? ≠ some '\n') :
    splitLines (c :: r) =
      match splitLines r with
      | [] => [[c]]
      | l :: ls => (c :: l) :: ls := by
  rw [splitLines.eq_def]
  split
  · simp at *
  · simp_all
  · simp_all
  · rename_i h
    cases h
    rfl

/-- The first line reaches to the first line feed, and reading goes on behind it. -/
theorem splitLines_append_lineFeed {l : List Char} (hl : '\n' ∉ l) (hr : l.getLast? ≠ some '\r')
    (rest : List Char) : splitLines (l ++ '\n' :: rest) = l :: splitLines rest := by
  induction l with
  | nil => rfl
  | cons c l ih =>
    have hc : c ≠ '\n' := fun h => hl (by simp [h])
    have hl' : '\n' ∉ l := fun h => hl (by simp [h])
    cases l with
    | nil =>
      have : c ≠ '\r' := by simpa using hr
      simp [splitLines_cons hc (fun h => absurd h this), splitLines]
    | cons d l =>
      have hd : d ≠ '\n' := fun h => hl' (by simp [h])
      rw [List.cons_append, splitLines_cons hc (by simp [hd]), ih hl' (by simpa using hr)]

theorem splitLines_flatMap {ls : List (List Char)} (hl : ∀ l ∈ ls, '\n' ∉ l)
    (hr : ∀ l ∈ ls, l.getLast? ≠ some '\r') :
    splitLines (ls.flatMap (· ++ ['\n'])) = ls := by
  induction ls with
  | nil => rfl
  | cons l ls ih =>
    simp only [List.mem_cons, forall_eq_or_imp] at hl hr
    rw [List.flatMap_cons, List.append_assoc, List.singleton_append,
      splitLines_append_lineFeed hl.1 hr.1, ih hl.2 hr.2]

/-- Lines that hold no line feed, and do not end in a carriage return, are read back as written. -/
theorem lines_unlines {ls : List String} (hl : ∀ l ∈ ls, '\n' ∉ l.toList)
    (hr : ∀ l ∈ ls, l.toList.getLast? ≠ some '\r') : lines (unlines ls) = ls := by
  have h := @splitLines_flatMap (ls.map String.toList) (by simpa using hl) (by simpa using hr)
  rw [List.flatMap_map] at h
  simp [lines, unlines, h]

/-! ## Places of lines -/

/-- A line with its number, counted from 1, and the place where it starts. -/
structure Line where
  number : Nat
  offset : Nat
  text : List Char
  deriving DecidableEq, Repr

/-- The number of bytes of a text in UTF-8. -/
def byteLength : List Char → Nat
  | [] => 0
  | c :: r => c.utf8Size + byteLength r

/-- Numbers the lines from `number` on.  Each line is taken to fill its own bytes and one byte for
its end, so every carriage return that belongs to a line end leaves the offset one short. -/
def numberLines (number offset : Nat) : List (List Char) → List Line
  | [] => []
  | l :: ls => ⟨number, offset, l⟩ :: numberLines (number + 1) (offset + byteLength l + 1) ls

/-- The lines of a text with their numbers and offsets. -/
def numberedLines (s : String) : List Line :=
  numberLines 1 0 (splitLines s.toList)

end AddressExport.Text
