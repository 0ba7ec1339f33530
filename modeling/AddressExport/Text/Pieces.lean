/-!
# Pieces of a text

Names are joined by a separator that is one character written twice (`::` in a path, `__` in an
exported name) and are read back by cutting the text at the separator from the left, with no
overlap.  A tag that follows the last occurrence of a longer separator is found from the right.

A template is a text with blanks, each written as a name in braces.  Filling in a blank puts a value
in place of every occurrence of it, from the left and with no overlap.  Blanks are filled in one
after the other, so a value that spells a later blank is filled in too.
-/

namespace AddressExport.Text

/-- The pieces of a text between the occurrences of `c` written twice, taken from the left. -/
def splitTwice (c : Char) : List Char → List (List Char)
  | [] => [[]]
  | [a] => [[a]]
  | a :: b :: r =>
    if a = c ∧ b = c then [] :: splitTwice c r
    else
      match splitTwice c (b :: r) with
      | p :: ps => (a :: p) :: ps
      | [] => [[a]]

/-- What follows `p` in a text that starts with `p`. -/
def afterStart? (p s : List Char) : Option (List Char) :=
  if p.isPrefixOf s then some (s.drop p.length) else none

/-- What comes before `p` in a text that ends with `p`. -/
def beforeEnd? (p s : List Char) : Option (List Char) :=
  (afterStart? p.reverse s.reverse).map List.reverse

/-- The texts before and after the last occurrence of `sep`. -/
def splitLast? (sep : List Char) : List Char → Option (List Char × List Char)
  | [] => none
  | c :: r =>
    match splitLast? sep r with
    | some (before, after) => some (c :: before, after)
    | none => (afterStart? sep (c :: r)).map fun after => ([], after)

/-- The texts before and after the first character that satisfies `p`. -/
def splitFirst? (p : Char → Bool) : List Char → Option (List Char × List Char)
  | [] => none
  | c :: r =>
    if p c then some ([], r)
    else (splitFirst? p r).map fun (before, after) => (c :: before, after)

/-- The pieces of a text between the characters that satisfy `p`. -/
def splitAll (p : Char → Bool) : List Char → List (List Char)
  | [] => [[]]
  | c :: r =>
    if p c then [] :: splitAll p r
    else
      match splitAll p r with
      | q :: qs => (c :: q) :: qs
      | [] => [[c]]

/-- Whether `p` occurs in a text. -/
def contains (p : List Char) : List Char → Bool
  | [] => p.isEmpty
  | c :: r => p.isPrefixOf (c :: r) || contains p r

/-- Whether `s` starts with `p`. -/
def startsWith (s p : String) : Bool :=
  p.toList.isPrefixOf s.toList

/-- Whether `s` ends with `p`. -/
def endsWith (s p : String) : Bool :=
  p.toList.isSuffixOf s.toList

/-! ## Filling in a template -/

/-- Puts `value` in place of every occurrence of `blank`, after passing over `skip` characters of an
occurrence that has been written already. -/
def fillFrom (blank value : List Char) (skip : Nat) : List Char → List Char
  | [] => []
  | c :: r =>
    match skip with
    | n + 1 => fillFrom blank value n r
    | 0 =>
      if blank.isPrefixOf (c :: r) then value ++ fillFrom blank value (blank.length - 1) r
      else c :: fillFrom blank value 0 r

/-- Puts `value` in place of every occurrence of `blank`. -/
def fill (blank value template : String) : String :=
  String.ofList (fillFrom blank.toList value.toList 0 template.toList)

/-! ## Laws -/

theorem afterStart?_eq_some_iff {p s t : List Char} : afterStart? p s = some t ↔ s = p ++ t := by
  simp only [afterStart?, Option.ite_none_right_eq_some, Option.some.injEq,
    List.isPrefixOf_iff_prefix]
  constructor
  · rintro ⟨⟨u, rfl⟩, rfl⟩
    simp
  · rintro rfl
    simp

@[simp] theorem afterStart?_append (p t : List Char) : afterStart? p (p ++ t) = some t :=
  afterStart?_eq_some_iff.2 rfl

theorem beforeEnd?_eq_some_iff {p s t : List Char} : beforeEnd? p s = some t ↔ s = t ++ p := by
  simp only [beforeEnd?, Option.map_eq_some_iff, afterStart?_eq_some_iff]
  constructor
  · rintro ⟨u, h, rfl⟩
    have := congrArg List.reverse h
    simpa using this
  · rintro rfl
    exact ⟨t.reverse, by simp, by simp⟩

theorem splitTwice_ne_nil (c : Char) (s : List Char) : splitTwice c s ≠ [] := by
  fun_cases splitTwice c s <;> simp_all

theorem splitAll_ne_nil (p : Char → Bool) (s : List Char) : splitAll p s ≠ [] := by
  fun_cases splitAll p s <;> simp_all

end AddressExport.Text
