/-!
# Blank characters

A text is cut into words, and trimmed, at blank characters.  Blank are the 25 characters that have
the Unicode property `White_Space`; the four separators U+001C to U+001F, the Mongolian vowel
separator and the zero-width characters do not have it.

Every function comes twice: on the list of characters of a text, where it is a plain recursion, and
on `String`, which is what the rest of the library passes around.
-/

namespace AddressExport.Text

/-- The characters with the Unicode property `White_Space`. -/
def isBlank (c : Char) : Bool :=
  let n := c.toNat
  (0x09 ≤ n && n ≤ 0x0d) || n == 0x20 || n == 0x85 || n == 0xa0 || n == 0x1680 ||
    (0x2000 ≤ n && n ≤ 0x200a) || n == 0x2028 || n == 0x2029 || n == 0x202f || n == 0x205f ||
    n == 0x3000

/-! ## Trimming -/

/-- The characters of a text without the blanks at both ends. -/
def trimBlanks (s : List Char) : List Char :=
  ((s.dropWhile isBlank).reverse.dropWhile isBlank).reverse

/-- A text without the blanks at both ends. -/
def trim (s : String) : String :=
  String.ofList (trimBlanks s.toList)

@[simp] theorem toList_trim (s : String) : (trim s).toList = trimBlanks s.toList :=
  String.toList_ofList

/-! ## Words -/

/-- The maximal runs of characters that are not blank. -/
def splitWords : List Char → List (List Char)
  | [] => []
  | [c] => if isBlank c then [] else [[c]]
  | c :: d :: r =>
    if isBlank c then splitWords (d :: r)
    else if isBlank d then [c] :: splitWords (d :: r)
    else
      match splitWords (d :: r) with
      | w :: ws => (c :: w) :: ws
      | [] => [[c]]

/-- The words of a text, in order. -/
def words (s : String) : List String :=
  (splitWords s.toList).map String.ofList

/-- The words of a text, each parted from the next by one space. -/
def respace (s : String) : String :=
  " ".intercalate (words s)

/-- Whether `w` is one of the words of `s`. -/
def hasWord (s w : String) : Bool :=
  (words s).contains w

end AddressExport.Text
