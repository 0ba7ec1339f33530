/-!
# A hash of bytes by words

The bytes are cut into little-endian words: of eight bytes while there are eight, then at most one
of four, one of two and one of one byte.  Each word is taken into a 64-bit state by one round, which
turns the state left by five bits, adds the word without carry, and multiplies by an odd constant.
The hash is the state after the last word, starting from zero.
-/

namespace AddressExport.Hash

/-- The number that some bytes spell, least significant byte first. -/
def littleEndian : List UInt8 → UInt64
  | [] => 0
  | b :: r => b.toUInt64 ||| (littleEndian r <<< 8)

/-- The words of at most seven bytes. -/
def lastWords (bytes : List UInt8) : List UInt64 :=
  let four := if 4 ≤ bytes.length then 4 else 0
  let rest := bytes.drop four
  let two := if 2 ≤ rest.length then 2 else 0
  let last := rest.drop two
  [bytes.take four, rest.take two, last].filterMap fun piece =>
    if piece.isEmpty then none else some (littleEndian piece)

/-- The words of a byte sequence. -/
def words : List UInt8 → List UInt64
  | a :: b :: c :: d :: e :: f :: g :: h :: r => littleEndian [a, b, c, d, e, f, g, h] :: words r
  | bytes => lastWords bytes

/-- The factor of a round. -/
def factor : UInt64 := 0x517cc1b727220a95

/-- Turns a word left by five bits. -/
def turn (x : UInt64) : UInt64 := (x <<< 5) ||| (x >>> 59)

/-- Takes one word into the state. -/
def round (state word : UInt64) : UInt64 := (turn state ^^^ word) * factor

/-- The hash of a byte sequence. -/
def hash (bytes : List UInt8) : UInt64 := (words bytes).foldl round 0

/-! ## Hexadecimal digits -/

/-- The hexadecimal digits in order. -/
def digits : List Char := "0123456789abcdef".toList

/-- The digit of a number below 16. -/
def digit (d : Nat) : Char := digits.getD (d % 16) '0'

/-- The sixteen hexadecimal digits of a word, the most significant first. -/
def hexadecimal (word : UInt64) : List Char :=
  (List.range 16).map fun i => digit (word.toNat >>> (4 * (15 - i)))

/-- Whether a character is a lowercase hexadecimal digit. -/
def isDigit (c : Char) : Bool := ('0' ≤ c && c ≤ '9') || ('a' ≤ c && c ≤ 'f')

theorem length_hexadecimal (word : UInt64) : (hexadecimal word).length = 16 := by
  simp [hexadecimal]

theorem isDigit_digit (d : Nat) : isDigit (digit d) = true := by
  have below : ∀ k < 16, isDigit (digits.getD k '0') = true := by decide
  exact below _ (Nat.mod_lt _ (by decide))

theorem isDigit_of_mem_hexadecimal {word : UInt64} {c : Char} (h : c ∈ hexadecimal word) :
    isDigit c = true := by
  obtain ⟨i, -, rfl⟩ := List.mem_map.1 h
  exact isDigit_digit _

end AddressExport.Hash
