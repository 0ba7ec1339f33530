import AddressExport.Toml.Reader

/-!
# Quoted texts

A text is quoted by `"`, with escapes, or by `'`, without.  Three quotes open a text that may hold
line ends, which are read as line feeds, and up to two quotes in a row.
-/

namespace AddressExport.Toml

/-! ## Escapes -/

/-- The value of a hexadecimal digit. -/
def digitValue (c : Char) : Nat :=
  if c.isDigit then c.toNat - '0'.toNat
  else if 'a' ≤ c ∧ c ≤ 'f' then c.toNat - 'a'.toNat + 10
  else c.toNat - 'A'.toNat + 10

/-- Whether a character is a hexadecimal digit. -/
def isHexadecimal (c : Char) : Bool :=
  c.isDigit || ('a' ≤ c && c ≤ 'f') || ('A' ≤ c && c ≤ 'F')

/-- The number that digits of a base spell. -/
def number (base : Nat) (digits : List Char) : Nat :=
  digits.foldl (fun n c => n * base + digitValue c) 0

/-- A character given by its number in `n` digits. -/
def codePoint (n : Nat) : Reader Char := do
  let digits ← Reader.times (Reader.one isHexadecimal) n
  let value := number 16 digits
  Reader.require (decide value.isValidChar)
  return Char.ofNat value

/-- The letters that stand for a character behind a backslash. -/
def escapeLetters : List (Char × Char) :=
  [('b', '\x08'), ('t', '\t'), ('n', '\n'), ('f', '\x0c'), ('r', '\r'), ('"', '"'), ('\\', '\\')]

/-- An escape. -/
def escape : Reader Char := do
  Reader.exactly "\\"
  let letter ← Reader.one fun _ => true
  if letter = 'u' then codePoint 4
  else if letter = 'U' then codePoint 8
  else
    match escapeLetters.lookup letter with
    | some c => return c
    | none => Reader.refuse

/-! ## Texts on one line -/

/-- A text in quotes, with escapes. -/
def basicText : Reader (List Char) := do
  Reader.exactly "\""
  let text ← Reader.many ((Reader.one fun c => isPlain c && c != '"' && c != '\\').or escape)
  Reader.exactly "\""
  return text

/-- A text in single quotes. -/
def literalText : Reader (List Char) := do
  Reader.exactly "'"
  let text ← Reader.run fun c => isPlain c && c != '\''
  Reader.exactly "'"
  return text

/-! ## Texts on several lines -/

/-- A line end, read as a line feed. -/
def innerLineEnd : Reader (List Char) := do
  lineEnd
  return ['\n']

/-- One or two quotes in a row. -/
def innerQuotes (quote : Char) : Reader (List Char) := do
  let quotes ← Reader.run (· == quote)
  Reader.require (quotes.length == 1 || quotes.length == 2)
  return quotes

/-- The quotes that close a text; those in front of the last three belong to it. -/
def closingQuotes (quote : Char) : Reader (List Char) := do
  let quotes ← Reader.run (· == quote)
  Reader.require (3 ≤ quotes.length && quotes.length ≤ 5)
  return quotes.drop 3

/-- A backslash at the end of a line, with all blanks and line ends that follow. -/
def lineContinuation : Reader (List Char) := do
  Reader.exactly "\\"
  gap
  lineEnd
  let _ ← Reader.many (((do let _ ← Reader.one isGap) : Reader Unit).or lineEnd)
  return []

/-- A text in three quotes that is made of the given pieces.  A line end right behind the opening
quotes does not belong to it. -/
def longText (quote : Char) (piece : Reader (List Char)) : Reader (List Char) := do
  Reader.exactly (String.ofList [quote, quote, quote])
  let _ ← Reader.optional lineEnd
  let pieces ← Reader.many (piece.or (innerLineEnd.or (innerQuotes quote)))
  let quotes ← closingQuotes quote
  return pieces.flatten ++ quotes

/-- A run of plain characters other than the given ones. -/
def plainRun (others : List Char) : Reader (List Char) := do
  let text ← Reader.run fun c => isPlain c && !others.contains c
  Reader.require (!text.isEmpty)
  return text

/-- A text in three quotes, with escapes. -/
def longBasicText : Reader (List Char) :=
  longText '"' <| (plainRun ['"', '\\']).or <| lineContinuation.or do return [← escape]

/-- A text in three single quotes. -/
def longLiteralText : Reader (List Char) := longText '\'' (plainRun ['\''])

/-- A text. -/
def text : Reader String := do
  return String.ofList
    (← longBasicText.or (longLiteralText.or (basicText.or literalText)))

/-! ## Keys -/

/-- Whether a character can stand in a key that is not quoted. -/
def isBare (c : Char) : Bool := c.isAlphanum || c == '_' || c == '-'

/-- A key that is not quoted. -/
def bareKey : Reader (List Char) := do
  let key ← Reader.run isBare
  Reader.require (!key.isEmpty)
  return key

/-- One part of a key. -/
def simpleKey : Reader String := do
  gap
  let key ← basicText.or (literalText.or bareKey)
  gap
  return String.ofList key

/-- How many parts a key can have. -/
def longestKey : Nat := 79

/-- A key: its parts but the last, and the last. -/
def key : Reader (List String × String) := do
  let first ← simpleKey
  let others ← Reader.many do
    Reader.exactly "."
    simpleKey
  Reader.require (others.length < longestKey)
  match others.getLast? with
  | some last => return (first :: others.dropLast, last)
  | none => return ([], first)

end AddressExport.Toml
