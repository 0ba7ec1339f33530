/-!
# Readers

A reader takes something from the front of a text and leaves the rest, or refuses the text.  The
file of settings is read by readers that are put together from the few ones given here.
-/

namespace AddressExport.Toml

/-- Takes a value from the front of a text, if there is one. -/
def Reader (α : Type) : Type := List Char → Option (α × List Char)

namespace Reader

variable {α β : Type}

/-- Takes nothing. -/
def done (a : α) : Reader α := fun s => some (a, s)

/-- Goes on with what is left. -/
def andThen (p : Reader α) (f : α → Reader β) : Reader β := fun s =>
  match p s with
  | some (a, rest) => f a rest
  | none => none

instance : Monad Reader where
  pure := done
  bind := andThen

/-- Refuses every text. -/
def refuse : Reader α := fun _ => none

/-- Tries `q` if `p` refuses the text. -/
def or (p q : Reader α) : Reader α := fun s =>
  match p s with
  | some r => some r
  | none => q s

/-- Takes what `p` takes, if it does not refuse the text. -/
def optional (p : Reader α) : Reader (Option α) := fun s =>
  match p s with
  | some (a, rest) => some (some a, rest)
  | none => some (none, s)

/-- Refuses the text unless a condition holds. -/
def require (condition : Bool) : Reader Unit := if condition then done () else refuse

/-- Takes one character of a class. -/
def one (p : Char → Bool) : Reader Char
  | [] => none
  | c :: r => if p c then some (c, r) else none

/-- Takes the given text. -/
def exactly (text : String) : Reader Unit := fun s =>
  if text.toList.isPrefixOf s then some ((), s.drop text.toList.length) else none

/-- Takes all characters of a class that come next. -/
def run (p : Char → Bool) : Reader (List Char) := fun s => some (s.takeWhile p, s.dropWhile p)

/-- Takes up to `n` values. -/
def upTo (p : Reader α) : Nat → Reader (List α)
  | 0 => done []
  | n + 1 => fun s =>
    match p s with
    | some (a, rest) => ((upTo p n).andThen fun as => done (a :: as)) rest
    | none => some ([], s)

/-- Takes as many values as there are.  Each of them should take something, so that there are no
more than the text has characters. -/
def many (p : Reader α) : Reader (List α) := fun s => upTo p s.length s

/-- Takes exactly `n` values. -/
def times (p : Reader α) : Nat → Reader (List α)
  | 0 => done []
  | n + 1 => p.andThen fun a => (times p n).andThen fun as => done (a :: as)

/-- The value of a whole text. -/
def whole (p : Reader α) (s : String) : Option α :=
  match p s.toList with
  | some (a, []) => some a
  | _ => none

end Reader

/-! ## Between values -/

/-- Whether a character parts the values of a line. -/
def isGap (c : Char) : Bool := c == ' ' || c == '\t'

/-- Whether a character can stand in a comment or in a text that is not escaped. -/
def isPlain (c : Char) : Bool := c == '\t' || (' ' ≤ c && c != '\x7f')

/-- Spaces and tabs. -/
def gap : Reader Unit := do
  let _ ← Reader.run isGap

/-- The end of a line. -/
def lineEnd : Reader Unit := (Reader.exactly "\n").or (Reader.exactly "\r\n")

/-- A comment, up to the end of its line. -/
def comment : Reader Unit := do
  Reader.exactly "#"
  let _ ← Reader.run isPlain

/-- One of the things that may stand between the values of an array. -/
def gapPiece : Reader Unit :=
  ((do let _ ← Reader.one isGap) : Reader Unit).or (lineEnd.or comment)

/-- Spaces, line ends and comments. -/
def wideGap : Reader Unit := do
  let _ ← Reader.many gapPiece

end AddressExport.Toml
