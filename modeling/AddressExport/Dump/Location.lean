import AddressExport.Text.Blank
import AddressExport.Text.Pieces

/-!
# Places in files

A node's text mentions places: where the node begins, where it ends, where its name stands.  A place
is written `path:line:col`, or only `line:l:c` or `col:c` if the path is that of the last place
written before, in this node or an earlier one.  So a reader of nodes carries the last path on.
-/

namespace AddressExport.Dump

/-- A place that a text mentions: one with a path, or one in the file mentioned last. -/
inductive Place where
  | inFile (path : String)
  | sameFile
  deriving DecidableEq, Repr

namespace Place

/-- Whether a text is a number. -/
def isNumber (text : List Char) : Bool := !text.isEmpty && text.all Char.isDigit

/-- Whether a character is one that no path has. -/
def isForeign (c : Char) : Bool := ['<', '>', '\'', '(', ')'].contains c

/-- The path of `path:line:col`. -/
def path? (token : List Char) : Option String :=
  match Text.splitLast? [':'] token with
  | some (front, col) =>
    match Text.splitLast? [':'] front with
    | some (path, line) =>
      if isNumber col && isNumber line && !path.isEmpty && !path.any isForeign then
        some (String.ofList path)
      else none
    | none => none
  | none => none

/-- The place that a token spells, if it spells one. -/
def ofToken? (token : List Char) : Option Place :=
  match Text.afterStart? "col:".toList token with
  | some col => if isNumber col then some sameFile else none
  | none =>
    match Text.afterStart? "line:".toList token with
    | some rest => if (Text.splitAll (· == ':') rest).all isNumber then some sameFile else none
    | none => (path? token).map Place.inFile

/-- The path that a place spells. -/
def spelled? : Place → Option String
  | inFile path => some path
  | sameFile => none

/-- A piece of a text without the signs that open and close a range. -/
def unwrap (piece : List Char) : List Char :=
  ((piece.dropWhile (· == '<')).reverse.dropWhile (· == '>')).reverse

/-- The places that a node's text mentions, in order.  Blanks and commas part its tokens. -/
def all (text : String) : List Place :=
  (Text.splitAll (fun c => Text.isBlank c || c == ',') text.toList).filterMap
    fun piece => ofToken? (unwrap piece)

end Place

/-- The file in which a node starts: that of the first place it mentions.  A node without a place
counts to the file mentioned last. -/
def startFile? (lastFile : Option String) (text : String) : Option String :=
  match Place.all text with
  | .inFile path :: _ => some path
  | _ => lastFile

/-- The file mentioned last, after a node's text. -/
def lastFile? (lastFile : Option String) (text : String) : Option String :=
  ((Place.all text).filterMap Place.spelled?).getLast?.or lastFile

end AddressExport.Dump
