import AddressExport.Text.Pieces

/-!
# Paths

A path keeps the text that it was given as; what it means is decided by its parts.  Slashes part
them, a slash at the start makes the path absolute, and empty parts and parts `.` mean nothing,
except for a `.` at the very start of a path that is not absolute.
-/

namespace AddressExport

/-- A path as it was given. -/
structure Path where
  text : String
  deriving DecidableEq, Repr

namespace Path

/-! ## Parts -/

/-- Whether the path starts at the root. -/
def isAbsolute (p : Path) : Bool := Text.startsWith p.text "/"

/-- The parts of a path between slashes, from the last to the first; the slash that makes a path
absolute is left out. -/
def reversedParts (p : Path) : List (List Char) :=
  (Text.splitAll (· == '/') (if p.isAbsolute then p.text.toList.drop 1 else p.text.toList)).reverse

/-- The path with the given parts, from the last to the first. -/
def ofReversedParts (isAbsolute : Bool) (parts : List (List Char)) : Path :=
  ⟨(if isAbsolute then "/" else "") ++ "/".intercalate (parts.reverse.map String.ofList)⟩

/-- Whether a part means something; `isFirst` says that no part is in front of it. -/
def counts (isAbsolute isFirst : Bool) (part : List Char) : Bool :=
  part != [] && (part != ['.'] || (isFirst && !isAbsolute))

/-- The parts without those at the end that mean nothing. -/
def trimParts (isAbsolute : Bool) : List (List Char) → List (List Char)
  | [] => []
  | part :: rest =>
    if counts isAbsolute rest.isEmpty part then part :: rest else trimParts isAbsolute rest

/-- The parts that mean something. -/
def meaning (isAbsolute : Bool) : List (List Char) → List (List Char)
  | [] => []
  | part :: rest =>
    if counts isAbsolute rest.isEmpty part then part :: meaning isAbsolute rest
    else meaning isAbsolute rest

/-- For each part that means something, the parts in front of it. -/
def above (isAbsolute : Bool) : List (List Char) → List (List (List Char))
  | [] => []
  | part :: rest =>
    if counts isAbsolute rest.isEmpty part then
      trimParts isAbsolute rest :: above isAbsolute rest
    else above isAbsolute rest

/-! ## Operations -/

/-- Whether two paths are spelled the same but for parts that mean nothing. -/
def same (p q : Path) : Bool :=
  p.isAbsolute == q.isAbsolute &&
    meaning p.isAbsolute p.reversedParts == meaning q.isAbsolute q.reversedParts

/-- The path and the directories around it, from the inside out. -/
def ancestors (p : Path) : List Path :=
  p :: (above p.isAbsolute p.reversedParts).map (ofReversedParts p.isAbsolute)

/-- The directory around a path. -/
def parent? (p : Path) : Option Path := p.ancestors.tail.head?

/-- The path `q` as seen from `p`. -/
def join (p q : Path) : Path :=
  if q.isAbsolute then q
  else if p.text = "" ∨ Text.endsWith p.text "/" then ⟨p.text ++ q.text⟩
  else ⟨p.text ++ "/" ++ q.text⟩

/-- The last part, if it is a name. -/
def fileName? (p : Path) : Option String :=
  match meaning p.isAbsolute p.reversedParts with
  | part :: _ => if part = ['.'] ∨ part = ['.', '.'] then none else some (String.ofList part)
  | [] => none

/-- A file name in front of and behind its last dot.  A dot at the start does not part it. -/
def splitName? (name : String) : Option (String × String) :=
  match Text.splitLast? ['.'] name.toList with
  | some (stem, extension) =>
    if stem = [] then none else some (String.ofList stem, String.ofList extension)
  | none => none

/-- The file name without its extension. -/
def stem? (p : Path) : Option String :=
  p.fileName?.map fun name =>
    match splitName? name with
    | some (stem, _) => stem
    | none => name

/-- The extension of the file name. -/
def extension? (p : Path) : Option String :=
  (p.fileName?.bind splitName?).map (·.2)

/-- The working directory. -/
def here : Path := ⟨"."⟩

end Path

end AddressExport
