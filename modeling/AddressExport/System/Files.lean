import AddressExport.Path
import AddressExport.Text.Utf8

/-!
# Files

A file system is a set of files and directories, each at the names that lead to it from the root.
A path is followed part by part: `.` stays, `..` goes back, and every other part must name
something in the directory reached so far.  `destination` says where a path leads, and
all operations follow from it.
-/

namespace AddressExport

/-- What there is at a place. -/
inductive Node where
  | file (content : ByteArray)
  | directory

/-- A file system.  The first entry for a place counts. -/
structure FileSystem where
  entries : List (List String × Node)

/-- Where a path leads. -/
inductive Destination where
  /-- To something. -/
  | found (names : List String) (node : Node)
  /-- To a name that a directory does not have. -/
  | vacant (names : List String)
  /-- Nowhere, as something on the way does not exist. -/
  | missing
  /-- Nowhere, as something on the way is no directory, or the path is no path. -/
  | blocked

namespace FileSystem

/-- What there is at a place.  The root is always there. -/
def lookup? (fs : FileSystem) (names : List String) : Option Node :=
  if names = [] then some .directory else fs.entries.lookup names

/-- Puts something at a place. -/
def put (fs : FileSystem) (names : List String) (node : Node) : FileSystem :=
  ⟨(names, node) :: fs.entries⟩

/-- Other places keep what they had. -/
theorem lookup?_put {fs : FileSystem} {names : List String} {node : Node} {other : List String}
    (h : names ≠ []) :
    (fs.put names node).lookup? other = if other = names then some node else fs.lookup? other := by
  by_cases ho : other = []
  · simp [lookup?, ho, Ne.symm h]
  · by_cases he : other = names
    · simp [lookup?, put, h, he]
    · have : (other == names) = false := by simpa using he
      simp [lookup?, put, ho, he, List.lookup_cons, this]

/-! ## Following a path -/

/-- The longest name that a directory can have, in bytes. -/
def longestName : Nat := 255

/-- The longest path, in bytes. -/
def longestPath : Nat := 4095

/-- Goes on by one part of a path. -/
def step (fs : FileSystem) (reached : Destination) (part : String) : Destination :=
  match reached with
  | .found names .directory =>
    if part = "." then reached
    else if part = ".." then .found names.dropLast .directory
    else if longestName < part.utf8ByteSize then .blocked
    else
      match fs.lookup? (names ++ [part]) with
      | some node => .found (names ++ [part]) node
      | none => .vacant (names ++ [part])
  | .found _ (.file _) => .blocked
  | .vacant _ => .missing
  | .missing => .missing
  | .blocked => .blocked

/-- The parts of a path that are followed. -/
def steps (p : Path) : List String :=
  (p.reversedParts.reverse.filter fun part => !part.isEmpty).map String.ofList

/-- Where a path leads from the given working directory.  A path that ends in a slash does not lead
to a file. -/
def destination (fs : FileSystem) (directory : List String) (p : Path) : Destination :=
  if p.text = "" then .missing
  else if p.text.toList.contains '\x00' || longestPath < p.text.utf8ByteSize then .blocked
  else
    let start := if p.isAbsolute then [] else directory
    match (steps p).foldl fs.step (.found start .directory) with
    | .found names (.file content) =>
      if Text.endsWith p.text "/" then .blocked else .found names (.file content)
    | reached => reached

/-! ## Questions -/

/-- Whether a path leads to a directory. -/
def isDirectory (fs : FileSystem) (directory : List String) (p : Path) : Bool :=
  fs.destination directory p matches .found _ .directory

/-- Whether a path leads to a file. -/
def isFile (fs : FileSystem) (directory : List String) (p : Path) : Bool :=
  fs.destination directory p matches .found _ (.file _)

/-- The bytes of a file. -/
def read? (fs : FileSystem) (directory : List String) (p : Path) : Option ByteArray :=
  match fs.destination directory p with
  | .found _ (.file content) => some content
  | _ => none

/-- The path from the root of what a path leads to. -/
def resolve? (fs : FileSystem) (directory : List String) (p : Path) : Option Path :=
  match fs.destination directory p with
  | .found names _ => some ⟨"/" ++ "/".intercalate names⟩
  | _ => none

/-! ## Changes -/

/-- Makes a directory where the path leads, unless it is there.  The result says whether it is there
afterwards. -/
def makeDirectory (fs : FileSystem) (directory : List String) (p : Path) : FileSystem × Bool :=
  match fs.destination directory p with
  | .vacant names => (fs.put names .directory, true)
  | .found _ .directory => (fs, true)
  | _ => (fs, false)

/-- Makes the first of some directories, each of which lies in the next one, and before it those of
the others that are missing. -/
def makeDirectories (fs : FileSystem) (directory : List String) : List Path → FileSystem × Bool
  | [] => (fs, false)
  | p :: around =>
    if p.text = "" then (fs, true)
    else
      match fs.destination directory p with
      | .missing =>
        match makeDirectories fs directory around with
        | (fs', true) => fs'.makeDirectory directory p
        | (fs', false) => (fs', false)
      | _ => fs.makeDirectory directory p

/-- Makes a directory, and those around it that are missing. -/
def createDirectory (fs : FileSystem) (directory : List String) (p : Path) : FileSystem × Bool :=
  fs.makeDirectories directory p.ancestors

/-- Writes a file, over the one that is there or new in a directory that is there. -/
def write (fs : FileSystem) (directory : List String) (p : Path) (content : ByteArray) :
    FileSystem × Bool :=
  match fs.destination directory p with
  | .found names (.file _) => (fs.put names (.file content), true)
  | .vacant names =>
    if Text.endsWith p.text "/" then (fs, false) else (fs.put names (.file content), true)
  | _ => (fs, false)

end FileSystem

end AddressExport
