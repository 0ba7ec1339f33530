import AddressExport.System.Machine

/-!
# The programs of a bare machine

A bare machine has four programs: `true` and `false`, which only succeed or fail, `echo`, which
writes its arguments, and `cat`, which writes files one after the other.
-/

namespace AddressExport.Programs

/-- A run that succeeds. -/
def success (output : ByteArray) : ProgramResult := ⟨0, output⟩

/-- A run that fails. -/
def failure (output : ByteArray) : ProgramResult := ⟨1, output⟩

/-! ## Echo -/

/-- Whether an argument holds options of `echo`. -/
def isEchoOption (argument : String) : Bool :=
  match argument.toList with
  | '-' :: c :: r => (c :: r).all fun d => d == 'n' || d == 'e' || d == 'E'
  | _ => false

/-- The letters that stand for a character behind a backslash. -/
def escapes : List (Char × Char) :=
  [('\\', '\\'), ('a', '\x07'), ('b', '\x08'), ('e', '\x1b'), ('f', '\x0c'), ('n', '\n'),
    ('r', '\r'), ('t', '\t'), ('v', '\x0b')]

/-- A text with its escapes read, and whether it goes on to its end. -/
def unescape : List Char → List Char × Bool
  | '\\' :: 'c' :: _ => ([], false)
  | '\\' :: c :: r =>
    let (rest, goesOn) := unescape r
    match escapes.lookup c with
    | some d => (d :: rest, goesOn)
    | none => ('\\' :: c :: rest, goesOn)
  | c :: r =>
    let (rest, goesOn) := unescape r
    (c :: rest, goesOn)
  | [] => ([], true)

/-- Writes the arguments with spaces between and a line feed at the end.  Options in front leave out
the line feed (`n`), or read escapes (`e`) or not (`E`). -/
def echo (arguments : List String) : ProgramResult :=
  let options := (arguments.takeWhile isEchoOption).flatMap fun o => o.toList.drop 1
  let words := arguments.dropWhile isEchoOption
  let line := " ".intercalate words
  let readsEscapes := (options.filter fun c => c == 'e' || c == 'E').getLast? == some 'e'
  let (text, goesOn) := if readsEscapes then unescape line.toList else (line.toList, true)
  let feed := if goesOn && !options.contains 'n' then ['\n'] else []
  success (String.ofList (text ++ feed)).toUTF8

/-! ## Cat -/

/-- The arguments that name files; none, if there is an option other than `-u`. -/
def catFiles? : List String → Option (List String)
  | [] => some []
  | argument :: rest =>
    if argument = "--" then some rest
    else if argument = "-u" then catFiles? rest
    else if argument ≠ "-" && Text.startsWith argument "-" then none
    else (catFiles? rest).map (argument :: ·)

/-- The bytes of a file that is named by an argument.  Standard input is empty. -/
def catFile? (files : FileSystem) (directory : List String) (name : String) : Option ByteArray :=
  if name = "-" then some ByteArray.empty else files.read? directory ⟨name⟩

/-- Writes the named files one after the other.  Files that cannot be read are left out, and make
the run fail. -/
def cat (files : FileSystem) (directory : List String) (arguments : List String) : ProgramResult :=
  match catFiles? arguments with
  | none => failure ByteArray.empty
  | some names =>
    let contents := names.map (catFile? files directory)
    let output := (contents.filterMap id).foldl (· ++ ·) ByteArray.empty
    if contents.all Option.isSome then success output else failure output

/-! ## Looking up programs -/

/-- The name of a program, given by its name or its place. -/
def programName (executable : String) : String :=
  match Text.afterStart? "/usr/bin/".toList executable.toList with
  | some name => String.ofList name
  | none =>
    match Text.afterStart? "/bin/".toList executable.toList with
    | some name => String.ofList name
    | none => executable

/-- Whether a text can be given to a program. -/
def isArgument (text : String) : Bool := !text.toList.contains '\x00'

/-- The programs of a bare machine. -/
def bare : Programs := fun files directory executable arguments =>
  let name := programName executable
  if !arguments.all isArgument then none
  else if name = "true" then some (success ByteArray.empty)
  else if name = "false" then some (failure ByteArray.empty)
  else if name = "echo" then some (echo arguments)
  else if name = "cat" then some (cat files directory arguments)
  else none

end AddressExport.Programs
