import AddressExport.Command.Basic

/-!
# The command line

A command line has a command and options.  An option is a flag or has a value; it is spelled in full
behind two hyphens, and some also by one letter behind one.  A value follows in the next word,
behind `=`, or right behind the letter.  Several letters may share a hyphen, and `--` ends all
options.

How much is shown can be said in front of the command and behind it; what is said behind counts.
-/

namespace AddressExport.CommandLine

/-- Why a command line does not lead to a command. -/
inductive Stop where
  /-- Help is asked for. -/
  | help
  /-- The words make no sense. -/
  | misuse
  deriving DecidableEq, Repr

namespace Stop

/-- The exit status. -/
def status : Stop → Nat
  | help => 0
  | misuse => 2

end Stop

/-- How command lines are written. -/
def usage : String :=
  Text.unlines
    ["Export C++ function addresses through named accessors",
      "",
      "Usage: addrex [OPTIONS] gen [FILES]    generate the accessors and their Python module",
      "       addrex [OPTIONS] names [FILES]  list the accessor each declaration would get",
      "       addrex [OPTIONS] dump [FILES]   show the declaration tree left after cleanup",
      "",
      "  -m, --module <NAME>             name of the Python module (gen)",
      "  -o, --output <DIR>              directory for the generated files (gen)",
      "      --build                     compile the shared library (gen)",
      "      --strict                    fail on names that cannot be exported (gen)",
      "      --ast-dump <PATH>           read a saved dump instead of running the compiler",
      "      --clang-exe <EXE>           compiler to run",
      "      --clang-ast-dump-flags <FLAGS>",
      "      --clang-build-flags <FLAGS>",
      "      --clang-extra-flags <FLAGS>",
      "  -v, --verbose                   show more",
      "  -q, --quiet                     show less",
      "  -h, --help                      show this text"]

/-! ## Options -/

/-- An option without a value. -/
inductive Flag where
  | verbose
  | quiet
  | build
  | strict
  | help
  deriving DecidableEq, Repr

/-- An option with a value. -/
inductive Field where
  | moduleName
  | output
  | astDump
  | executable
  | dumpFlags
  | buildFlags
  | extraFlags
  deriving DecidableEq, Repr

/-- An option. -/
inductive Name where
  | flag (f : Flag)
  | field (f : Field)
  deriving DecidableEq, Repr

/-- The part of a command line that a word is in. -/
inductive Scope where
  /-- In front of the command. -/
  | front
  /-- Behind `gen`. -/
  | generate
  /-- Behind one of the other commands. -/
  | show
  deriving DecidableEq, Repr

/-- The options by their full names. -/
def longNames : List (String × Name) :=
  [("verbose", .flag .verbose), ("quiet", .flag .quiet), ("build", .flag .build),
    ("strict", .flag .strict), ("help", .flag .help), ("module", .field .moduleName),
    ("output", .field .output), ("ast-dump", .field .astDump), ("clang-exe", .field .executable),
    ("clang-ast-dump-flags", .field .dumpFlags), ("clang-build-flags", .field .buildFlags),
    ("clang-extra-flags", .field .extraFlags)]

/-- The options by their letters. -/
def letters : List (Char × Name) :=
  [('v', .flag .verbose), ('q', .flag .quiet), ('h', .flag .help), ('m', .field .moduleName),
    ('o', .field .output)]

namespace Name

/-- Whether the option is known in a part of a command line. -/
def isKnown (scope : Scope) : Name → Bool
  | flag .verbose | flag .quiet | flag .help => true
  | flag .build | flag .strict | field .moduleName | field .output => scope == .generate
  | field _ => scope != .front

end Name

/-- The option with a full name. -/
def long? (scope : Scope) (name : List Char) : Option Name :=
  (longNames.lookup (String.ofList name)).filter (Name.isKnown scope)

/-- The option with a letter. -/
def letter? (scope : Scope) (c : Char) : Option Name :=
  (letters.lookup c).filter (Name.isKnown scope)

namespace Field

/-- Whether the value may start with a hyphen, as it holds flags. -/
def takesHyphens : Field → Bool
  | dumpFlags | buildFlags | extraFlags => true
  | _ => false

/-- Whether the value is a path. -/
def isPath : Field → Bool
  | output | astDump => true
  | _ => false

/-- Whether the next word can be the value. -/
def accepts (f : Field) (word : String) : Bool :=
  f.takesHyphens || !Text.startsWith word "-" || word == "-"

end Field

/-! ## What is given -/

/-- What a part of a command line gives. -/
structure Given where
  verbose : Nat := 0
  quiet : Nat := 0
  build : Bool := false
  strict : Bool := false
  fields : List (Field × String) := []
  files : List String := []

namespace Given

/-- The greatest number that a flag is counted to. -/
def greatestCount : Nat := 255

/-- One more, unless the greatest number is reached. -/
def countOn (n : Nat) : Nat := min (n + 1) greatestCount

/-- Takes a flag in.  Only flags that are counted may be given twice. -/
def addFlag (g : Given) : Flag → Except Stop Given
  | .verbose => .ok { g with verbose := countOn g.verbose }
  | .quiet => .ok { g with quiet := countOn g.quiet }
  | .build => if g.build then .error .misuse else .ok { g with build := true }
  | .strict => if g.strict then .error .misuse else .ok { g with strict := true }
  | .help => .error .help

/-- Takes a value in.  No value may be given twice, and no path may be empty. -/
def addField (g : Given) (f : Field) (value : String) : Except Stop Given :=
  if (g.fields.lookup f).isSome ∨ (f.isPath ∧ value = "") then .error .misuse
  else .ok { g with fields := g.fields ++ [(f, value)] }

/-- Takes a file in.  A command is needed before there can be files. -/
def addFile (g : Given) (scope : Scope) (file : String) : Except Stop Given :=
  if scope = .front ∨ file = "" then .error .misuse else .ok { g with files := g.files ++ [file] }

/-- Takes files in. -/
def addFiles (g : Given) (scope : Scope) (files : List String) : Except Stop Given :=
  files.foldlM (fun g file => g.addFile scope file) g

/-- Refuses to show both more and less. -/
def check (g : Given) : Except Stop Given :=
  if 0 < g.verbose ∧ 0 < g.quiet then .error .misuse else .ok g

end Given

/-! ## Reading words -/

/-- Takes the letters behind a hyphen in.  The last one may need a value that follows. -/
def readLetters (scope : Scope) (g : Given) : List Char → Except Stop (Given × Option Field)
  | [] => .ok (g, none)
  | c :: rest =>
    match letter? scope c with
    | none => .error .misuse
    | some (.flag f) => do readLetters scope (← g.addFlag f) rest
    | some (.field f) =>
      match rest with
      | [] => .ok (g, some f)
      | '=' :: value => do return (← g.addField f (String.ofList value), none)
      | value => do return (← g.addField f (String.ofList value), none)

/-- Takes the text behind two hyphens in.  An option may need a value that follows. -/
def readLong (scope : Scope) (g : Given) (text : List Char) :
    Except Stop (Given × Option Field) :=
  match Text.splitFirst? (· == '=') text with
  | some (name, value) =>
    match long? scope name with
    | some (.field f) => do return (← g.addField f (String.ofList value), none)
    | _ => .error .misuse
  | none =>
    match long? scope text with
    | some (.flag f) => do return (← g.addFlag f, none)
    | some (.field f) => .ok (g, some f)
    | none => .error .misuse

/-- Takes a word in that starts with a hyphen, if it does. -/
def readOption? (scope : Scope) (g : Given) (word : String) :
    Option (Except Stop (Given × Option Field)) :=
  match word.toList with
  | '-' :: '-' :: text => some (readLong scope g text)
  | '-' :: c :: text => some (readLetters scope g (c :: text))
  | _ => none

/-- Takes the words behind a command in. -/
def readWords (scope : Scope) (g : Given) : List String → Except Stop Given
  | [] => .ok g
  | word :: rest =>
    if word = "--" then g.addFiles scope rest
    else
      match readOption? scope g word with
      | none => do readWords scope (← g.addFile scope word) rest
      | some result => do
        match ← result, rest with
        | (g, none), rest => readWords scope g rest
        | (g, some f), value :: rest =>
          if f.accepts value then readWords scope (← g.addField f value) rest
          else .error .misuse
        | (_, some _), [] => .error .misuse

/-! ## Commands -/

/-- What the values say about the inputs. -/
def Given.inputs (g : Given) : InputOptions :=
  { files := g.files.map Path.mk
    astDump := (g.fields.lookup .astDump).map Path.mk
    compiler :=
      { executable := g.fields.lookup .executable
        dumpFlags := g.fields.lookup .dumpFlags
        buildFlags := g.fields.lookup .buildFlags
        extraFlags := g.fields.lookup .extraFlags } }

/-- What the values say about the module. -/
def Given.options (g : Given) : GenerateOptions :=
  { moduleName := g.fields.lookup .moduleName
    output := ((g.fields.lookup .output).map Path.mk).getD Path.here
    build := g.build
    strict := g.strict }

/-- A name of a command: how the words behind it are read, and the command that they make. -/
def command? (word : String) : Option (Scope × (Given → Command)) :=
  if word = "gen" then some (.generate, fun g => .generate g.inputs g.options)
  else if word = "names" then some (.show, fun g => .names g.inputs)
  else if word = "dump" then some (.show, fun g => .dump g.inputs)
  else none

/-- Where the word `help` leads, with the words behind it. -/
def helpFor : List String → Stop
  | [] => .help
  | [topic] => if topic = "help" ∨ (command? topic).isSome then .help else .misuse
  | _ => .misuse

/-- A command, and how much to show: the rank of the last level that is shown. -/
structure Invocation where
  rank : Nat
  command : Command
  deriving DecidableEq, Repr

/-- The rank of the last level that is shown, which is that of warnings unless more or less is asked
for. -/
def shownRank (verbose quiet : Nat) : Nat :=
  min (Level.warn.rank + verbose - quiet) Level.trace.rank

/-- What counts of two numbers, the second of which was given later. -/
def laterCount (earlier later : Nat) : Nat := if later = 0 then earlier else later

/-- Reads the words in front of a command, and then the command. -/
def readFront (front : Given) : List String → Except Stop Invocation
  | [] => .error .misuse
  | word :: rest =>
    match readOption? .front front word with
    | some result => do readFront (← result).1 rest
    | none =>
      if word = "help" then .error (helpFor rest)
      else
        match command? word with
        | none => .error .misuse
        | some (scope, make) => do
          let given ← (← readWords scope {} rest).check
          let front ← front.check
          return ⟨shownRank (laterCount front.verbose given.verbose)
            (laterCount front.quiet given.quiet), make given⟩

/-- Reads a command line. -/
def read (words : List String) : Except Stop Invocation := readFront {} words

end AddressExport.CommandLine
