import AddressExport.Journal
import AddressExport.System.Basic
import AddressExport.Text.Blank
import AddressExport.Text.Utf8

/-!
# The compiler

The compiler is run for two things: to list the declarations of headers, and to build the shared
library.  Its flags are given as one text for each, and are parted at blanks with no quoting.
-/

namespace AddressExport

/-- How the compiler is run. -/
structure Compiler where
  executable : String := "clang++"
  /-- The flags that make it list declarations. -/
  dumpFlags : String := "-Xclang -ast-dump -fsyntax-only -fno-diagnostics-color"
  /-- The flags that make it build a shared library. -/
  buildFlags : String := "-shared -fPIC"
  /-- Further flags for both. -/
  extraFlags : String := ""
  deriving DecidableEq, Repr

/-- What can go wrong when the compiler is run. -/
inductive CompilerError where
  /-- The compiler could not be started. -/
  | notStarted (executable : String)
  /-- The compiler ended with a status other than 0. -/
  | failed (command : String) (status : Nat)
  deriving DecidableEq, Repr

namespace CompilerError

/-- What the user is told. -/
def diagnostic : CompilerError → Diagnostic
  | notStarted executable =>
    { code := "CLANG-004"
      message := s!"Failed to run `{executable}`"
      help := some "Install clang or point `--clang-exe` at it" }
  | failed command status =>
    { code := "CLANG-005"
      message := s!"`{command}` exited with exit status: {status}"
      help := none }

end CompilerError

namespace Compiler

/-- The arguments for listing the declarations of headers. -/
def dumpArguments (c : Compiler) (headers : List Path) : List String :=
  Text.words c.dumpFlags ++ Text.words c.extraFlags ++ headers.map Path.text

/-- The arguments for building a library from sources. -/
def buildArguments (c : Compiler) (sources : List Path) (library : Path) : List String :=
  Text.words c.buildFlags ++ Text.words c.extraFlags ++ sources.map Path.text ++
    ["-o", library.text]

/-- The command with its arguments, as it is shown. -/
def command (c : Compiler) (arguments : List String) : String :=
  c.executable ++ " " ++ " ".intercalate arguments

variable {m : Type → Type} [Monad m] [System m]

/-- Runs the compiler and gives what it writes. -/
def run (c : Compiler) (arguments : List String) : Action CompilerError m ByteArray := do
  System.note [⟨.debug, "Running " ++ c.command arguments⟩]
  match ← System.runProgram? c.executable arguments with
  | none => throw (.notStarted c.executable)
  | some result =>
    if result.status = 0 then return result.output
    else throw (.failed (c.command arguments) result.status)

/-- Lists the declarations of headers. -/
def dump (c : Compiler) (headers : List Path) : Action CompilerError m String := do
  return Text.decodeOutput (← c.run (c.dumpArguments headers))

/-- Builds a library from sources. -/
def build (c : Compiler) (sources : List Path) (library : Path) : Action CompilerError m Unit := do
  let _ ← c.run (c.buildArguments sources library)

end Compiler

end AddressExport
