import AddressExport.Compiler
import AddressExport.Dump.Basic
import AddressExport.Name.Error

/-!
# Why commands fail

A command fails on its own account, or because a name, a dump or the compiler does.
-/

namespace AddressExport

/-- Why a command fails. -/
inductive Failure where
  /-- The working directory cannot be told. -/
  | noWorkingDirectory
  /-- A file cannot be read as text. -/
  | unreadable (path : Path)
  /-- A directory cannot be made. -/
  | notCreated (path : Path)
  /-- A file of settings holds no settings. -/
  | invalidSettings (path : Path)
  /-- There is neither a header nor a dump. -/
  | noHeaders
  /-- Nothing says what the module is called. -/
  | missingModuleName
  /-- Some names cannot be exported, and that must not be. -/
  | unnameable (errors : List NameError)
  /-- The names cannot be assigned. -/
  | naming (e : NameError)
  /-- The dump cannot be read. -/
  | dump (e : DumpError)
  /-- The compiler failed. -/
  | compiler (e : CompilerError)
  /-- A generated file cannot be written. -/
  | notWritten (path : Path)
  deriving DecidableEq

namespace Failure

/-- The diagnostic of a failure of the file system. -/
def ofFiles (operation : String) (path : Path) : Diagnostic :=
  { code := "CLI-001"
    message := s!"I/O error while {operation} '{path.text}'"
    help := none }

/-- What the user is told. -/
def diagnostic : Failure → Diagnostic
  | noWorkingDirectory => ofFiles "getting current directory for" Path.here
  | unreadable path => ofFiles "reading" path
  | notCreated path => ofFiles "creating" path
  | invalidSettings path =>
    { code := "CLI-002"
      message := s!"Invalid configuration in '{path.text}'"
      help := some "See the `[module]`, `[clang]` and `[naming]` tables" }
  | noHeaders =>
    { code := "CLI-003"
      message := "No headers to scan"
      help := some ("Pass `.h`/`.hpp`/`.hxx` files, list them under `[module] headers` " ++
        "or use `--ast-dump`") }
  | missingModuleName =>
    { code := "CLI-004"
      message := "Cannot tell which module to generate"
      help := some "Pass `-m NAME` or set `[module] name`" }
  | unnameable errors =>
    { code := "CLI-005"
      message := s!"{errors.length} declaration(s) cannot be given an accessor name"
      help := some "Rename them or drop `--strict` to skip them" }
  | naming e => e.diagnostic
  | dump e => e.diagnostic
  | compiler e => e.diagnostic
  | notWritten path =>
    { code := "CODEGEN-003", message := s!"Failed to write {path.text}", help := none }

/-- The failures that are told along with one. -/
def related : Failure → List Diagnostic
  | unnameable errors => errors.map NameError.diagnostic
  | _ => []

/-- Everything that the user is told, the main thing first. -/
def diagnostics (f : Failure) : List Diagnostic := f.diagnostic :: f.related

end Failure

end AddressExport
