import AddressExport.Compiler
import AddressExport.Declaration.Cleanup
import AddressExport.Path

/-!
# Settings

What a project says once and for all about its module, its compiler and its names.  Everything has a
default.
-/

namespace AddressExport

/-- The module of a project. -/
structure ModuleSettings where
  /-- The name of the Python module. -/
  name : Option String := none
  /-- The headers that declare the functions. -/
  headers : List Path := []
  /-- The sources that go into the library. -/
  sources : List Path := []
  deriving DecidableEq, Repr

/-- What a project changes about the way the compiler is run. -/
structure CompilerSettings where
  executable : Option String := none
  dumpFlags : Option String := none
  buildFlags : Option String := none
  extraFlags : Option String := none
  deriving DecidableEq, Repr

/-- How a project treats names. -/
structure NamingSettings where
  /-- Whether a name that cannot be exported is a failure. -/
  strict : Bool := false
  /-- The beginnings of the paths of system headers. -/
  systemPrefixes : Option (List String) := none
  deriving DecidableEq, Repr

/-- The settings of a project. -/
structure Settings where
  module : ModuleSettings := {}
  compiler : CompilerSettings := {}
  naming : NamingSettings := {}
  deriving DecidableEq, Repr

namespace Settings

/-- How the compiler is run. -/
def toCompiler (s : Settings) : Compiler :=
  let standard : Compiler := {}
  { executable := s.compiler.executable.getD standard.executable
    dumpFlags := s.compiler.dumpFlags.getD standard.dumpFlags
    buildFlags := s.compiler.buildFlags.getD standard.buildFlags
    extraFlags := s.compiler.extraFlags.getD standard.extraFlags }

/-- The beginnings of the paths of system headers. -/
def systemPrefixes (s : Settings) : List String :=
  s.naming.systemPrefixes.getD defaultSystemPrefixes

/-- The settings with the listed files taken relative to a directory. -/
def rebase (s : Settings) (directory : Path) : Settings :=
  { s with
    module := { s.module with
      headers := s.module.headers.map directory.join
      sources := s.module.sources.map directory.join } }

end Settings

end AddressExport
