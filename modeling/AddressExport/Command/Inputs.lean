import AddressExport.Declaration.Exported
import AddressExport.Settings.Find

/-!
# Inputs

Where a command takes its declarations from: the settings, and over them what the command line says.
Files on the command line take the place of all files that the settings list.
-/

namespace AddressExport

/-- What a command line says about the inputs. -/
structure InputOptions where
  /-- Headers to scan, and sources for the library. -/
  files : List Path := []
  /-- A dump that has been saved. -/
  astDump : Option Path := none
  compiler : CompilerSettings := {}
  deriving DecidableEq, Repr

/-- The inputs of a command. -/
structure Inputs where
  settings : Settings
  headers : List Path
  sources : List Path
  astDump : Option Path
  deriving DecidableEq, Repr

/-- The extensions of headers. -/
def headerExtensions : List String := ["h", "hpp", "hxx"]

/-- Whether a file is a header, by its extension. -/
def isHeader (p : Path) : Bool := p.extension?.any headerExtensions.contains

namespace CompilerSettings

/-- The settings `given`, and for what they leave open those of `base`. -/
def overlay (base given : CompilerSettings) : CompilerSettings :=
  { executable := given.executable.or base.executable
    dumpFlags := given.dumpFlags.or base.dumpFlags
    buildFlags := given.buildFlags.or base.buildFlags
    extraFlags := given.extraFlags.or base.extraFlags }

end CompilerSettings

namespace InputOptions

/-- The inputs that settings and options make together. -/
def resolve (o : InputOptions) (settings : Settings) : Inputs :=
  { settings := { settings with compiler := settings.compiler.overlay o.compiler }
    headers := if o.files = [] then settings.module.headers else o.files.filter isHeader
    sources := if o.files = [] then settings.module.sources
      else o.files.filter fun f => !isHeader f
    astDump := o.astDump }

end InputOptions

/-! ## Names for targets -/

/-- The bindings of the targets that can be exported.  A strict run fails if some cannot. -/
def nameTargets (strict : Bool) (targets : List Target) : Noted Failure (List Binding) := do
  Noted.note (keepNameableNotes targets)
  let kept ← Noted.lift ((keepNameable strict targets).mapError Failure.unnameable)
  Noted.note (assignNotes kept)
  Noted.lift ((assign kept).mapError Failure.naming)

namespace Inputs

variable {m : Type → Type} [Monad m] [System m]

/-- The text of the dump: the one that has been saved, or the one that the compiler makes. -/
def dumpText (i : Inputs) : Action Failure m String := do
  match i.astDump with
  | some path =>
    System.note [⟨.info, s!"Reading AST dump from {path.text}"⟩]
    Action.require (.unreadable path) (← System.readText? path)
  | none =>
    if i.headers = [] then throw .noHeaders
    System.note [⟨.info, s!"Dumping declarations of {i.headers.length} header(s)"⟩]
    Action.mapError Failure.compiler (i.settings.toCompiler.dump i.headers)

/-- The declarations and functions of the inputs. -/
def discover (i : Inputs) : Action Failure m Discovery := do
  let dump ← i.dumpText
  let systemPrefixes := i.settings.systemPrefixes
  Action.ofNoted
    ⟨discoverNotes systemPrefixes dump,
      (AddressExport.discover systemPrefixes dump).mapError Failure.dump⟩

/-- The bindings of the functions of the inputs. -/
def bindings (i : Inputs) (strict : Bool) : Action Failure m (List Binding) := do
  let found ← i.discover
  Action.ofNoted (nameTargets strict found.targets)

end Inputs

end AddressExport
