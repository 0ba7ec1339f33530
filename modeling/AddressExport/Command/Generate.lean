import AddressExport.Command.Inputs
import AddressExport.Module.Accessors
import AddressExport.Module.Wrapper

/-!
# Generating modules

The command names all functions before it touches a file.  Only then it makes the output directory
and writes the accessors and the Python module into it, and it builds the library if it is asked to.
-/

namespace AddressExport

/-- What a command line says about the module to generate. -/
structure GenerateOptions where
  /-- The name of the module. -/
  moduleName : Option String := none
  /-- The directory for the generated files. -/
  output : Path := Path.here
  /-- Whether to build the library. -/
  build : Bool := false
  /-- Whether names that cannot be exported are a failure. -/
  strict : Bool := false
  deriving DecidableEq, Repr

namespace GenerateOptions

/-- The name of the module: the one that is asked for, the one in the settings, or that of the first
header or else of the dump, with `lib` in front. -/
def nameFor? (o : GenerateOptions) (i : Inputs) : Option String :=
  (o.moduleName.or i.settings.module.name).or <|
    ((i.headers.head?.or i.astDump).bind Path.stem?).map fun stem => "lib" ++ stem

/-- The last line for the user: how to import the module. -/
def hint (o : GenerateOptions) (name : String) : String :=
  let directory := o.output.text
  let search :=
    if o.output.same Path.here then "LD_LIBRARY_PATH=."
    else "LD_LIBRARY_PATH=" ++ directory ++ " PYTHONPATH=" ++ directory
  "DONE. Try: " ++ search ++ " python -c \"import " ++ name ++ " as m; print(m.__all__)\""

/-- The path of the accessors. -/
def accessorsPath (o : GenerateOptions) (spec : ModuleSpec) : Path :=
  o.output.join ⟨spec.accessorsFile⟩

/-- The path of the Python module. -/
def wrapperPath (o : GenerateOptions) (spec : ModuleSpec) : Path :=
  o.output.join ⟨spec.wrapperFile⟩

/-- The path of the library. -/
def libraryPath (o : GenerateOptions) (spec : ModuleSpec) : Path :=
  o.output.join ⟨spec.libraryFile⟩

end GenerateOptions

/-- What there is to note about a module: what its two files note, and the functions that only one
of them has. -/
def generateNotes (bindings : List Binding) : List Entry :=
  ModuleSpec.accessorNotes bindings ++ ModuleSpec.wrapperNotes bindings ++
    (ModuleSpec.unwrapped bindings).map fun symbol =>
      ⟨.warn, s!"`{symbol}` has an accessor but no Python wrapper"⟩

variable {m : Type → Type} [Monad m] [System m]

/-- How a source in the output directory includes a header: as it was given, if it can be found from
there, and else by its path from the root. -/
def includeSpelling (output header : Path) : Action Failure m String := do
  if header.isAbsolute || output.same Path.here then return header.text
  else return ((← System.resolve? header).getD header).text

/-- Writes a generated file. -/
def writeGenerated (path : Path) (source : String) : Action Failure m Unit := do
  System.note [⟨.info, s!"Creating {path.text}"⟩]
  if !(← System.writeText path source) then throw (.notWritten path)

/-- Writes both files of a module. -/
def writeModule (o : GenerateOptions) (spec : ModuleSpec) (bindings : List Binding) :
    Action Failure m Unit := do
  if !(← System.createDirectory o.output) then throw (.notCreated o.output)
  writeGenerated (o.accessorsPath spec) (spec.accessors bindings)
  writeGenerated (o.wrapperPath spec) (spec.wrapper bindings)

/-- Builds the library from the sources and the accessors. -/
def buildModule (i : Inputs) (o : GenerateOptions) (spec : ModuleSpec) : Action Failure m Unit := do
  let library := o.libraryPath spec
  System.note [⟨.info, s!"Building {library.text}"⟩]
  Action.mapError Failure.compiler
    (i.settings.toCompiler.build (i.sources ++ [o.accessorsPath spec]) library)
  System.print s!"  {library.text}\n"

/-- The bindings of the functions of the inputs, and the module to generate for them. -/
def planModule (i : Inputs) (o : GenerateOptions) :
    Action Failure m (ModuleSpec × List Binding) := do
  let name ← Action.require .missingModuleName (o.nameFor? i)
  let bindings ← i.bindings (o.strict || i.settings.naming.strict)
  let headers ← i.headers.mapM (includeSpelling o.output)
  System.note (generateNotes bindings)
  return (⟨name, headers⟩, bindings)

/-- Generates a module. -/
def generate (i : Inputs) (o : GenerateOptions) : Action Failure m Unit := do
  let (spec, bindings) ← planModule i o
  writeModule o spec bindings
  System.print
    (s!"Generated {bindings.length} accessor(s) for module `{spec.name}`\n" ++
      s!"  {(o.accessorsPath spec).text}\n  {(o.wrapperPath spec).text}\n")
  if o.build then buildModule i o spec
  System.print s!"{o.hint spec.name}\n"

end AddressExport
