import AddressExport.Command.Generate
import AddressExport.Name.Table

/-!
# Commands

There are three commands: `gen` generates a module, `names` lists the names that functions get, and
`dump` shows the declarations that are left after cleanup.
-/

namespace AddressExport

/-- A command with what its command line says. -/
inductive Command where
  | generate (inputs : InputOptions) (options : GenerateOptions)
  | names (inputs : InputOptions)
  | dump (inputs : InputOptions)
  deriving DecidableEq, Repr

variable {m : Type → Type} [Monad m] [System m]

/-- Writes the table of names. -/
def showNames (i : Inputs) : Action Failure m Unit := do
  let bindings ← i.bindings i.settings.naming.strict
  System.print (nameTable bindings)

/-- Writes the listing of what is left after cleanup. -/
def showDeclarations (i : Inputs) : Action Failure m Unit := do
  let found ← i.discover
  match found.tree with
  | some t =>
    System.print (listing t)
    System.note [⟨.info, s!"{found.targets.length} exportable function(s)"⟩]
  | none => System.note [⟨.warn, "Nothing left after cleanup"⟩]

namespace Command

/-- Runs a command with the given settings. -/
def runWith (c : Command) (settings : Settings) : Action Failure m Unit :=
  match c with
  | generate inputs options => AddressExport.generate (inputs.resolve settings) options
  | names inputs => showNames (inputs.resolve settings)
  | dump inputs => showDeclarations (inputs.resolve settings)

/-- Runs a command with the settings that are found from the working directory. -/
def run (c : Command) : Action Failure m Unit := do
  let directory ← Action.require .noWorkingDirectory (← System.workingDirectory?)
  c.runWith (← Settings.load directory)

end Command

end AddressExport
