import AddressExport.Command.Failure
import AddressExport.Settings.Read

/-!
# Finding settings

The settings of a project lie in a file `addrex.toml` in the directory that a command starts in or
in the nearest one around it that has such a file.  Without one, everything has its default.
-/

namespace AddressExport.Settings

/-- The name of a file of settings. -/
def fileName : Path := ⟨"addrex.toml"⟩

variable {m : Type → Type} [Monad m] [System m]

/-- The first of some paths that leads to a file. -/
def firstFile? : List Path → m (Option Path)
  | [] => return none
  | path :: others => do if ← System.isFile path then return some path else firstFile? others

/-- The directory in which the search begins. -/
def startDirectory (start : Path) : m Path := do
  if ← System.isDirectory start then return start else return start.parent?.getD start

/-- The file of settings that is found from a directory, or from a file in it. -/
def find? (start : Path) : m (Option Path) := do
  firstFile? ((← startDirectory start).ancestors.map fun directory => directory.join fileName)

/-- The settings in a file.  The files that it lists are relative to its directory. -/
def ofFile (path : Path) : Action Failure m Settings := do
  let document ← Action.require (.unreadable path) (← System.readText? path)
  let settings ← Action.require (.invalidSettings path) (ofText? document)
  System.note [⟨.debug, s!"Loaded configuration from {path.text}"⟩]
  return match path.parent? with
  | some directory => settings.rebase directory
  | none => settings

/-- The settings that are found from a directory. -/
def load (start : Path) : Action Failure m Settings := do
  match ← find? start with
  | some path => ofFile path
  | none =>
    System.note [⟨.debug, s!"No {fileName.text} found above {start.text}"⟩]
    return {}

end AddressExport.Settings
