import AddressExport.System.Basic
import AddressExport.System.Files

/-!
# Machines

A machine is a system that is a value: its files, its working directory, the programs that it can
start, and what has been noted and written so far.  Programs read files and do not change them.
-/

namespace AddressExport

/-- The programs of a machine.  A program may depend on the files, on the working directory and on
its arguments; one that cannot be started gives no result. -/
abbrev Programs := FileSystem → List String → String → List String → Option ProgramResult

/-- A system that is a value. -/
structure Machine where
  files : FileSystem
  directory : List String
  programs : Programs
  journal : List Entry
  output : String

namespace Machine

/-- The path of the working directory. -/
def directoryPath (w : Machine) : Path := ⟨"/" ++ "/".intercalate w.directory⟩

/-- The machine in the directory that a path leads to.  A working directory is known by the names
that lead to it from the root, whichever way the path took. -/
def enter? (w : Machine) (p : Path) : Option Machine :=
  match w.files.destination w.directory p with
  | .found names .directory => some { w with directory := names }
  | _ => none

/-- The machine after a change of its files, and whether the change was made. -/
def change (f : FileSystem → List String → FileSystem × Bool) : StateM Machine Bool := fun w =>
  ((f w.files w.directory).2, { w with files := (f w.files w.directory).1 })

end Machine

instance : System (StateM Machine) where
  workingDirectory? := do return some (← get).directoryPath
  isDirectory p := do return (← get).files.isDirectory (← get).directory p
  isFile p := do return (← get).files.isFile (← get).directory p
  readText? p := do return ((← get).files.read? (← get).directory p).bind Text.decode?
  resolve? p := do return (← get).files.resolve? (← get).directory p
  createDirectory p := Machine.change fun files directory => files.createDirectory directory p
  writeText p text := Machine.change fun files directory => files.write directory p text.toUTF8
  runProgram? executable arguments := do
    return (← get).programs (← get).files (← get).directory executable arguments
  note entries := modify fun w => { w with journal := w.journal ++ entries }
  print text := modify fun w => { w with output := w.output ++ text }

end AddressExport
