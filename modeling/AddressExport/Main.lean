import AddressExport.Command.Line

/-!
# The program

`addrex` reads its command line and runs the command on the system that it runs on.  It starts no
other program, so it needs a saved dump, and it leaves the library to be built by hand.
-/

namespace AddressExport

/-- The system that the program runs on.  Entries up to the given rank are shown. -/
abbrev Host := ReaderT Nat IO

namespace Host

/-- The result of something that may fail. -/
def attempt? {α : Type} (a : IO α) : Host (Option α) := fun _ => do
  try return some (← a) catch _ => return none

/-- Whether something that may fail does not. -/
def succeeds (a : IO Unit) : Host Bool := do return (← attempt? a).isSome

/-- Shows what the user is told about a failure. -/
def showDiagnostic (d : Diagnostic) : IO Unit := do
  IO.eprintln s!"Error: {d.code}\n\n  {d.message}"
  match d.help with
  | some help => IO.eprintln s!"  help: {help}"
  | none => return

end Host

instance : System Host where
  workingDirectory? := Host.attempt? do return ⟨(← IO.currentDir).toString⟩
  isDirectory p := do
    return (← Host.attempt? do (← IO.FS.realPath p.text).isDir).getD false
  isFile p := do
    let kind ← Host.attempt? do return (← (← IO.FS.realPath p.text).metadata).type
    return kind == some .file
  readText? p := Host.attempt? (IO.FS.readFile p.text)
  resolve? p := Host.attempt? do return ⟨(← IO.FS.realPath p.text).toString⟩
  createDirectory p := Host.succeeds (IO.FS.createDirAll p.text)
  writeText p text := Host.succeeds (IO.FS.writeFile p.text text)
  runProgram? _ _ := return none
  note entries := fun rank => (Entry.shown rank entries).forM fun e => IO.eprintln e.line
  print text := fun _ => IO.print text

end AddressExport

open AddressExport in
/-- Runs the program.  The exit status is 0, 1 for a failure, or 2 for a command line that makes no
sense. -/
def main (words : List String) : IO UInt32 := do
  match CommandLine.read words with
  | .error stop =>
    if stop = .help then IO.print CommandLine.usage else IO.eprint CommandLine.usage
    return stop.status.toUInt32
  | .ok invocation =>
    match ← (invocation.command.run : Action Failure Host Unit).run invocation.rank with
    | .ok _ => return 0
    | .error f =>
      f.diagnostics.forM Host.showDiagnostic
      return 1
