import AddressExport.Journal
import AddressExport.Path

/-!
# Systems

What a command needs of the system that it runs on is a monad with the operations of `System`.
There are two: `Machine`, a system that is a value, and the one that the program itself runs on.
-/

namespace AddressExport

/-- What a program ends with. -/
structure ProgramResult where
  /-- The exit status; 0 is success. -/
  status : Nat
  output : ByteArray

/-- A system that commands can run on. -/
class System (m : Type → Type) where
  /-- The working directory, if it can be told. -/
  workingDirectory? : m (Option Path)
  isDirectory : Path → m Bool
  isFile : Path → m Bool
  /-- The text of a file, if it can be read as text. -/
  readText? : Path → m (Option String)
  /-- The path from the root of something that exists. -/
  resolve? : Path → m (Option Path)
  /-- Makes a directory and those around it, and says whether it is there. -/
  createDirectory : Path → m Bool
  /-- Writes a text to a file, and says whether it could. -/
  writeText : Path → String → m Bool
  /-- Runs a program with arguments, if it can be started. -/
  runProgram? : String → List String → m (Option ProgramResult)
  /-- Adds entries to the journal. -/
  note : List Entry → m Unit
  /-- Writes a text for the user. -/
  print : String → m Unit

/-- A computation on a system that may fail. -/
abbrev Action (ε : Type) (m : Type → Type) (α : Type) := ExceptT ε m α

variable {m : Type → Type} [Monad m] [System m] {ε α : Type}

instance : System (ExceptT ε m) where
  workingDirectory? := ExceptT.lift System.workingDirectory?
  isDirectory p := ExceptT.lift (System.isDirectory p)
  isFile p := ExceptT.lift (System.isFile p)
  readText? p := ExceptT.lift (System.readText? p)
  resolve? p := ExceptT.lift (System.resolve? p)
  createDirectory p := ExceptT.lift (System.createDirectory p)
  writeText p text := ExceptT.lift (System.writeText p text)
  runProgram? executable arguments := ExceptT.lift (System.runProgram? executable arguments)
  note entries := ExceptT.lift (System.note entries)
  print text := ExceptT.lift (System.print text)

namespace Action

/-- Takes the journal of a computation over, and its result. -/
def ofNoted (n : Noted ε α) : Action ε m α := do
  System.note n.journal
  ExceptT.mk (pure n.result)

/-- Puts every failure into another type of failures. -/
def mapError {ε' : Type} (f : ε → ε') (a : Action ε m α) : Action ε' m α :=
  ExceptT.mk do return (← a.run).mapError f

/-- Fails unless something was done or found. -/
def require (failure : ε) : Option α → Action ε m α
  | some a => pure a
  | none => throw failure

end Action

end AddressExport
