/-!
# Journal and diagnostics

A computation reports what it notices as entries of a journal, in order, next to its result.  The
type `Noted ε α` is such a computation: it may fail with `ε`, and what it noted before it failed is
kept.  Which entries are shown is decided at the very end, by the level that the command line asks
for.

Every failure is told to the user as a diagnostic: a sentence, a code that stays the same between
releases, and for some failures a hint at what to do.  Each type of failures has a function
`diagnostic` in its own namespace.
-/

namespace AddressExport

/-- What the user is told about a failure. -/
structure Diagnostic where
  code : String
  message : String
  help : Option String
  deriving DecidableEq, Repr

/-- How much an entry matters, from most to least. -/
inductive Level where
  | error
  | warn
  | info
  | debug
  | trace
  deriving DecidableEq, Repr

namespace Level

/-- The place of a level in the order, counted from 1; 0 is left for "show nothing". -/
def rank : Level → Nat
  | error => 1
  | warn => 2
  | info => 3
  | debug => 4
  | trace => 5

/-- The word that stands before an entry. -/
def word : Level → String
  | error => "ERROR"
  | warn => "WARN"
  | info => "INFO"
  | debug => "DEBUG"
  | trace => "TRACE"

end Level

/-- One entry of the journal. -/
structure Entry where
  level : Level
  text : String
  deriving DecidableEq, Repr

namespace Entry

/-- The entry as one text: the word of its level, a space, and what it says. -/
def line (e : Entry) : String := e.level.word ++ " " ++ e.text

/-- The entries whose level has at most the given rank. -/
def shown (rank : Nat) (journal : List Entry) : List Entry :=
  journal.filter (·.level.rank ≤ rank)

end Entry

/-- A computation that may fail and keeps a journal. -/
structure Noted (ε α : Type) where
  journal : List Entry
  result : Except ε α

namespace Noted

variable {ε α β : Type}

/-- A result with nothing to note. -/
def done (a : α) : Noted ε α := ⟨[], .ok a⟩

/-- Runs `f` on the result of `m`, if there is one, and appends what it notes. -/
def andThen (m : Noted ε α) (f : α → Noted ε β) : Noted ε β :=
  match m.result with
  | .error e => ⟨m.journal, .error e⟩
  | .ok a => ⟨m.journal ++ (f a).journal, (f a).result⟩

instance : Monad (Noted ε) where
  pure := done
  bind := andThen

/-- Notes some entries. -/
def note (entries : List Entry) : Noted ε Unit := ⟨entries, .ok ()⟩

/-- A result that is known without noting anything. -/
def lift (r : Except ε α) : Noted ε α := ⟨[], r⟩

/-- Puts every failure into another type of failures. -/
def mapError {ε' : Type} (f : ε → ε') (m : Noted ε α) : Noted ε' α :=
  ⟨m.journal, m.result.mapError f⟩

end Noted

end AddressExport
