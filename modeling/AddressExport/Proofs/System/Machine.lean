import AddressExport.System.Machine

/-!
# Computations on machines

A computation on a machine ends with a result or a failure, and with the machine that it leaves
(`Action.perform`).  One that `OnlyLooks` leaves the files, the directory and the programs as they
were, and its result depends on nothing else.  This holds of every operation but the two that change
files, and it goes through sequences, so it is read off the text of a computation.
-/

namespace AddressExport

/-- The machine with nothing noted and nothing written yet. -/
def Machine.silent (w : Machine) : Machine :=
  { w with journal := [], output := "" }

theorem Machine.files_eq {w w' : Machine} (h : w'.silent = w.silent) : w'.files = w.files :=
  congrArg (fun v => v.files) h

theorem Machine.directory_eq {w w' : Machine} (h : w'.silent = w.silent) :
    w'.directory = w.directory :=
  congrArg (fun v => v.directory) h

namespace Action

variable {ε ε' α β : Type} {w w' : Machine}

/-- What a computation on a machine ends with, and the machine afterwards. -/
def perform (a : Action ε (StateM Machine) α) (w : Machine) : Except ε α × Machine :=
  (a.run.run w).run

/-- What a computation on a machine ends with. -/
def resultOn (a : Action ε (StateM Machine) α) (w : Machine) : Except ε α := (a.perform w).1

variable {a : Action ε (StateM Machine) α} {f : α → Action ε (StateM Machine) β}

@[simp] theorem perform_pure (x : α) (w : Machine) :
    (pure x : Action ε (StateM Machine) α).perform w = (.ok x, w) := rfl

theorem perform_bind (a : Action ε (StateM Machine) α) (f : α → Action ε (StateM Machine) β)
    (w : Machine) :
    (a >>= f).perform w =
      match a.perform w with
      | (.ok x, w') => (f x).perform w'
      | (.error e, w') => (.error e, w') := by
  show (ExceptT.bindCont f (a.perform w).1) (a.perform w).2 = _
  rcases a.perform w with ⟨e | x, w'⟩
  · rfl
  · rfl

/-- A sequence fails in its first part, or it ends as its second part does after the first one. -/
theorem perform_bind_cases {r : Except ε β} (h : (a >>= f).perform w = (r, w')) :
    (∃ e, r = .error e ∧ a.perform w = (.error e, w')) ∨
      ∃ x w₁, a.perform w = (.ok x, w₁) ∧ (f x).perform w₁ = (r, w') := by
  rw [perform_bind] at h
  rcases ha : a.perform w with ⟨e | x, w₁⟩
  · rw [ha] at h
    cases h
    exact .inl ⟨e, rfl, rfl⟩
  · rw [ha] at h
    exact .inr ⟨x, w₁, rfl, h⟩

theorem perform_bind_ok {y : β} (h : (a >>= f).perform w = (.ok y, w')) :
    ∃ x w₁, a.perform w = (.ok x, w₁) ∧ (f x).perform w₁ = (.ok y, w') := by
  rcases perform_bind_cases h with ⟨e, herror, -⟩ | hsecond
  · cases herror
  · exact hsecond

theorem exists_of_perform_mapError {g : ε → ε'} {e' : ε'}
    (h : (a.mapError g).perform w = (.error e', w')) :
    ∃ e, e' = g e ∧ a.perform w = (.error e, w') := by
  have h : ((a.perform w).1.mapError g, (a.perform w).2) = (.error e', w') := h
  rcases ha : a.perform w with ⟨e | x, w₁⟩
  · rw [ha] at h
    cases h
    exact ⟨e, rfl, rfl⟩
  · rw [ha] at h
    cases h

@[simp] theorem perform_note (entries : List Entry) (w : Machine) :
    (System.note entries : Action ε (StateM Machine) Unit).perform w =
      (.ok (), { w with journal := w.journal ++ entries }) := rfl

@[simp] theorem perform_print (text : String) (w : Machine) :
    (System.print text : Action ε (StateM Machine) Unit).perform w =
      (.ok (), { w with output := w.output ++ text }) := rfl

@[simp] theorem perform_workingDirectory? (w : Machine) :
    (System.workingDirectory? : Action ε (StateM Machine) (Option Path)).perform w =
      (.ok (some w.directoryPath), w) := rfl

@[simp] theorem perform_createDirectory (p : Path) (w : Machine) :
    (System.createDirectory p : Action ε (StateM Machine) Bool).perform w =
      (.ok (w.files.createDirectory w.directory p).2,
        { w with files := (w.files.createDirectory w.directory p).1 }) := rfl

@[simp] theorem perform_writeText (p : Path) (text : String) (w : Machine) :
    (System.writeText p text : Action ε (StateM Machine) Bool).perform w =
      (.ok (w.files.write w.directory p text.toUTF8).2,
        { w with files := (w.files.write w.directory p text.toUTF8).1 }) := rfl

/-! ## Looking only -/

/-- Whether a computation leaves all but the journal and the output as it was, and its result
depends on nothing else. -/
structure OnlyLooks (a : Action ε (StateM Machine) α) : Prop where
  silent : ∀ w, (a.perform w).2.silent = w.silent
  result : ∀ w, a.resultOn w = a.resultOn w.silent

namespace OnlyLooks

/-- On machines that differ in what has been noted and written, the result is the same. -/
theorem resultOn_congr (h : OnlyLooks a) (hw : w'.silent = w.silent) :
    a.resultOn w' = a.resultOn w := by
  rw [h.result w', hw, ← h.result w]

theorem silent_of_perform (h : OnlyLooks a) {r : Except ε α} (hr : a.perform w = (r, w')) :
    w'.silent = w.silent := by
  have := h.silent w
  rwa [hr] at this

theorem resultOn_of_perform (h : OnlyLooks a) {w₁ : Machine} (hw : w₁.silent = w.silent)
    {r : Except ε α} (hr : a.perform w₁ = (r, w')) : a.resultOn w = r := by
  rw [← h.resultOn_congr hw, resultOn, hr]

theorem pure (x : α) : OnlyLooks (pure x : Action ε (StateM Machine) α) :=
  ⟨fun _ => rfl, fun _ => rfl⟩

theorem throw (e : ε) : OnlyLooks (throw e : Action ε (StateM Machine) α) :=
  ⟨fun _ => rfl, fun _ => rfl⟩

/-- The result of a sequence is that of its second part on the same machine. -/
theorem resultOn_bind (h : OnlyLooks a) (hf : ∀ x, OnlyLooks (f x)) (w : Machine) :
    (a >>= f).resultOn w =
      match a.resultOn w with
      | .ok x => (f x).resultOn w
      | .error e => .error e := by
  unfold resultOn
  rw [perform_bind]
  rcases ha : a.perform w with ⟨e | x, w₁⟩
  · rfl
  · exact (hf x).resultOn_congr (h.silent_of_perform ha)

theorem exists_of_resultOn_bind (h : OnlyLooks a) (hf : ∀ x, OnlyLooks (f x)) {y : β}
    (hy : (a >>= f).resultOn w = .ok y) : ∃ x, a.resultOn w = .ok x ∧ (f x).resultOn w = .ok y := by
  rw [resultOn_bind h hf] at hy
  cases ha : a.resultOn w with
  | error e =>
    rw [ha] at hy
    cases hy
  | ok x =>
    rw [ha] at hy
    exact ⟨x, rfl, hy⟩

theorem bind (h : OnlyLooks a) (hf : ∀ x, OnlyLooks (f x)) : OnlyLooks (a >>= f) := by
  constructor
  · intro w
    rw [perform_bind]
    rcases ha : a.perform w with ⟨e | x, w₁⟩
    · exact h.silent_of_perform ha
    · exact ((hf x).silent w₁).trans (h.silent_of_perform ha)
  · intro w
    rw [resultOn_bind h hf w, resultOn_bind h hf w.silent, h.result w]
    cases a.resultOn w.silent with
    | error e => rfl
    | ok x => exact (hf x).result w

theorem mapError (h : OnlyLooks a) (g : ε → ε') : OnlyLooks (a.mapError g) := by
  constructor
  · intro w
    exact h.silent w
  · intro w
    show (a.resultOn w).mapError g = (a.resultOn w.silent).mapError g
    rw [h.result w]

theorem ofNoted (n : Noted ε α) : OnlyLooks (ofNoted n : Action ε (StateM Machine) α) :=
  ⟨fun _ => rfl, fun _ => rfl⟩

theorem require (e : ε) (x : Option α) : OnlyLooks (require e x : Action ε (StateM Machine) α) := by
  cases x with
  | none => exact throw e
  | some x => exact pure x

theorem mapM {f : α → Action ε (StateM Machine) β} (h : ∀ x, OnlyLooks (f x)) (xs : List α) :
    OnlyLooks (xs.mapM f) := by
  induction xs with
  | nil => exact pure []
  | cons x xs ih =>
    rw [List.mapM_cons]
    exact (h x).bind fun y => ih.bind fun ys => pure (y :: ys)

theorem resultOn_mapM {f : α → Action ε (StateM Machine) β} (h : ∀ x, OnlyLooks (f x)) {g : α → β}
    (hg : ∀ x, (f x).resultOn w = .ok (g x)) (xs : List α) :
    (xs.mapM f).resultOn w = .ok (xs.map g) := by
  induction xs with
  | nil => rfl
  | cons x xs ih =>
    have hrest (y : β) : OnlyLooks (xs.mapM f >>= fun ys => Pure.pure (y :: ys)) :=
      (mapM h xs).bind fun ys => pure (y :: ys)
    rw [List.mapM_cons, resultOn_bind (h x) hrest, hg x]
    show (xs.mapM f >>= fun ys => Pure.pure (g x :: ys)).resultOn w = _
    rw [resultOn_bind (mapM h xs) fun ys => pure (g x :: ys), ih]
    rfl

/-! ## The operations of a system -/

theorem note (entries : List Entry) :
    OnlyLooks (System.note entries : Action ε (StateM Machine) Unit) :=
  ⟨fun _ => rfl, fun _ => rfl⟩

theorem print (text : String) : OnlyLooks (System.print text : Action ε (StateM Machine) Unit) :=
  ⟨fun _ => rfl, fun _ => rfl⟩

theorem workingDirectory? :
    OnlyLooks (System.workingDirectory? : Action ε (StateM Machine) (Option Path)) :=
  ⟨fun _ => rfl, fun _ => rfl⟩

theorem isDirectory (p : Path) :
    OnlyLooks (System.isDirectory p : Action ε (StateM Machine) Bool) :=
  ⟨fun _ => rfl, fun _ => rfl⟩

theorem isFile (p : Path) : OnlyLooks (System.isFile p : Action ε (StateM Machine) Bool) :=
  ⟨fun _ => rfl, fun _ => rfl⟩

theorem readText? (p : Path) :
    OnlyLooks (System.readText? p : Action ε (StateM Machine) (Option String)) :=
  ⟨fun _ => rfl, fun _ => rfl⟩

theorem resolve? (p : Path) :
    OnlyLooks (System.resolve? p : Action ε (StateM Machine) (Option Path)) :=
  ⟨fun _ => rfl, fun _ => rfl⟩

theorem runProgram? (executable : String) (arguments : List String) :
    OnlyLooks (System.runProgram? executable arguments :
      Action ε (StateM Machine) (Option ProgramResult)) :=
  ⟨fun _ => rfl, fun _ => rfl⟩

end OnlyLooks

end Action

end AddressExport
