import AddressExport.Command.Inputs
import AddressExport.Proofs.System.Machine

/-!
# Taking inputs in

Finding the settings, getting the dump and naming the functions only look at the system.  So the
bindings of some inputs come from one dump, which is read, filtered and named step after step
(`Inputs.exists_of_resultOn_bindings`).
-/

namespace AddressExport

open AddressExport.Action

/-! ## Settings -/

namespace Settings

theorem onlyLooks_firstFile? (paths : List Path) :
    OnlyLooks (firstFile? paths : Action Failure (StateM Machine) (Option Path)) := by
  induction paths with
  | nil => exact .pure none
  | cons path others ih =>
    refine (OnlyLooks.isFile path).bind fun isThere => ?_
    cases isThere with
    | true => exact .pure (some path)
    | false => exact ih

theorem onlyLooks_find? (start : Path) :
    OnlyLooks (find? start : Action Failure (StateM Machine) (Option Path)) := by
  have hstart : OnlyLooks (startDirectory start : Action Failure (StateM Machine) Path) := by
    refine (OnlyLooks.isDirectory start).bind fun isThere => ?_
    cases isThere with
    | true => exact .pure start
    | false => exact .pure (start.parent?.getD start)
  exact hstart.bind fun directory => onlyLooks_firstFile? _

theorem onlyLooks_ofFile (path : Path) :
    OnlyLooks (ofFile path : Action Failure (StateM Machine) Settings) :=
  (OnlyLooks.readText? path).bind fun text =>
    (OnlyLooks.require _ text).bind fun document =>
      (OnlyLooks.require _ (ofText? document)).bind fun _ =>
        (OnlyLooks.note _).bind fun _ => .pure _

/-- Finding the settings only looks. -/
theorem onlyLooks_load (start : Path) :
    OnlyLooks (load start : Action Failure (StateM Machine) Settings) := by
  refine (onlyLooks_find? start).bind fun found => ?_
  cases found with
  | some path => exact onlyLooks_ofFile path
  | none => exact (OnlyLooks.note _).bind fun _ => .pure _

end Settings

/-! ## The dump -/

theorem Compiler.onlyLooks_dump (c : Compiler) (headers : List Path) :
    OnlyLooks (c.dump headers : Action CompilerError (StateM Machine) String) := by
  have hrun :
      OnlyLooks (c.run (c.dumpArguments headers) :
        Action CompilerError (StateM Machine) ByteArray) := by
    refine (OnlyLooks.note _).bind fun _ => (OnlyLooks.runProgram? _ _).bind fun result => ?_
    cases result with
    | none => exact .throw _
    | some result =>
      show OnlyLooks (if result.status = 0 then _ else _)
      split
      · exact .pure _
      · exact .throw _
  exact hrun.bind fun output => .pure (Text.decodeOutput output)

namespace Inputs

/-- Getting the dump only looks. -/
theorem onlyLooks_dumpText (i : Inputs) :
    OnlyLooks (i.dumpText : Action Failure (StateM Machine) String) := by
  have hrun : OnlyLooks (do
      System.note [⟨.info, s!"Dumping declarations of {i.headers.length} header(s)"⟩]
      Action.mapError Failure.compiler (i.settings.toCompiler.dump i.headers) :
        Action Failure (StateM Machine) String) :=
    (OnlyLooks.note _).bind fun _ => (Compiler.onlyLooks_dump _ _).mapError _
  unfold dumpText
  cases i.astDump with
  | some path =>
    exact (OnlyLooks.note _).bind fun _ => (OnlyLooks.readText? path).bind fun text =>
      .require _ text
  | none =>
    by_cases hnone : i.headers = []
    · simp only [if_pos hnone]
      exact (OnlyLooks.throw Failure.noHeaders).bind fun _ => hrun
    · simp only [if_neg hnone]
      exact hrun

theorem onlyLooks_discover (i : Inputs) :
    OnlyLooks (i.discover : Action Failure (StateM Machine) Discovery) :=
  (onlyLooks_dumpText i).bind fun _ => .ofNoted _

/-- Naming the functions only looks. -/
theorem onlyLooks_bindings (i : Inputs) (strict : Bool) :
    OnlyLooks (i.bindings strict : Action Failure (StateM Machine) (List Binding)) :=
  (onlyLooks_discover i).bind fun _ => .ofNoted _

end Inputs

/-! ## Names -/

theorem eq_ok_of_mapError {ε ε' α : Type} {f : ε → ε'} {x : Except ε α} {a : α}
    (h : x.mapError f = .ok a) : x = .ok a := by
  cases x with
  | error e => cases h
  | ok b =>
    cases h
    rfl

theorem result_nameTargets (strict : Bool) (targets : List Target) :
    (nameTargets strict targets).result =
      match keepNameable strict targets with
      | .error errors => .error (.unnameable errors)
      | .ok kept => (assign kept).mapError .naming := by
  unfold nameTargets
  cases keepNameable strict targets with
  | error errors => rfl
  | ok kept => rfl

theorem result_nameTargets_eq_ok_iff {strict : Bool} {targets : List Target}
    {bindings : List Binding} :
    (nameTargets strict targets).result = .ok bindings ↔
      ∃ kept, keepNameable strict targets = .ok kept ∧ assign kept = .ok bindings := by
  rw [result_nameTargets]
  cases keepNameable strict targets with
  | error errors => simp
  | ok kept =>
    constructor
    · intro h
      exact ⟨kept, rfl, eq_ok_of_mapError h⟩
    · rintro ⟨_, ⟨⟩, h⟩
      show (assign kept).mapError Failure.naming = .ok bindings
      rw [h]
      rfl

/-- Bindings come from a dump whose functions can be named. -/
theorem Inputs.exists_of_resultOn_bindings {i : Inputs} {strict : Bool} {w : Machine}
    {bindings : List Binding} (h : (i.bindings strict).resultOn w = .ok bindings) :
    ∃ dump found kept, i.dumpText.resultOn w = .ok dump ∧
      AddressExport.discover i.settings.systemPrefixes dump = .ok found ∧
      keepNameable strict found.targets = .ok kept ∧ assign kept = .ok bindings := by
  obtain ⟨found, hfound, hnamed⟩ :=
    (onlyLooks_discover i).exists_of_resultOn_bind (fun _ => .ofNoted _) h
  obtain ⟨dump, hdump, hread⟩ :=
    (onlyLooks_dumpText i).exists_of_resultOn_bind (fun _ => .ofNoted _) hfound
  obtain ⟨kept, hkeep, hassign⟩ := result_nameTargets_eq_ok_iff.1 hnamed
  exact ⟨dump, found, kept, hdump, eq_ok_of_mapError hread, hkeep, hassign⟩

end AddressExport
