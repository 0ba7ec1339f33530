import AddressExport.Proofs.Command.Inputs
import AddressExport.Proofs.Name.Assignment

/-!
# Strict runs

Targets whose names cannot be exported are left out, or a strict run fails with the failure of each
of them (`keepNameable_outcome`).  Either way the names that go on can all be exported, so what an
assignment can still fail for is a repetition or a collision.  A strict run that succeeds leaves
nothing out, so it gives what the same run gives when it is not strict.
-/

namespace AddressExport

variable {targets kept : List Target}

/-! ## The failure of a name -/

/-- Whether a failure is that of the target's name: its first segment that is not name-safe is
refused. -/
def Target.IsRefusedWith (t : Target) (e : NameError) : Prop :=
  ∃ segment, t.name.segments.find? (fun s => !isNameSafe s) = some segment ∧
    e = .invalidSegment segment t.name.path

theorem Target.isNone_nameError? (t : Target) : t.nameError?.isNone = t.name.mangle.isOk := by
  unfold nameError?
  cases t.name.mangle <;> rfl

/-- There is one failure for each target that cannot be named. -/
theorem forall₂_isRefusedWith (targets : List Target) :
    List.Forall₂ Target.IsRefusedWith (targets.filter fun t => !t.name.mangle.isOk)
      (targets.filterMap Target.nameError?) := by
  induction targets with
  | nil => exact .nil
  | cons t ts ih =>
    cases hmangle : t.name.mangle with
    | ok symbol =>
      have hnone : t.nameError? = none := by rw [Target.nameError?, hmangle]
      rwa [List.filter_cons_of_neg (by simp [hmangle, Except.toBool]),
        List.filterMap_cons_none hnone]
    | error e =>
      have hsome : t.nameError? = some e := by rw [Target.nameError?, hmangle]
      rw [List.filter_cons_of_pos (by simp [hmangle, Except.toBool]),
        List.filterMap_cons_some hsome]
      exact .cons (mangle_eq_error_iff.1 hmangle) ih

/-! ## Leaving out what cannot be named -/

theorem keepNameable_false (targets : List Target) :
    keepNameable false targets = .ok (targets.filter fun t => t.name.mangle.isOk) := by
  simp only [keepNameable, Target.isNone_nameError?, Bool.false_and, Bool.false_eq_true, if_false]

theorem filterMap_nameError?_eq_nil_iff :
    targets.filterMap Target.nameError? = [] ↔ ∀ t ∈ targets, t.IsNameable := by
  simp only [List.filterMap_eq_nil_iff, ← isNone_nameError?_iff, Option.isNone_iff_eq_none]

theorem keepNameable_of_nameable (strict : Bool) (h : ∀ t ∈ targets, t.IsNameable) :
    keepNameable strict targets = .ok targets := by
  have hall : (targets.filter fun t => t.nameError?.isNone) = targets :=
    List.filter_eq_self.2 fun t ht => isNone_nameError?_iff.2 (h t ht)
  simp [keepNameable, filterMap_nameError?_eq_nil_iff.2 h, hall]

theorem keepNameable_true_of_not_nameable (h : ¬ ∀ t ∈ targets, t.IsNameable) :
    keepNameable true targets = .error (targets.filterMap Target.nameError?) := by
  have hsome : targets.filterMap Target.nameError? ≠ [] := mt filterMap_nameError?_eq_nil_iff.1 h
  simp [keepNameable, hsome]

theorem isNameable_of_mem_keepNameable {strict : Bool} (h : keepNameable strict targets = .ok kept)
    {t : Target} (ht : t ∈ kept) : t.IsNameable := by
  rw [eq_filter_of_keepNameable h, List.mem_filter] at ht
  exact isNone_nameError?_iff.1 ht.2

/-- A strict run that goes on has left nothing out. -/
theorem keepNameable_false_of_true (h : keepNameable true targets = .ok kept) :
    keepNameable false targets = .ok kept := by
  by_cases hall : ∀ t ∈ targets, t.IsNameable
  · rw [keepNameable_of_nameable true hall] at h
    rw [keepNameable_of_nameable false hall, h]
  · rw [keepNameable_true_of_not_nameable hall] at h
    cases h

/-- What is kept can be named, so only repetitions and collisions are left to fail for. -/
theorem assign_error_of_keepNameable {strict : Bool} (h : keepNameable strict targets = .ok kept)
    {e : NameError} (he : assign kept = .error e) :
    (∃ name signature, e = .duplicateTarget name signature) ∨
      ∃ accessor first second, e = .collision accessor first second := by
  rcases assign_eq_error_cases he with ⟨-, hrepeat⟩ | ⟨hn, -⟩ | ⟨-, hcollision⟩
  · exact .inl hrepeat
  · exact absurd (fun t ht => isNameable_of_mem_keepNameable h ht) hn
  · exact .inr hcollision

/-! ## Runs -/

theorem result_nameTargets_false_of_true {bindings : List Binding}
    (h : (nameTargets true targets).result = .ok bindings) :
    (nameTargets false targets).result = .ok bindings := by
  obtain ⟨kept, hkeep, hassign⟩ := result_nameTargets_eq_ok_iff.1 h
  exact result_nameTargets_eq_ok_iff.2 ⟨kept, keepNameable_false_of_true hkeep, hassign⟩

theorem Inputs.resultOn_bindings_false_of_true {i : Inputs} {w : Machine} {bindings : List Binding}
    (h : (i.bindings true).resultOn w = .ok bindings) :
    (i.bindings false).resultOn w = .ok bindings := by
  obtain ⟨found, hfound, hnamed⟩ :=
    (onlyLooks_discover i).exists_of_resultOn_bind (fun _ => .ofNoted _) h
  rw [Inputs.bindings, (onlyLooks_discover i).resultOn_bind (fun _ => .ofNoted _), hfound]
  exact result_nameTargets_false_of_true hnamed

/-- A strict run fails if not all targets can be named, and tells how many those are. -/
theorem unnameable_of_strict (h : ¬ ∀ t ∈ targets, t.IsNameable) :
    ∃ errors count, keepNameable true targets = .error errors ∧
      (nameTargets true targets).result = .error (.unnameable errors) ∧
      List.Forall₂ Target.IsRefusedWith (targets.filter fun t => !t.name.mangle.isOk) errors ∧
      count = (targets.countP fun t => !t.name.mangle.isOk) ∧
      (Failure.unnameable errors).diagnostic.message =
        s!"{count} declaration(s) cannot be given an accessor name" := by
  have hkeep := keepNameable_true_of_not_nameable h
  have herrors := forall₂_isRefusedWith targets
  have hcount : (targets.filterMap Target.nameError?).length =
      targets.countP fun t => !t.name.mangle.isOk := by
    rw [List.countP_eq_length_filter, herrors.length_eq]
  exact ⟨_, _, hkeep, by rw [result_nameTargets, hkeep], herrors, hcount, rfl⟩

/-- What becomes of targets that cannot be named.  They are left out; a strict run fails if there
are some, with the failure of each of them in their order.  An assignment of what is kept never
fails for a name.  If a strict run gives bindings, a run that is not strict gives the same. -/
theorem keepNameable_outcome (targets : List Target) :
    keepNameable false targets = .ok (targets.filter fun t => t.name.mangle.isOk) ∧
    ((∀ t ∈ targets, t.IsNameable) → keepNameable true targets = .ok targets) ∧
    ((¬ ∀ t ∈ targets, t.IsNameable) →
      ∃ errors count, keepNameable true targets = .error errors ∧
        (nameTargets true targets).result = .error (.unnameable errors) ∧
        List.Forall₂ Target.IsRefusedWith (targets.filter fun t => !t.name.mangle.isOk) errors ∧
        count = (targets.countP fun t => !t.name.mangle.isOk) ∧
        (Failure.unnameable errors).diagnostic.message =
          s!"{count} declaration(s) cannot be given an accessor name") ∧
    (∀ strict kept e, keepNameable strict targets = .ok kept → assign kept = .error e →
      (∃ name signature, e = .duplicateTarget name signature) ∨
        ∃ accessor first second, e = .collision accessor first second) ∧
    ∀ (i : Inputs) (w : Machine) (bindings : List Binding),
      (i.bindings true).resultOn w = .ok bindings → (i.bindings false).resultOn w = .ok bindings :=
  ⟨keepNameable_false targets, keepNameable_of_nameable true, unnameable_of_strict,
    fun _ _ _ h he => assign_error_of_keepNameable h he,
    fun _ _ _ h => Inputs.resultOn_bindings_false_of_true h⟩

/-- Of three targets two cannot be named, each for its first segment that is not name-safe. -/
example :
    keepNameable true
      [⟨⟨["_a", "b_"], by decide, by decide⟩, "int ()", .function⟩,
        ⟨⟨["c"], by decide, by decide⟩, "int ()", .function⟩,
        ⟨⟨["d", "new[]"], by decide, by decide⟩, "int ()", .staticMethod⟩] =
      .error [.invalidSegment "_a" "_a::b_", .invalidSegment "new[]" "d::new[]"] := by
  decide +kernel

end AddressExport
