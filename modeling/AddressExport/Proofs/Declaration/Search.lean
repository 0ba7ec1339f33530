import AddressExport.Declaration.Search
import AddressExport.Proofs.Declaration.Exported

/-!
# What a walk finds

Whatever a walk has found when it comes to a tree, it goes on from there with the functions that the
tree has in the current scope, and is in the same scope afterwards (`Search.visit_eq`).  So the walk
over a whole tree finds what each node is exported as, read off the node and those above it
(`run_outcome`).
-/

namespace AddressExport

namespace Search

/-! ## Steps -/

/-- The walk with some functions added to what it has found. -/
def take (s : Search) (cs : List Candidate) : Search :=
  { s with
    functions := s.functions ++ (cs.filterMap Candidate.target?).filter (·.kind = .function)
    methods := s.methods ++ (cs.filterMap Candidate.target?).filter (·.kind = .staticMethod)
    journal := s.journal ++ cs.filterMap Candidate.note? }

@[simp] theorem scope_take (s : Search) (cs : List Candidate) : (s.take cs).scope = s.scope := rfl

@[simp] theorem scope_enter (s : Search) (name : String) :
    (s.enter name).scope = s.scope ++ [name] :=
  rfl

@[simp] theorem take_nil (s : Search) : s.take [] = s := by
  simp [take]

theorem take_append (s : Search) (cs ds : List Candidate) :
    s.take (cs ++ ds) = (s.take cs).take ds := by
  simp [take, List.append_assoc]

theorem leave_take_enter (s : Search) (name : String) (cs : List Candidate) :
    ((s.enter name).take cs).leave = s.take cs := by
  simp [take, enter, leave]

theorem ofSegments_eq (segments : List String) :
    QualifiedName.ofSegments segments =
      match QualifiedName.ofSegments? segments with
      | some n => .ok n
      | none => .error (.emptySegment ("::".intercalate segments)) := rfl

theorem add_eq_take (s : Search) (name signature : String) (kind : TargetKind) :
    s.add name signature kind = s.take [⟨s.scope ++ [name], signature, kind⟩] := by
  have hname : Candidate.name ⟨s.scope ++ [name], signature, kind⟩ = name := by
    simp [Candidate.name]
  unfold add take Candidate.target? Candidate.note?
  rw [ofSegments_eq]
  cases h : QualifiedName.ofSegments? (s.scope ++ [name]) with
  | none => simp [ofSegments_eq, h, hname]
  | some n => cases kind <;> simp [ofSegments_eq, h]

/-! ## Walks -/

mutual

/-- A walk over a tree adds what the tree has in the current scope, and ends in that scope. -/
theorem visit_eq (s : Search) (inRecord : Bool) :
    ∀ t : Tree Declaration, s.visit inRecord t = s.take (candidatesIn s.scope inRecord t)
  | .node d ts => by
    rw [visit, candidatesIn]
    cases d.role with
    | closed => exact (take_nil s).symm
    | scope name isRecord =>
      show ((s.enter name).visitAll isRecord ts).leave = _
      rw [visitAll_eq (s.enter name) isRecord ts, leave_take_enter, scope_enter]
    | function name signature trailing =>
      dsimp only
      by_cases hdeleted : isDeleted trailing = true
      · rw [if_pos hdeleted, if_pos hdeleted, take_nil]
      · rw [if_neg hdeleted, if_neg hdeleted, add_eq_take]
    | method name signature trailing =>
      simp only [add_eq_take]
      cases inRecord <;> cases isStatic trailing <;> cases isDeleted trailing <;> simp
    | transparent => exact visitAll_eq s false ts

theorem visitAll_eq (s : Search) (inRecord : Bool) :
    ∀ ts : List (Tree Declaration),
      s.visitAll inRecord ts = s.take (candidatesInAll s.scope inRecord ts)
  | [] => (take_nil s).symm
  | t :: ts => by
    rw [visitAll, visit_eq s inRecord t, visitAll_eq _ inRecord ts, scope_take, candidatesInAll,
      take_append]

end

theorem scope_visit (s : Search) (inRecord : Bool) (t : Tree Declaration) :
    (s.visit inRecord t).scope = s.scope := by
  rw [visit_eq, scope_take]

theorem run_eq (t : Tree Declaration) : run t = take {} (candidates t) := visit_eq {} false t

theorem found_run (t : Tree Declaration) : (run t).found = targets t := by
  rw [run_eq]
  rfl

theorem journal_run (t : Tree Declaration) : (run t).journal = targetsNotes t := by
  rw [run_eq]
  rfl

end Search

/-! ## Paths -/

namespace Tree.Trail

/-- Whether a node is exported as a target.  The search comes to the node, since nothing above it is
closed or a function, and the node declares the target. -/
structure IsExportedAs (x : Trail Declaration) (t : Target) : Prop where
  not_closed : ∀ d ∈ x.above ++ [x.label], d.kind ∉ Declaration.closedKinds
  not_inside : ∀ d ∈ x.above, d.isFunction = false
  declares : x.Declares t

theorem exported?_eq_some_iff_isExportedAs {x : Trail Declaration} {t : Target} :
    x.exported? = some t ↔ x.IsExportedAs t := by
  rw [exported?_eq_some_iff]
  simp only [Declaration.isOpen, Bool.and_eq_true, Bool.not_eq_true', List.contains_eq_mem,
    decide_eq_false_iff_not]
  constructor
  · rintro ⟨hopen, hdeclares⟩
    refine ⟨fun d hd => ?_, fun d hd => (hopen d hd).2, hdeclares⟩
    rcases List.mem_append.1 hd with hd | hd
    · exact (hopen d hd).1
    · obtain rfl := List.mem_singleton.1 hd
      obtain ⟨name, trailing, -, -, -, ⟨hkind, -⟩ | ⟨hkind, -⟩⟩ := hdeclares
      · rw [hkind]; decide
      · rw [hkind]; decide
  · intro h
    exact ⟨fun d hd => ⟨h.not_closed d (List.mem_append_left _ hd), h.not_inside d hd⟩, h.declares⟩

/-- The target of the given kind that a node is exported as. -/
def exportedOfKind? (kind : TargetKind) (x : Trail Declaration) : Option Target :=
  x.exported?.filter (·.kind = kind)

theorem exportedOfKind?_eq_some_iff {kind : TargetKind} {x : Trail Declaration} {t : Target} :
    x.exportedOfKind? kind = some t ↔ t.kind = kind ∧ x.IsExportedAs t := by
  rw [exportedOfKind?, Option.filter_eq_some_iff, exported?_eq_some_iff_isExportedAs,
    decide_eq_true_iff, and_comm]

end Tree.Trail

namespace Search

open AddressExport.Tree (Trail)

/-- A walk over a tree finds what the nodes are exported as, one target for each node that is
exported: in preorder the free functions, and in preorder the static member functions.  It leaves
every scope that it enters. -/
theorem run_outcome (t : Tree Declaration) :
    (run t).found = targets t ∧ (run t).journal = targetsNotes t ∧
    targets t =
      t.trails.filterMap (Trail.exportedOfKind? .function) ++
        t.trails.filterMap (Trail.exportedOfKind? .staticMethod) ∧
    (∀ (x : Trail Declaration) kind s,
      x.exportedOfKind? kind = some s ↔ s.kind = kind ∧ x.IsExportedAs s) ∧
    (targets t).length = t.trails.countP (fun x => x.exported?.isSome) ∧
    ∀ (s : Search) inRecord (u : Tree Declaration), (s.visit inRecord u).scope = s.scope := by
  refine ⟨found_run t, journal_run t, ?_, fun x kind s => Trail.exportedOfKind?_eq_some_iff, ?_,
    scope_visit⟩
  · rw [targets, Tree.filterMap_target?_candidates, List.filter_filterMap, List.filter_filterMap]
    rfl
  · rw [(targets_perm t).length_eq, List.length_filterMap_eq_countP]

end Search

end AddressExport
