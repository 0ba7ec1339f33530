import AddressExport.Declaration.Exported
import AddressExport.Proofs.Tree.Nodes

/-!
# Which declarations are exported

The search for functions carries the names of the scopes around a node down to it.  Whether a node
is exported, and as what, can be read off the node and the nodes above it (`Tree.Trail.exported?`):
no node above may be a template, a friend declaration or another function, and the name is made of
those of the namespaces and the record definitions above.  All other nodes are looked through.  The
targets of a tree are the functions that its nodes are exported as, the free functions first
(`targets_perm`).
-/

namespace AddressExport

/-! ## What is exported -/

namespace Declaration

/-- The name that a node puts in front of the names below it: that of a namespace or of a record
definition. -/
def scopeName? (d : Declaration) : Option String :=
  match d.detail with
  | .scope name _ => if d.kind = "NamespaceDecl" then name else none
  | .record _ name => if d.kind = "CXXRecordDecl" then some name else none
  | _ => none

def isRecordDefinition (d : Declaration) : Bool :=
  d.kind = "CXXRecordDecl" && (d.detail matches .record _ _)

def isFunction (d : Declaration) : Bool :=
  (d.kind = "FunctionDecl" || d.kind = "CXXMethodDecl") && (d.detail matches .typed _ _ _)

/-- Whether what is below a node can be exported. -/
def isOpen (d : Declaration) : Bool := !closedKinds.contains d.kind && !d.isFunction

end Declaration

namespace Tree.Trail

/-- The function that a node declares, if the search comes to the node and takes it. -/
def candidate? (x : Trail Declaration) : Option Candidate :=
  match x.label.detail with
  | .typed name signature trailing =>
    let segments := x.above.filterMap Declaration.scopeName? ++ [name]
    if x.above.all Declaration.isOpen && !isDeleted trailing then
      if x.label.kind = "FunctionDecl" then some ⟨segments, signature, .function⟩
      else if x.label.kind = "CXXMethodDecl" ∧
          x.above.getLast?.any Declaration.isRecordDefinition ∧ isStatic trailing then
        some ⟨segments, signature, .staticMethod⟩
      else none
    else none
  | _ => none

/-- The target that a node is exported as. -/
def exported? (x : Trail Declaration) : Option Target := x.candidate?.bind Candidate.target?

end Tree.Trail

/-! ## The roles of nodes -/

namespace Declaration

variable {d : Declaration} {name signature trailing : String} {isRecord : Bool}

theorem of_role_closed (h : d.role = .closed) :
    d.isOpen = false ∧ ∀ above, Tree.Trail.candidate? ⟨above, d⟩ = none := by
  have hfunction : "FunctionDecl" ∉ closedKinds := by decide
  have hmethod : "CXXMethodDecl" ∉ closedKinds := by decide
  unfold role at h
  unfold isOpen Tree.Trail.candidate?
  grind

theorem of_role_scope (h : d.role = .scope name isRecord) :
    d.isOpen = true ∧ d.scopeName? = some name ∧ d.isRecordDefinition = isRecord ∧
      ∀ above, Tree.Trail.candidate? ⟨above, d⟩ = none := by
  unfold role at h
  unfold scopeName? isRecordDefinition isOpen isFunction Tree.Trail.candidate?
  grind

theorem of_role_function (h : d.role = .function name signature trailing) :
    d.isOpen = false ∧ d.kind = "FunctionDecl" ∧ d.detail = .typed name signature trailing := by
  unfold role at h
  unfold isOpen isFunction
  grind

theorem of_role_method (h : d.role = .method name signature trailing) :
    d.isOpen = false ∧ d.kind = "CXXMethodDecl" ∧ d.detail = .typed name signature trailing := by
  unfold role at h
  unfold isOpen isFunction
  grind

theorem of_role_transparent (h : d.role = .transparent) :
    d.isOpen = true ∧ d.scopeName? = none ∧ d.isRecordDefinition = false ∧
      ∀ above, Tree.Trail.candidate? ⟨above, d⟩ = none := by
  unfold role at h
  unfold scopeName? isRecordDefinition isOpen isFunction Tree.Trail.candidate?
  rcases hd : d.detail with _ | ⟨_ | name, isInline⟩ | _ | _ | _ | _ | _ <;> grind

end Declaration

/-! ## The search -/

namespace Tree

open Declaration

theorem candidate?_of_not_open {x : Trail Declaration} {d : Declaration} (hd : d ∈ x.above)
    (h : d.isOpen = false) : x.candidate? = none := by
  have hall : x.above.all isOpen = false := List.all_eq_false.2 ⟨d, hd, by simp [h]⟩
  unfold Trail.candidate?
  split
  · simp [hall]
  · rfl

theorem filterMap_candidate?_of_not_open {above : List Declaration} {d : Declaration}
    (h : d.isOpen = false) (ts : List (Tree Declaration)) :
    (forestTrailsBelow (above ++ [d]) ts).filterMap Trail.candidate? = [] := by
  rw [List.filterMap_eq_nil_iff]
  intro x hx
  have hmem : d ∈ x.above :=
    (prefix_of_mem_forestTrailsBelow hx).subset
      (List.mem_append_right _ (List.mem_singleton_self d))
  exact candidate?_of_not_open hmem h

mutual

theorem candidatesIn_eq (above : List Declaration) (habove : above.all isOpen = true) :
    ∀ t : Tree Declaration,
      candidatesIn (above.filterMap scopeName?) (above.getLast?.any isRecordDefinition) t =
        (trailsBelow above t).filterMap Trail.candidate?
  | .node d ts => by
    rw [candidatesIn, trailsBelow, List.filterMap_cons]
    cases hrole : d.role with
    -- nothing below a closed node or a function is exported
    | closed =>
      obtain ⟨hopen, hnone⟩ := of_role_closed hrole
      rw [hnone, filterMap_candidate?_of_not_open hopen]
    | scope name isRecord =>
      obtain ⟨hopen, hname, hrecord, hnone⟩ := of_role_scope hrole
      have hbelow := candidatesInAll_eq (above ++ [d]) (by simp [hopen, habove]) ts
      rw [hnone, ← hbelow]
      simp [hname, hrecord]
    | function name signature trailing =>
      obtain ⟨hopen, hkind, hdetail⟩ := of_role_function hrole
      rw [filterMap_candidate?_of_not_open hopen, Trail.candidate?, hdetail]
      cases hdeleted : isDeleted trailing <;> simp [habove, hkind, hdeleted]
    | method name signature trailing =>
      obtain ⟨hopen, hkind, hdetail⟩ := of_role_method hrole
      rw [filterMap_candidate?_of_not_open hopen, Trail.candidate?, hdetail]
      cases hdeleted : isDeleted trailing <;> cases hstatic : isStatic trailing <;>
        cases hrecord : above.getLast?.any isRecordDefinition <;>
          simp [habove, hkind, hdeleted, hstatic]
    | transparent =>
      obtain ⟨hopen, hname, hrecord, hnone⟩ := of_role_transparent hrole
      have hbelow := candidatesInAll_eq (above ++ [d]) (by simp [hopen, habove]) ts
      rw [hnone, ← hbelow]
      simp [hname, hrecord]

theorem candidatesInAll_eq (above : List Declaration) (habove : above.all isOpen = true) :
    ∀ ts : List (Tree Declaration),
      candidatesInAll (above.filterMap scopeName?) (above.getLast?.any isRecordDefinition) ts =
        (forestTrailsBelow above ts).filterMap Trail.candidate?
  | [] => rfl
  | t :: ts => by
    rw [candidatesInAll, forestTrailsBelow, List.filterMap_append, candidatesIn_eq above habove t,
      candidatesInAll_eq above habove ts]

end

theorem candidates_eq (t : Tree Declaration) : candidates t = t.trails.filterMap Trail.candidate? :=
  candidatesIn_eq [] rfl t

theorem filterMap_target?_candidates (t : Tree Declaration) :
    (candidates t).filterMap Candidate.target? = t.trails.filterMap Trail.exported? := by
  rw [candidates_eq, List.filterMap_filterMap]
  rfl

end Tree

theorem Candidate.target?_eq_some_iff {c : Candidate} {t : Target} :
    c.target? = some t ↔ c = ⟨t.name.segments, t.signature, t.kind⟩ := by
  obtain ⟨segments, signature, kind⟩ := c
  obtain ⟨name, signature', kind'⟩ := t
  simp only [Candidate.target?, Option.map_eq_some_iff, QualifiedName.ofSegments?_eq_some_iff,
    Target.mk.injEq, Candidate.mk.injEq]
  constructor
  · rintro ⟨n, rfl, rfl, rfl, rfl⟩
    exact ⟨rfl, rfl, rfl⟩
  · rintro ⟨rfl, rfl, rfl⟩
    exact ⟨name, rfl, rfl, rfl, rfl⟩

/-- There is one target for each exported node of a tree. -/
theorem targets_perm (t : Tree Declaration) :
    (targets t).Perm (t.trails.filterMap Tree.Trail.exported?) := by
  have hkind : (fun s : Target => decide (s.kind = .staticMethod)) =
      fun s => !decide (s.kind = .function) := by
    funext s
    cases s.kind <;> rfl
  rw [targets, Tree.filterMap_target?_candidates, hkind]
  exact List.filter_append_perm _ _

namespace Tree.Trail

/-- What it takes for a node to declare a target: its name stands behind those of the namespaces and
the record definitions above it, it is not deleted, and a member function is a static one of a
record definition. -/
def Declares (x : Trail Declaration) (t : Target) : Prop :=
  ∃ name trailing, x.label.detail = .typed name t.signature trailing ∧
    t.name.segments = x.above.filterMap Declaration.scopeName? ++ [name] ∧
    isDeleted trailing = false ∧
    ((x.label.kind = "FunctionDecl" ∧ t.kind = .function) ∨
      (x.label.kind = "CXXMethodDecl" ∧ t.kind = .staticMethod ∧ isStatic trailing = true ∧
        ∃ d, x.above.getLast? = some d ∧ d.isRecordDefinition = true))

theorem candidate?_eq_some_iff {x : Trail Declaration} {t : Target} :
    x.candidate? = some ⟨t.name.segments, t.signature, t.kind⟩ ↔
      (∀ d ∈ x.above, d.isOpen = true) ∧ x.Declares t := by
  obtain ⟨name, signature, kind⟩ := t
  unfold candidate? Declares
  split
  · next own signature' trailing hdetail =>
    rw [← List.all_eq_true, ← Option.any_eq_true]
    grind
  · next hother => simpa using fun _ x y h => absurd h (hother x _ y)

theorem exported?_eq_some_iff {x : Trail Declaration} {t : Target} :
    x.exported? = some t ↔ (∀ d ∈ x.above, d.isOpen = true) ∧ x.Declares t := by
  rw [← candidate?_eq_some_iff, exported?, Option.bind_eq_some_iff]
  constructor
  · rintro ⟨c, hc, ht⟩
    rw [hc, Candidate.target?_eq_some_iff.1 ht]
  · intro h
    exact ⟨_, h, Candidate.target?_eq_some_iff.2 rfl⟩

end Tree.Trail

end AddressExport
