import AddressExport.Proofs.Declaration.Discovery

/-!
# Functions that allocate memory

What a dump calls `operator new` is named `new`, since a name is the last word in front of the type.
Cleanup takes such functions by their names, but it looks at the names of free functions only.  So
no free function that is found allocates memory, and a static member function that does is found
like any other (`allocation_of_discover`).
-/

namespace AddressExport

theorem QualifiedName.baseName_eq_of_segments_eq {n : QualifiedName} {above : List String}
    {name : String} (h : n.segments = above ++ [name]) : n.baseName = name := by
  rw [baseName, List.getLast_congr _ (List.concat_ne_nil name above) h]
  exact List.getLast_concat

/-- Whether a target is named like a function that allocates or frees memory. -/
def Target.IsAllocation (t : Target) : Prop :=
  t.name.baseName ∈ ["new", "delete", "new[]", "delete[]"]

namespace Declaration

/-- Whether a node declares a static member function of that name and signature, and does not delete
it. -/
def IsStaticMethod (d : Declaration) (name signature : String) : Prop :=
  d.kind = "CXXMethodDecl" ∧ ∃ trailing, d.detail = .typed name signature trailing ∧
    isStatic trailing = true ∧ isDeleted trailing = false

end Declaration

namespace Tree.Trail

/-- What it takes for a node to declare a target as a static member function of a record
definition. -/
structure DeclaresMember (x : Trail Declaration) (t : Target) : Prop where
  kind_eq : t.kind = .staticMethod
  isStaticMethod : x.label.IsStaticMethod t.name.baseName t.signature
  segments_eq : t.name.segments = x.above.filterMap Declaration.scopeName? ++ [t.name.baseName]
  inRecord : ∃ d, x.above.getLast? = some d ∧ d.isRecordDefinition = true

variable {x : Trail Declaration} {t : Target}

theorem declares_of_declaresMember (h : x.DeclaresMember t) : x.Declares t := by
  obtain ⟨hkind, trailing, hdetail, hstatic, hdeleted⟩ := h.isStaticMethod
  exact ⟨t.name.baseName, trailing, hdetail, h.segments_eq, hdeleted,
    .inr ⟨hkind, h.kind_eq, hstatic, h.inRecord⟩⟩

/-- A free function that allocates does not survive cleanup, so only a member function is left. -/
theorem declaresMember_of_declares {systemPrefixes : List String}
    (hkept : x.label.isKept systemPrefixes = true) (h : x.Declares t) (ht : t.IsAllocation) :
    x.DeclaresMember t := by
  obtain ⟨name, trailing, hdetail, hsegments, hdeleted, hroute⟩ := h
  obtain rfl := QualifiedName.baseName_eq_of_segments_eq hsegments
  rcases hroute with ⟨hkind, -⟩ | ⟨hkind, htarget, hstatic, hrecord⟩
  · have hname : x.label.name? = some t.name.baseName := by
      rw [Declaration.name?, hdetail, Detail.name?]
    have hruled : x.label.RuledOut := .inr (.inl ⟨hkind, .inr ⟨_, ht, hname⟩⟩)
    exact absurd hruled (Declaration.isKept_eq_true_iff.1 hkept).1
  · exact ⟨htarget, ⟨hkind, trailing, hdetail, hstatic, hdeleted⟩, hsegments, hrecord⟩

end Tree.Trail

variable {systemPrefixes : List String} {dump : String} {found : Discovery}

theorem declaresMember_of_exported? (h : discover systemPrefixes dump = .ok found)
    {x : Tree.Trail Declaration} (hx : x ∈ found.trails) {t : Target}
    (hexported : x.exported? = some t) (ht : t.IsAllocation) :
    (∀ d ∈ x.above, d.isOpen = true) ∧ x.DeclaresMember t := by
  obtain ⟨hopen, hdeclares⟩ := Tree.Trail.exported?_eq_some_iff.1 hexported
  obtain ⟨hkept, -⟩ := label_of_mem_trails h hx
  exact ⟨hopen, Tree.Trail.declaresMember_of_declares hkept hdeclares ht⟩

/-- Of the functions that allocate, no free function is found.  A static member function of a record
is found wherever cleanup leaves it, unless a template, a friend declaration or a function is around
it. -/
theorem allocation_of_discover (h : discover systemPrefixes dump = .ok found) :
    (∀ t ∈ found.targets, t.kind = .function → ¬ t.IsAllocation) ∧
      ∀ t : Target, t.IsAllocation →
        (t ∈ found.targets ↔
          ∃ x ∈ found.trails, (∀ d ∈ x.above, d.isOpen = true) ∧ x.DeclaresMember t) := by
  constructor
  · intro t hmem hfunction ht
    obtain ⟨x, hx, hexported⟩ := (mem_targets_iff_exported? h).1 hmem
    obtain ⟨-, hmember⟩ := declaresMember_of_exported? h hx hexported ht
    exact absurd (hfunction.symm.trans hmember.kind_eq) (by decide)
  · intro t ht
    rw [mem_targets_iff_exported? h]
    constructor
    · rintro ⟨x, hx, hexported⟩
      exact ⟨x, hx, declaresMember_of_exported? h hx hexported ht⟩
    · rintro ⟨x, hx, hopen, hmember⟩
      exact ⟨x, hx,
        Tree.Trail.exported?_eq_some_iff.2 ⟨hopen, Tree.Trail.declares_of_declaresMember hmember⟩⟩

/-- A free function that allocates, and a member function. -/
def twoAllocations : String :=
  "TranslationUnitDecl 0x1\n|-FunctionDecl 0x2 operator new 'void *(unsigned long)'\n" ++
    "`-CXXRecordDecl 0x3 struct Pool definition\n" ++
    "  `-CXXMethodDecl 0x4 operator new 'void *(unsigned long)' static\n"

/-- The member function that is found. -/
def poolNew : Target :=
  ⟨⟨["Pool", "new"], by decide, by decide⟩, "void *(unsigned long)", .staticMethod⟩

theorem allocation_twoAllocations :
    ∃ found, discover defaultSystemPrefixes twoAllocations = .ok found ∧ found.targets = [poolNew] ∧
      poolNew.IsAllocation ∧ (∀ t ∈ found.targets, t.kind = .function → ¬ t.IsAllocation) ∧
      ∃ x ∈ found.trails, (∀ d ∈ x.above, d.isOpen = true) ∧ x.DeclaresMember poolNew := by
  obtain ⟨found, h, htargets⟩ : ∃ found, discover defaultSystemPrefixes twoAllocations = .ok found ∧
      found.targets = [poolNew] := exists_discover_of_map_eq (by decide +kernel)
  have hnew : poolNew.IsAllocation := by
    unfold Target.IsAllocation
    decide
  obtain ⟨hfree, hmembers⟩ := allocation_of_discover h
  have hfound : poolNew ∈ found.targets := by
    rw [htargets]
    exact List.mem_singleton_self poolNew
  exact ⟨found, h, htargets, hnew, hfree, (hmembers poolNew hnew).1 hfound⟩

end AddressExport
