import AddressExport.Proofs.Declaration.Cleanup
import AddressExport.Proofs.Declaration.Detail
import AddressExport.Proofs.Declaration.Exported
import AddressExport.Proofs.Dump.Reading
import AddressExport.Proofs.Name.Assignment

/-!
# What is found in a dump

The functions that are found in a dump are declared by nodes that cleanup leaves.  Above such a node
stand scopes, and whatever the search does not know and looks through
(`mem_targets_iff_of_discover`).  A function that is declared several times is found several times,
and then the names cannot be assigned (`redeclared_iff_of_discover`).
-/

namespace AddressExport

variable {systemPrefixes : List String} {dump : String} {found : Discovery}

/-- The nodes that cleanup leaves. -/
def Discovery.trails (found : Discovery) : List (Tree.Trail Declaration) :=
  (found.tree.map Tree.trails).getD []

theorem discover_eq_ok_iff :
    discover systemPrefixes dump = .ok found ↔
      ∃ t, Dump.read dump = .ok t ∧
        found = ⟨prune systemPrefixes t, ((prune systemPrefixes t).map targets).getD []⟩ := by
  unfold discover
  cases Dump.read dump with
  | error e => simp [Except.map]
  | ok t => simp [Except.map, eq_comm]

theorem exists_discover_of_map_eq {β : Type} {f : Discovery → β} {b : β}
    (h : (discover systemPrefixes dump).toOption.map f = some b) :
    ∃ found, discover systemPrefixes dump = .ok found ∧ f found = b :=
  exists_ok_of_toOption_map h

theorem targets_perm_of_discover (h : discover systemPrefixes dump = .ok found) :
    found.targets.Perm (found.trails.filterMap Tree.Trail.exported?) := by
  obtain ⟨t, -, rfl⟩ := discover_eq_ok_iff.1 h
  unfold Discovery.trails
  cases prune systemPrefixes t with
  | none => exact List.Perm.refl []
  | some u => exact targets_perm u

/-! ## The nodes above a function -/

namespace Declaration

/-- Whether a node is the translation unit, a linkage specification, a namespace with a name or the
definition of a record. -/
def IsScope (d : Declaration) : Prop :=
  d.kind = "TranslationUnitDecl" ∨ d.kind = "LinkageSpecDecl" ∨
  (d.kind = "NamespaceDecl" ∧ ∃ name isInline, d.detail = .scope (some name) isInline) ∨
  (d.kind = "CXXRecordDecl" ∧ ∃ tag name, d.detail = .record tag name)

/-- Whether a node is of a kind that means nothing to the search, which then looks at what is below
it. -/
def IsSeenThrough (d : Declaration) : Prop :=
  d.kind ∉ ["TranslationUnitDecl", "LinkageSpecDecl", "NamespaceDecl", "CXXRecordDecl"] ∧
    d.kind ∉ closedKinds ∧ d.isFunction = false

theorem isOpen_eq_true_iff {d : Declaration} :
    d.isOpen = true ↔ d.kind ∉ closedKinds ∧ d.isFunction = false := by
  simp [isOpen]

theorem isOpen_of_isScope {d : Declaration} (h : d.IsScope) : d.isOpen = true := by
  rw [isOpen_eq_true_iff, isFunction]
  rcases h with h | h | ⟨h, -⟩ | ⟨h, -⟩ <;> simp [h, closedKinds]

theorem exists_scope_of_namespace {d : Declaration} {text : String}
    (hkind : d.kind = "NamespaceDecl") (htext : d.detail = Detail.ofText d.kind text) :
    ∃ name isInline, d.detail = .scope name isInline := by
  rw [htext, hkind, Detail.ofText, if_neg (by decide), if_pos rfl, Detail.ofScope]
  split <;> exact ⟨_, _, rfl⟩

theorem isScope_or_isSeenThrough {d : Declaration} {text : String}
    (hkept : d.isKept systemPrefixes = true) (htext : d.detail = Detail.ofText d.kind text)
    (hopen : d.isOpen = true) : d.IsScope ∨ d.IsSeenThrough := by
  obtain ⟨hruled, -⟩ := isKept_eq_true_iff.1 hkept
  by_cases hkind : d.kind ∈
      ["TranslationUnitDecl", "LinkageSpecDecl", "NamespaceDecl", "CXXRecordDecl"]
  · left
    simp only [List.mem_cons, List.not_mem_nil, or_false] at hkind
    rcases hkind with h | h | h | h
    · exact .inl h
    · exact .inr (.inl h)
    -- cleanup takes namespaces without a name, and records that are not defined
    · obtain ⟨_ | name, isInline, hdetail⟩ := exists_scope_of_namespace h htext
      · exact absurd (.inl ⟨h, .inl ⟨isInline, hdetail⟩⟩) hruled
      · exact .inr (.inr (.inl ⟨h, name, isInline, hdetail⟩))
    · by_cases hdetail : ∃ tag name, d.detail = .record tag name
      · exact .inr (.inr (.inr ⟨h, hdetail⟩))
      · have hnone (tag name) : d.detail ≠ .record tag name := fun hd => hdetail ⟨tag, name, hd⟩
        exact absurd (.inr (.inr (.inr (.inr ⟨h, .inl hnone⟩)))) hruled
  · exact .inr ⟨hkind, isOpen_eq_true_iff.1 hopen⟩

end Declaration

theorem exists_trail_of_mem_above {x : Tree.Trail Declaration} (hx : x ∈ found.trails)
    {d : Declaration} (hd : d ∈ x.above) : ∃ y ∈ found.trails, y.label = d := by
  unfold Discovery.trails at hx ⊢
  cases htree : found.tree with
  | none => simp [htree] at hx
  | some u =>
    rw [htree] at hx
    exact Tree.exists_trail_of_mem_above hx hd

theorem label_of_mem_trails (h : discover systemPrefixes dump = .ok found)
    {x : Tree.Trail Declaration} (hx : x ∈ found.trails) :
    x.label.isKept systemPrefixes = true ∧
      ∃ r ∈ Dump.rows dump, x.label.detail = Detail.ofText x.label.kind r.text := by
  obtain ⟨t, ht, rfl⟩ := discover_eq_ok_iff.1 h
  unfold Discovery.trails at hx
  cases hprune : prune systemPrefixes t with
  | none => simp [hprune] at hx
  | some u =>
    obtain ⟨hmem, hkept⟩ := mem_trails_of_prune hprune (by simpa [hprune] using hx)
    have hlabel : x.label ∈ t.rows.map Prod.snd := by
      rw [← Tree.map_label_trails]
      exact List.mem_map_of_mem hmem
    obtain ⟨r, hr, hkind, hdetail⟩ := Dump.exists_row_of_mem_rows ht hlabel
    exact ⟨hkept, r, hr, by rw [hkind, hdetail]⟩

theorem mem_targets_iff_exported? (h : discover systemPrefixes dump = .ok found) {t : Target} :
    t ∈ found.targets ↔ ∃ x ∈ found.trails, x.exported? = some t := by
  rw [(targets_perm_of_discover h).mem_iff, List.mem_filterMap]

/-- A target is what a node declares above which stand only scopes and what is seen through. -/
theorem mem_targets_iff_of_discover (h : discover systemPrefixes dump = .ok found) {t : Target} :
    t ∈ found.targets ↔
      ∃ x ∈ found.trails, x.Declares t ∧ ∀ d ∈ x.above, d.IsScope ∨ d.IsSeenThrough := by
  rw [mem_targets_iff_exported? h]
  constructor
  · rintro ⟨x, hx, ht⟩
    obtain ⟨hopen, hdeclares⟩ := Tree.Trail.exported?_eq_some_iff.1 ht
    refine ⟨x, hx, hdeclares, fun d hd => ?_⟩
    obtain ⟨y, hy, rfl⟩ := exists_trail_of_mem_above hx hd
    obtain ⟨hkept, r, -, htext⟩ := label_of_mem_trails h hy
    exact Declaration.isScope_or_isSeenThrough hkept htext (hopen _ hd)
  · rintro ⟨x, hx, hdeclares, habove⟩
    refine ⟨x, hx, Tree.Trail.exported?_eq_some_iff.2 ⟨fun d hd => ?_, hdeclares⟩⟩
    rcases habove d hd with hscope | hseen
    · exact Declaration.isOpen_of_isScope hscope
    · exact Declaration.isOpen_eq_true_iff.2 hseen.2

/-- A function that is declared in the body of a constructor. -/
def localFunction : String :=
  "TranslationUnitDecl 0x1\n`-CXXRecordDecl 0x2 struct S definition\n" ++
    "  `-CXXConstructorDecl 0x3 S 'void ()'\n    `-FunctionDecl 0x4 f 'int ()'\n"

theorem mem_targets_localFunction :
    ∃ found, discover defaultSystemPrefixes localFunction = .ok found ∧
      found.targets.map (fun t => t.name.segments) = [["S", "f"]] ∧
      (found.trails.filterMap fun x => x.exported?.map fun _ => x.above.map Declaration.kind) =
        [["TranslationUnitDecl", "CXXRecordDecl", "CXXConstructorDecl"]] ∧
      ∀ t ∈ found.targets,
        ∃ x ∈ found.trails, x.Declares t ∧ (∀ d ∈ x.above, d.IsScope ∨ d.IsSeenThrough) := by
  have hrun : ((discover defaultSystemPrefixes localFunction).toOption.map fun found =>
      (found.targets.map fun t => t.name.segments,
        found.trails.filterMap fun x => x.exported?.map fun _ => x.above.map Declaration.kind)) =
      some ([["S", "f"]], [["TranslationUnitDecl", "CXXRecordDecl", "CXXConstructorDecl"]]) := by
    decide +kernel
  obtain ⟨found, h, hfound⟩ := exists_discover_of_map_eq hrun
  obtain ⟨hnames, hkinds⟩ := Prod.mk.inj hfound
  exact ⟨found, h, hnames, hkinds, fun t ht => (mem_targets_iff_of_discover h).1 ht⟩

/-! ## The texts of signatures -/

/-- A signature stands within a line of the dump. -/
theorem lineFeed_not_mem_signature (h : discover systemPrefixes dump = .ok found) :
    ∀ t ∈ found.targets, '\n' ∉ t.signature.toList := by
  intro t ht hmem
  obtain ⟨x, hx, hexported⟩ := (mem_targets_iff_exported? h).1 ht
  obtain ⟨-, name, trailing, hdetail, -⟩ := Tree.Trail.exported?_eq_some_iff.1 hexported
  obtain ⟨-, r, hr, htext⟩ := label_of_mem_trails h hx
  rw [htext] at hdetail
  exact (Dump.text_of_mem_rows hr).2 (Detail.mem_of_ofText hdetail hmem)

/-! ## Redeclarations -/

theorem not_areDistinct_filterMap_iff {α : Type} {l : List α} {f : α → Option Target} :
    ¬ AreDistinct (l.filterMap f) ↔
      ∃ s x y t, [x, y].Sublist l ∧ f x = some s ∧ f y = some t ∧ s.identity = t.identity := by
  rw [areDistinct_iff_nodup, List.Nodup, List.pairwise_map, List.pairwise_filterMap,
    List.pairwise_iff_forall_sublist]
  constructor
  · intro h
    push Not at h
    obtain ⟨x, y, hxy, s, hs, t, ht, hst⟩ := h
    exact ⟨s, x, y, t, hxy, hs, ht, hst⟩
  · rintro ⟨s, x, y, t, hxy, hs, ht, hst⟩ h
    exact h hxy s hs t ht hst

/-- Whether another node behind the one that declares `s` declares the same function. -/
def Discovery.IsRedeclared (found : Discovery) (s : Target) : Prop :=
  ∃ x y t, [x, y].Sublist found.trails ∧ x.exported? = some s ∧ y.exported? = some t ∧
    s.identity = t.identity

theorem not_areDistinct_iff_redeclared (h : discover systemPrefixes dump = .ok found) :
    ¬ AreDistinct found.targets ↔ ∃ s, found.IsRedeclared s := by
  rw [areDistinct_congr (targets_perm_of_discover h)]
  exact not_areDistinct_filterMap_iff

theorem not_areDistinct_iff_nameable_redeclared (h : discover systemPrefixes dump = .ok found)
    {strict : Bool} {kept : List Target} (hkept : keepNameable strict found.targets = .ok kept) :
    ¬ AreDistinct kept ↔ ∃ s, found.IsRedeclared s ∧ s.IsNameable := by
  have hperm := (targets_perm_of_discover h).filter fun t => t.nameError?.isNone
  rw [← eq_filter_of_keepNameable hkept, List.filter_filterMap] at hperm
  rw [areDistinct_congr hperm, not_areDistinct_filterMap_iff]
  simp only [Option.filter_eq_some_iff, isNone_nameError?_iff]
  constructor
  · rintro ⟨s, x, y, t, hxy, ⟨hs, hname⟩, ⟨ht, -⟩, hst⟩
    exact ⟨s, ⟨x, y, t, hxy, hs, ht, hst⟩, hname⟩
  · rintro ⟨s, ⟨x, y, t, hxy, hs, ht, hst⟩, hname⟩
    -- the two have one name, so leaving out what cannot be named takes both or none
    have hnames : s.name = t.name := congrArg Prod.fst hst
    exact ⟨s, x, y, t, hxy, ⟨hs, hname⟩, ⟨ht, by rwa [Target.IsNameable, ← hnames]⟩, hst⟩

/-- Every exported node is a target of its own.  So a function that is declared twice is found
twice, and if its name can be exported then the assignment fails. -/
theorem redeclared_iff_of_discover {strict : Bool} {kept : List Target}
    (h : discover systemPrefixes dump = .ok found)
    (hkept : keepNameable strict found.targets = .ok kept) :
    found.targets.Perm (found.trails.filterMap Tree.Trail.exported?) ∧
    (¬ AreDistinct found.targets ↔ ∃ s, found.IsRedeclared s) ∧
    ((∃ name signature, assign kept = .error (.duplicateTarget name signature)) ↔
      ∃ s, found.IsRedeclared s ∧ s.IsNameable) :=
  ⟨targets_perm_of_discover h, not_areDistinct_iff_redeclared h,
    exists_duplicateTarget_iff.trans (not_areDistinct_iff_nameable_redeclared h hkept)⟩

/-- A function that is declared twice. -/
def declaredTwice : String :=
  "TranslationUnitDecl 0x1\n|-FunctionDecl 0x2 f 'int ()'\n`-FunctionDecl 0x3 f 'int ()'\n"

def declaredTwiceTarget : Target := ⟨⟨["f"], by decide, by decide⟩, "int ()", .function⟩

theorem targets_declaredTwice :
    ∃ found, discover defaultSystemPrefixes declaredTwice = .ok found ∧
      found.targets = [declaredTwiceTarget, declaredTwiceTarget] :=
  exists_discover_of_map_eq (by decide +kernel)

theorem redeclared_declaredTwice :
    ∃ found kept, discover defaultSystemPrefixes declaredTwice = .ok found ∧
      keepNameable true found.targets = .ok kept ∧
      found.targets.Perm (found.trails.filterMap Tree.Trail.exported?) ∧
      (∃ s, found.IsRedeclared s) ∧ ∃ s, found.IsRedeclared s ∧ s.IsNameable := by
  obtain ⟨found, h, htargets⟩ := targets_declaredTwice
  have hkept : keepNameable true found.targets =
      .ok [declaredTwiceTarget, declaredTwiceTarget] := by
    rw [htargets]
    decide +kernel
  obtain ⟨hperm, hdistinct, hassign⟩ := redeclared_iff_of_discover h hkept
  refine ⟨found, _, h, hkept, hperm, hdistinct.1 ?_, hassign.1 ⟨"f", "int ()", by decide +kernel⟩⟩
  rw [htargets]
  decide +kernel

/-- Targets are not always distinct, and then no names are assigned. -/
theorem assign_declaredTwice :
    ∃ found kept, discover defaultSystemPrefixes declaredTwice = .ok found ∧
      keepNameable false found.targets = .ok kept ∧ ¬ AreDistinct found.targets ∧
      assign kept = .error (.duplicateTarget "f" "int ()") := by
  obtain ⟨found, h, htargets⟩ := targets_declaredTwice
  refine ⟨found, [declaredTwiceTarget, declaredTwiceTarget], h, ?_⟩
  rw [htargets]
  exact ⟨by decide +kernel, by decide +kernel, by decide +kernel⟩

end AddressExport
