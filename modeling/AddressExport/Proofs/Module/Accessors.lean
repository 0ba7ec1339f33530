import AddressExport.Module.Accessors
import AddressExport.Proofs.Declaration.Discovery
import AddressExport.Proofs.Text.Lines

/-!
# How accessors take addresses

An accessor picks the target by a cast exactly if several exported declarations have the target's
name and its signature has a pointer type (`accessors_of_discover`).  Declarations that are not
exported do not count: they are gone before the names are assigned.
-/

namespace AddressExport

variable {systemPrefixes : List String} {dump : String} {found : Discovery}

/-! ## Overloads among the exported declarations -/

theorem one_lt_countP_iff {α : Type} {p : α → Bool} {l : List α} :
    1 < l.countP p ↔ ∃ x y, [x, y].Sublist l ∧ p x = true ∧ p y = true := by
  constructor
  · intro h
    rw [List.countP_eq_length_filter] at h
    obtain ⟨x, y, rest, hfilter⟩ : ∃ x y rest, l.filter p = x :: y :: rest := by
      match hl : l.filter p with
      | [] => simp [hl] at h
      | [x] => simp [hl] at h
      | x :: y :: rest => exact ⟨x, y, rest, rfl⟩
    have hmem (z : α) (hz : z ∈ [x, y]) : p z = true := by
      have : z ∈ l.filter p := by
        rw [hfilter]
        exact List.mem_append_left rest hz
      exact (List.mem_filter.1 this).2
    refine ⟨x, y, ?_, hmem x (by simp), hmem y (by simp)⟩
    have hxy : [x, y].Sublist (l.filter p) := by
      rw [hfilter]
      exact List.sublist_append_left [x, y] rest
    exact hxy.trans List.filter_sublist
  · rintro ⟨x, y, hxy, hx, hy⟩
    have hcount := hxy.countP_le (p := p)
    rw [List.countP_cons_of_pos hx, List.countP_cons_of_pos hy] at hcount
    exact Nat.lt_of_lt_of_le Nat.one_lt_two hcount

/-- Whether several nodes are exported under a name. -/
def Discovery.IsOverloaded (found : Discovery) (n : QualifiedName) : Prop :=
  ∃ x y s t, [x, y].Sublist found.trails ∧ x.exported? = some s ∧ y.exported? = some t ∧
    s.name = n ∧ t.name = n

theorem isOverloaded_targets_iff (h : discover systemPrefixes dump = .ok found)
    {n : QualifiedName} : isOverloaded found.targets n = true ↔ found.IsOverloaded n := by
  have hnamed (x : Tree.Trail Declaration) :
      ((x.exported?.map fun t => decide (t.name = n)).getD false) = true ↔
        ∃ t, x.exported? = some t ∧ t.name = n := by
    cases x.exported? <;> simp
  rw [isOverloaded, decide_eq_true_iff, (targets_perm_of_discover h).countP_eq,
    List.countP_filterMap, one_lt_countP_iff]
  simp only [hnamed]
  constructor
  · rintro ⟨x, y, hxy, ⟨s, hs, hsn⟩, ⟨t, ht, htn⟩⟩
    exact ⟨x, y, s, t, hxy, hs, ht, hsn, htn⟩
  · rintro ⟨x, y, s, t, hxy, hs, ht, hsn, htn⟩
    exact ⟨x, y, hxy, ⟨s, hs, hsn⟩, ⟨t, ht, htn⟩⟩

/-- Leaving out what cannot be named takes all targets of a name or none. -/
theorem isOverloaded_of_keepNameable {strict : Bool} {targets kept : List Target}
    (hkept : keepNameable strict targets = .ok kept) {t : Target} (ht : t.IsNameable) :
    isOverloaded kept t.name = isOverloaded targets t.name := by
  rw [eq_filter_of_keepNameable hkept, isOverloaded, isOverloaded, List.countP_filter]
  congr 2
  refine List.countP_congr fun u _ => ?_
  rw [Bool.and_eq_true, decide_eq_true_iff, isNone_nameError?_iff, and_iff_left_iff_imp]
  intro hname
  rwa [Target.IsNameable, hname]

/-! ## The source -/

/-- The definition of the accessor of a target that is found at the given address. -/
def Binding.definition (b : Binding) (address : String) : String :=
  Text.unlines
    ["",
      "extern \"C\" intptr_t " ++ b.accessor ++ "() \x7b",
      "  /* " ++ b.target.signature ++ " */",
      "  return reinterpret_cast<intptr_t>(" ++ address ++ ");",
      "\x7d"]

theorem accessors_append_cons (m : ModuleSpec) (before after : List Binding) (b : Binding) :
    m.accessors (before ++ b :: after) =
      m.accessors before ++ b.definition b.addressExpression ++
        Text.unlines (after.flatMap Binding.accessorLines) := by
  have hdefinition : Text.unlines b.accessorLines = b.definition b.addressExpression := rfl
  rw [ModuleSpec.accessors, ModuleSpec.accessors, List.flatMap_append, List.flatMap_cons,
    ← List.append_assoc, ← List.append_assoc, Text.unlines_append, Text.unlines_append, hdefinition]

/-- The definition of each accessor.  The address is taken through a cast to the type of the
target's pointer if several declarations are exported under its name, and without one otherwise, or
if the signature has no such type. -/
theorem accessors_of_discover (h : discover systemPrefixes dump = .ok found) {strict : Bool}
    {kept : List Target} (hkept : keepNameable strict found.targets = .ok kept)
    {before after : List Binding} {b : Binding} (hassign : assign kept = .ok (before ++ b :: after))
    (m : ModuleSpec) :
    ∃ address,
      m.accessors (before ++ b :: after) =
        m.accessors before ++ b.definition address ++
          Text.unlines (after.flatMap Binding.accessorLines) ∧
      (found.IsOverloaded b.target.name → ∀ type, pointerType b.target.signature = .ok type →
        address = "static_cast<" ++ type ++ ">(&" ++ b.target.name.path ++ ")") ∧
      ((¬ found.IsOverloaded b.target.name ∨ ∀ type, pointerType b.target.signature ≠ .ok type) →
        address = "std::addressof(" ++ b.target.name.path ++ ")") := by
  obtain ⟨-, hbind, -⟩ := assign_eq_ok_iff.1 hassign
  have hb : b ∈ before ++ b :: after := List.mem_append_right before List.mem_cons_self
  have hover : b.isOverload = true ↔ found.IsOverloaded b.target.name := by
    rw [isOverload_eq_isOverloaded hbind hb,
      isOverloaded_of_keepNameable hkept (isNameable_of_mem_bindings hbind hb),
      isOverloaded_targets_iff h]
  refine ⟨b.addressExpression, accessors_append_cons m before after b, ?_, ?_⟩
  · intro hshared type htype
    simp only [Binding.addressExpression, hover.2 hshared, htype, if_true]
  · rintro (halone | hnone)
    · have hplain : b.isOverload = false := by rwa [← Bool.not_eq_true, hover]
      simp only [Binding.addressExpression, hplain, Bool.false_eq_true, if_false]
    · cases htype : pointerType b.target.signature with
      | ok type => exact absurd htype (hnone type)
      | error e => simp only [Binding.addressExpression, htype, ite_self]

/-- Two overloads of a function. -/
def overloads : String :=
  "TranslationUnitDecl 0x1\n|-FunctionDecl 0x2 g 'int ()'\n`-FunctionDecl 0x3 g 'int (int)'\n"

def overloadWithout : Binding :=
  { target := ⟨⟨["g"], by decide, by decide⟩, "int ()", .function⟩
    symbol := "g___3b260e9284ddd9f6"
    accessor := "get_g___3b260e9284ddd9f6_address" }

def overloadWith : Binding :=
  { target := ⟨⟨["g"], by decide, by decide⟩, "int (int)", .function⟩
    symbol := "g___28165b86296ff28f"
    accessor := "get_g___28165b86296ff28f_address" }

theorem accessors_overloads :
    ∃ found kept, discover defaultSystemPrefixes overloads = .ok found ∧
      keepNameable true found.targets = .ok kept ∧
      assign kept = .ok [overloadWithout, overloadWith] ∧
      ∀ m : ModuleSpec,
        m.accessors [overloadWithout, overloadWith] =
          m.accessors [overloadWithout] ++
            overloadWith.definition "static_cast<int (*)(int)>(&g)" := by
  have hrun : ((discover defaultSystemPrefixes overloads).toOption.map Discovery.targets) =
      some [overloadWithout.target, overloadWith.target] := by
    decide +kernel
  obtain ⟨found, h, htargets⟩ := exists_discover_of_map_eq hrun
  have hkept : keepNameable true found.targets =
      .ok [overloadWithout.target, overloadWith.target] := by
    rw [htargets]
    decide +kernel
  have hassign : assign [overloadWithout.target, overloadWith.target] =
      .ok ([overloadWithout] ++ overloadWith :: []) := by
    decide +kernel
  have hover : found.IsOverloaded overloadWith.target.name := by
    rw [← isOverloaded_targets_iff h, htargets]
    decide +kernel
  refine ⟨found, _, h, hkept, hassign, fun m => ?_⟩
  obtain ⟨address, hsource, hcast, -⟩ := accessors_of_discover h hkept hassign m
  have haddress : address = "static_cast<int (*)(int)>(&g)" :=
    (hcast hover "int (*)(int)" (by decide +kernel)).trans (by decide +kernel)
  rw [haddress, List.flatMap_nil, Text.unlines_nil, String.append_empty] at hsource
  exact hsource

/-- A static member function and a member function of one name. -/
def staticAndMember : String :=
  "TranslationUnitDecl 0x1\n`-CXXRecordDecl 0x2 struct S definition\n" ++
    "  |-CXXMethodDecl 0x3 f 'int ()' static\n  `-CXXMethodDecl 0x4 f 'int (int)'\n"

def staticMember : Binding :=
  { target := ⟨⟨["S", "f"], by decide, by decide⟩, "int ()", .staticMethod⟩
    symbol := "S__f"
    accessor := "get_S__f_address" }

/-- The member function does not count, so the address of the static one is taken without a cast. -/
theorem accessors_staticAndMember :
    ∃ found kept, discover defaultSystemPrefixes staticAndMember = .ok found ∧
      (found.trails.map fun x => (x.above.filterMap Declaration.scopeName?, x.label.detail)) =
        [([], .translationUnit), ([], .record .structTag "S"),
          (["S"], .typed "f" "int ()" "static"), (["S"], .typed "f" "int (int)" "")] ∧
      keepNameable false found.targets = .ok kept ∧ assign kept = .ok [staticMember] ∧
      pointerType staticMember.target.signature = .ok "int (*)()" ∧
      ∀ m : ModuleSpec,
        m.accessors [staticMember] =
          m.accessors [] ++ staticMember.definition "std::addressof(S::f)" := by
  have hrun : ((discover defaultSystemPrefixes staticAndMember).toOption.map fun found =>
      (found.targets,
        found.trails.map fun x => (x.above.filterMap Declaration.scopeName?, x.label.detail))) =
      some ([staticMember.target],
        [([], .translationUnit), ([], .record .structTag "S"),
          (["S"], .typed "f" "int ()" "static"), (["S"], .typed "f" "int (int)" "")]) := by
    decide +kernel
  obtain ⟨found, h, hfound⟩ := exists_discover_of_map_eq hrun
  obtain ⟨htargets, htrails⟩ := Prod.mk.inj hfound
  refine ⟨found, [staticMember.target], h, htrails, ?_, by decide +kernel, by decide +kernel, ?_⟩
  · rw [htargets]
    decide +kernel
  · intro m
    have haddress : staticMember.addressExpression = "std::addressof(S::f)" := by decide +kernel
    have hsource := accessors_append_cons m [] [] staticMember
    rw [haddress, List.flatMap_nil, Text.unlines_nil, String.append_empty] at hsource
    exact hsource

end AddressExport
