import AddressExport.Proofs.Name.Spelling

/-!
# Accessors that are targets themselves

Accessors are functions outside every namespace, and their names are compared with each other but
not with the names of the targets.  So a target can be called like the accessor of another one.
This takes a target `f` outside every namespace that has no overloads, and a second target
`get_f_address` (`accessor_eq_path_iff`): every other accessor has a `__`, and no name with one can
be exported.
-/

namespace AddressExport

/-! ## Paths -/

namespace QualifiedName

theorem path_of_segments_eq {n : QualifiedName} {s : String} (h : n.segments = [s]) :
    n.path = s := by
  rw [path, h]
  rfl

/-- A path that is a word has one segment. -/
theorem segments_eq_of_isWord_path {n : QualifiedName} (h : IsWord n.path.toList) :
    n.segments = [n.path] := by
  match hn : n.segments with
  | [] => exact absurd hn n.segments_ne_nil
  | [s] => rw [path_of_segments_eq hn]
  | s :: t :: rest =>
    have hcolon : ':' ∈ n.path.toList := by
      rw [path, hn, String.toList_intercalate, List.map_cons, List.map_cons,
        List.intercalate_cons_cons]
      simp
    exact absurd hcolon (h.not_mem (by decide))

/-- A mangled name without `__` has one segment. -/
theorem segments_eq_of_not_contains {n : QualifiedName} {symbol : String}
    (h : n.mangle = .ok symbol) (hpair : Text.contains ['_', '_'] symbol.toList = false) :
    n.segments = [symbol] := by
  have hsymbol := (mangle_eq_ok_iff.1 h).2
  match hn : n.segments with
  | [] => exact absurd hn n.segments_ne_nil
  | [s] => rw [hsymbol, hn]; rfl
  | s :: t :: rest =>
    rw [toList_of_mangle h, hn, List.map_cons, List.map_cons, List.intercalate_cons_cons,
      List.append_assoc, Text.contains_append] at hpair
    cases hpair

end QualifiedName

/-! ## Accessors -/

theorem accessorOfSymbol_eq (symbol : String) :
    accessorOfSymbol symbol = "get_" ++ symbol ++ "_address" := rfl

theorem not_contains_of_accessor {symbol : String}
    (h : Text.contains ['_', '_'] (accessorOfSymbol symbol).toList = false) :
    Text.contains ['_', '_'] symbol.toList = false := by
  rw [Bool.eq_false_iff, ne_eq, Text.contains_eq_true_iff] at h ⊢
  intro hsymbol
  rw [toList_accessorOfSymbol, ← List.append_assoc] at h
  exact h (hsymbol.trans (List.infix_append _ _ _))

theorem isOverload_eq_false_of_not_contains {b : Binding}
    (h : Text.contains ['_', '_'] b.symbol.toList = false) : b.isOverload = false :=
  Text.contains_triple_of_contains_pair h

section Assigned

variable {targets : List Target} {bindings : List Binding} (h : assign targets = .ok bindings)
  {b : Binding} (hb : b ∈ bindings)

include h hb

theorem mangle_of_not_isOverload (halone : b.isOverload = false) :
    b.target.name.mangle = .ok b.symbol := by
  obtain ⟨-, hbind, -⟩ := assign_eq_ok_iff.1 h
  obtain ⟨symbol, hsymbol, hbe⟩ := bindAmong_eq_ok_iff.1 (bindAmong_of_mem hbind hb)
  rw [isOverload_eq_isOverloaded hbind hb] at halone
  have htag : tagAmong targets b.target = none := by simp [tagAmong, halone]
  rw [htag] at hbe
  rw [hsymbol, hbe]
  rfl

/-- An accessor is also the path of a target exactly if its own target is a name `f` of one segment
without overloads, and the other target is `get_f_address`. -/
theorem accessor_eq_path_iff {t : Target} (ht : t ∈ targets) :
    b.accessor = t.name.path ↔
      ∃ f, b.target.name.segments = [f] ∧ b.isOverload = false ∧
        t.name.segments = ["get_" ++ f ++ "_address"] := by
  obtain ⟨-, hbind, -⟩ := assign_eq_ok_iff.1 h
  have haccessor := accessor_eq_of_mem_bindings hbind hb
  constructor
  · intro hpath
    have hsegments : t.name.segments = [b.accessor] := by
      rw [hpath]
      apply QualifiedName.segments_eq_of_isWord_path
      rw [← hpath]
      exact isWord_accessor_of_mem_bindings hbind hb
    -- the one segment of the other target is name-safe, so there is no `__` in the accessor
    have hpair : Text.contains ['_', '_'] b.symbol.toList = false := by
      obtain ⟨symbol, hsymbol⟩ := exists_bindings_iff.1 ⟨bindings, hbind⟩ t ht
      have hsafe := (QualifiedName.mangle_eq_ok_iff.1 hsymbol).1 b.accessor (by simp [hsegments])
      rw [haccessor] at hsafe
      exact not_contains_of_accessor (isPiece_of_isNameSafe hsafe).no_pair
    have halone := isOverload_eq_false_of_not_contains hpair
    have hmangle := mangle_of_not_isOverload h hb halone
    refine ⟨b.symbol, QualifiedName.segments_eq_of_not_contains hmangle hpair, halone, ?_⟩
    rw [hsegments, haccessor, accessorOfSymbol_eq]
  · rintro ⟨f, hf, halone, htarget⟩
    have hsymbol := (QualifiedName.mangle_eq_ok_iff.1 (mangle_of_not_isOverload h hb halone)).2
    have hbf : b.symbol = f := by
      rw [hsymbol, hf]
      rfl
    rw [QualifiedName.path_of_segments_eq htarget, haccessor, hbf, accessorOfSymbol_eq]

end Assigned

/-- A function, and another one that is called like its accessor. -/
def fooAndGetFoo : List Target :=
  [⟨⟨["foo"], by decide, by decide⟩, "int (int)", .function⟩,
    ⟨⟨["get_foo_address"], by decide, by decide⟩, "long ()", .function⟩]

def bindingOfFoo : Binding :=
  ⟨⟨⟨["foo"], by decide, by decide⟩, "int (int)", .function⟩, "foo", "get_foo_address"⟩

def bindingOfGetFoo : Binding :=
  ⟨⟨⟨["get_foo_address"], by decide, by decide⟩, "long ()", .function⟩, "get_foo_address",
    "get_get_foo_address_address"⟩

theorem accessor_eq_path_getFoo :
    assign fooAndGetFoo = .ok [bindingOfFoo, bindingOfGetFoo] ∧
      bindingOfFoo.accessor = bindingOfGetFoo.target.name.path ∧
      ∃ f, bindingOfFoo.target.name.segments = [f] ∧ bindingOfFoo.isOverload = false ∧
        bindingOfGetFoo.target.name.segments = ["get_" ++ f ++ "_address"] := by
  have hassign : assign fooAndGetFoo = .ok [bindingOfFoo, bindingOfGetFoo] := by decide +kernel
  have hiff := accessor_eq_path_iff hassign (b := bindingOfFoo) (by simp)
    (t := bindingOfGetFoo.target) (by simp [fooAndGetFoo, bindingOfGetFoo])
  exact ⟨hassign, rfl, hiff.1 rfl⟩

/-- So an accessor is not always a new name. -/
theorem not_forall_accessor_ne_path :
    ¬ ∀ targets bindings, assign targets = .ok bindings →
      ∀ b ∈ bindings, ∀ t ∈ targets, b.accessor ≠ t.name.path := by
  intro hnew
  have hassign : assign fooAndGetFoo = .ok [bindingOfFoo, bindingOfGetFoo] := by decide +kernel
  exact hnew _ _ hassign bindingOfFoo (by simp) bindingOfGetFoo.target
    (by simp [fooAndGetFoo, bindingOfGetFoo]) rfl

end AddressExport
