import AddressExport.Proofs.Address.Table
import AddressExport.Proofs.Name.Assignment
import AddressExport.Proofs.Name.Path

/-!
# Tables that are declared by paths

The entry of a function that is declared by its path takes both its name and its accessor from the
identifiers of the path.  Reading the name back gives the identifiers again, so such an entry has
the accessor that its name derives to, or else an identifier that no accessor can hold.  So the
check of a table asks no more than that all identifiers are name-safe and that no path comes twice
(`validate_table_outcome`).
-/

namespace AddressExport

/-- What a source can call a scope or a function. -/
def PathExport.IsIdentifier (s : String) : Prop :=
  s ≠ "" ∧ ∀ c ∈ s.toList, Text.isBlank c = false ∧ c ≠ ':'

instance (s : String) : Decidable (PathExport.IsIdentifier s) :=
  decidable_of_iff (s ≠ "" ∧ s.toList.all (fun c => !Text.isBlank c && c != ':') = true)
    (by simp [PathExport.IsIdentifier])

/-- A function that is declared for export by the identifiers of its path. -/
structure PathExport where
  identifiers : List String
  signature : String
  address : Int64
  identifiers_ne_nil : identifiers ≠ []
  isIdentifier : ∀ s ∈ identifiers, PathExport.IsIdentifier s

namespace PathExport

def entry (d : PathExport) : Export := Export.ofPath d.identifiers d.signature d.address

def name (d : PathExport) : QualifiedName :=
  ⟨d.identifiers, d.identifiers_ne_nil, fun s hs => (d.isIdentifier s hs).1⟩

/-- Whether all identifiers of the path can be part of an accessor. -/
def IsSafe (d : PathExport) : Prop := ∀ s ∈ d.identifiers, validateSegment s = .ok ()

/-- Whether functions can be exported together. -/
structure AreExportable (l : List PathExport) : Prop where
  isSafe : ∀ d ∈ l, d.IsSafe
  distinct : (l.map identifiers).Nodup

/-- What is wrong with a function that stands behind some that can be exported. -/
inductive Offends (before : List PathExport) (d : PathExport) : ResolveError → Prop where
  /-- An identifier cannot be part of an accessor, and it is the first one. -/
  | identifier {front back : List String} {s : String} (h : d.identifiers = front ++ s :: back)
      (hfront : ∀ i ∈ front, validateSegment i = .ok ()) (hs : validateSegment s ≠ .ok ()) :
      Offends before d (.naming (.invalidSegment s ("::".intercalate d.identifiers)))
  /-- The path has come before. -/
  | path (hsafe : d.IsSafe) (h : d.identifiers ∈ before.map identifiers) :
      Offends before d (.duplicateAccessor ("get_" ++ "__".intercalate d.identifiers ++ "_address"))

end PathExport

theorem validateSegment_eq_ok_iff {s : String} :
    validateSegment s = .ok () ↔ isNameSafe s = true := by
  simp [validateSegment]

namespace PathExport

variable {d : PathExport} {err : ResolveError}

/-! ## One entry -/

theorem ofPath_target (d : PathExport) : QualifiedName.ofPath d.entry.target = .ok d.name := by
  apply QualifiedName.ofPath_path (n := d.name)
  intro s hs
  have hidentifier := (d.isIdentifier s hs).2
  exact ⟨fun hcolon => (hidentifier ':' hcolon).2 rfl,
    Text.isTrimmed_of_no_blank fun c hc => (hidentifier c hc).1⟩

theorem mangle_name_of_isSafe (h : d.IsSafe) :
    d.name.mangle = .ok ("__".intercalate d.identifiers) :=
  QualifiedName.mangle_eq_ok_iff.2 ⟨fun s hs => validateSegment_eq_ok_iff.1 (h s hs), rfl⟩

theorem isOf_iff {n : QualifiedName} : d.entry.IsOf n ↔ n = d.name ∧ d.IsSafe := by
  constructor
  · rintro ⟨hname, hacc⟩
    obtain rfl : d.name = n := Except.ok.inj ((ofPath_target d).symm.trans hname)
    obtain ⟨symbol, hsymbol, -⟩ := accessorOfName_eq_ok_iff.1 hacc
    have hsafe := (QualifiedName.mangle_eq_ok_iff.1 hsymbol).1
    exact ⟨rfl, fun s hs => validateSegment_eq_ok_iff.2 (hsafe s hs)⟩
  · rintro ⟨rfl, hsafe⟩
    exact ⟨ofPath_target d, accessorOfName_eq_ok_iff.2 ⟨_, mangle_name_of_isSafe hsafe, rfl⟩⟩

/-- The only thing that can be wrong with an entry by itself is an identifier. -/
theorem isMisnamed_iff :
    d.entry.IsMisnamed err ↔
      ∃ s, d.identifiers.find? (fun s => !isNameSafe s) = some s ∧
        err = .naming (.invalidSegment s ("::".intercalate d.identifiers)) := by
  have hpath := ofPath_target d
  constructor
  · intro h
    cases h with
    | path h => cases hpath.symm.trans h
    | segment hn h =>
      obtain rfl := Except.ok.inj (hpath.symm.trans hn)
      rw [accessorOfName] at h
      cases hm : d.name.mangle with
      | ok symbol => simp [hm, Except.map] at h
      | error x =>
        rw [hm] at h
        obtain ⟨s, hs, rfl⟩ := mangle_eq_error_iff.1 hm
        obtain rfl := Except.error.inj h
        exact ⟨s, hs, rfl⟩
    | mismatch hn h hne =>
      obtain rfl := Except.ok.inj (hpath.symm.trans hn)
      obtain ⟨symbol, hsymbol, rfl⟩ := accessorOfName_eq_ok_iff.1 h
      rw [(QualifiedName.mangle_eq_ok_iff.1 hsymbol).2] at hne
      exact absurd rfl hne
  · rintro ⟨s, hs, rfl⟩
    have hm : d.name.mangle = .error (.invalidSegment s d.name.path) :=
      mangle_eq_error_iff.2 ⟨s, hs, rfl⟩
    apply Export.IsMisnamed.segment hpath
    rw [accessorOfName, hm]
    rfl

/-! ## All entries -/

theorem name_eq_iff {c : PathExport} : c.name = d.name ↔ c.identifiers = d.identifiers := by
  simp [name]

theorem isSound_iff {l : List PathExport} :
    AddressTable.IsSound (l.map entry) ↔ AreExportable l := by
  have hdistinct : ((l.map entry).Pairwise fun e f =>
      ∀ n, QualifiedName.ofPath e.target = .ok n → QualifiedName.ofPath f.target ≠ .ok n) ↔
        (l.map identifiers).Nodup := by
    rw [List.Nodup, List.pairwise_map, List.pairwise_map]
    simp only [ofPath_target, Except.ok.injEq, forall_eq', ne_eq, name_eq_iff]
    constructor <;> exact fun h => h.imp Ne.symm
  constructor
  · intro h
    refine ⟨fun d hd => ?_, hdistinct.1 h.distinct⟩
    obtain ⟨n, hn⟩ := h.named d.entry (List.mem_map_of_mem hd)
    exact (isOf_iff.1 hn).2
  · intro h
    refine ⟨List.forall_mem_map.2 fun d hd => ?_, hdistinct.2 h.distinct⟩
    exact ⟨d.name, isOf_iff.2 ⟨rfl, h.isSafe d hd⟩⟩

theorem fault_iff {before : List PathExport} :
    AddressTable.Fault (before.map entry) d.entry err ↔ Offends before d err := by
  constructor
  · intro h
    cases h with
    | misnamed h =>
      obtain ⟨s, hs, rfl⟩ := isMisnamed_iff.1 h
      obtain ⟨hbad, front, back, hsplit, hfront⟩ := List.find?_eq_some_iff_append.1 hs
      apply Offends.identifier hsplit
      · exact fun i hi => validateSegment_eq_ok_iff.2 (by simpa using hfront i hi)
      · rw [ne_eq, validateSegment_eq_ok_iff]
        simpa using hbad
    | duplicate he hf hn =>
      obtain ⟨rfl, hsafe⟩ := isOf_iff.1 he
      obtain ⟨c, hc, rfl⟩ := List.mem_map.1 hf
      have hname := Except.ok.inj ((ofPath_target c).symm.trans hn)
      apply Offends.path hsafe
      exact List.mem_map.2 ⟨c, hc, name_eq_iff.1 hname⟩
  · intro h
    cases h with
    | identifier hsplit hfront hs =>
      apply AddressTable.Fault.misnamed
      refine isMisnamed_iff.2 ⟨_, List.find?_eq_some_iff_append.2 ⟨?_, _, _, hsplit, ?_⟩, rfl⟩
      · rw [ne_eq, validateSegment_eq_ok_iff] at hs
        simpa using hs
      · intro i hi
        simpa using validateSegment_eq_ok_iff.1 (hfront i hi)
    | path hsafe hmem =>
      obtain ⟨c, hc, hids⟩ := List.mem_map.1 hmem
      have hname : QualifiedName.ofPath c.entry.target = .ok d.name := by
        rw [ofPath_target, name_eq_iff.2 hids]
      exact .duplicate (isOf_iff.2 ⟨rfl, hsafe⟩) (List.mem_map_of_mem hc) hname

/-- The table of functions that are declared by their paths. -/
def table (l : List PathExport) : AddressTable := ⟨l.map entry⟩

theorem validate_table_eq_error_iff {l : List PathExport} :
    (table l).validate = .error err ↔
      ∃ before d after, l = before ++ d :: after ∧ AreExportable before ∧ Offends before d err := by
  rw [AddressTable.validate_eq_error_iff]
  constructor
  · rintro ⟨before, e, after, hl, hbefore, hfault⟩
    obtain ⟨front, rest, rfl, rfl, hrest⟩ := List.map_eq_append_iff.1 hl
    obtain ⟨d, back, rfl, rfl, -⟩ := List.map_eq_cons_iff.1 hrest
    exact ⟨front, d, back, rfl, isSound_iff.1 hbefore, fault_iff.1 hfault⟩
  · rintro ⟨before, d, after, rfl, hbefore, hoffends⟩
    refine ⟨before.map entry, d.entry, after.map entry, ?_, isSound_iff.2 hbefore,
      fault_iff.2 hoffends⟩
    simp [table]

/-- The table of functions that are declared by their paths passes exactly if all identifiers are
name-safe and the paths are distinct.  Otherwise the first function that breaks this is reported, by
its first identifier that is not name-safe or by the accessor that comes again; no accessor differs
from the derived one, and no segment is found to be empty. -/
theorem validate_table_outcome (l : List PathExport) :
    ((table l).entries.map (fun e => (e.target, e.accessor)) = l.map fun d =>
      ("::".intercalate d.identifiers, "get_" ++ "__".intercalate d.identifiers ++ "_address")) ∧
    ((table l).validate = .ok () ↔
      (∀ d ∈ l, ∀ s ∈ d.identifiers, validateSegment s = .ok ()) ∧ (l.map identifiers).Nodup) ∧
    (∀ err, (table l).validate = .error err ↔
      ∃ before d after, l = before ++ d :: after ∧ AreExportable before ∧ Offends before d err) ∧
    (∀ target accessor expected,
      (table l).validate ≠ .error (.mismatch target accessor expected)) ∧
    ∀ path, (table l).validate ≠ .error (.naming (.emptySegment path)) := by
  refine ⟨?_, ?_, fun err => validate_table_eq_error_iff, fun target accessor expected h => ?_,
    fun path h => ?_⟩
  · rw [table, List.map_map]
    rfl
  · rw [AddressTable.validate_eq_ok_iff]
    apply isSound_iff.trans
    exact ⟨fun h => ⟨h.isSafe, h.distinct⟩, fun h => ⟨h.1, h.2⟩⟩
  · obtain ⟨_, _, _, _, _, hoffends⟩ := validate_table_eq_error_iff.1 h
    cases hoffends
  · obtain ⟨_, _, _, _, _, hoffends⟩ := validate_table_eq_error_iff.1 h
    cases hoffends

/-- Two paths whose accessors would be one: the identifier with a `__` is refused first. -/
example :
    (table [⟨["a", "b", "c"], "", 1, by decide, by decide⟩,
      ⟨["a", "b__c"], "", 2, by decide, by decide⟩]).validate =
      .error (.naming (.invalidSegment "b__c" "a::b__c")) := by
  decide +kernel

end PathExport

end AddressExport
