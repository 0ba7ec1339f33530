import AddressExport.Address.Table
import AddressExport.Proofs.Name.Decoding
import Mathlib.Data.List.Induction
import Mathlib.Data.List.Nodup

/-!
# Tables that pass the check

A table passes exactly if each entry has the accessor that its name derives to, and no name comes
twice (`IsSound`).  Otherwise the check stops at the entry behind the longest sound start of the
table.

A name is looked up by way of the accessor, so the address of another function could be found if
accessors came twice.  In a sound table they do not: an accessor is read back as the name it was
derived from, so two entries with one accessor have one name.
-/

namespace AddressExport

namespace Export

/-- The entry is that of a function with the given name. -/
structure IsOf (e : Export) (n : QualifiedName) : Prop where
  name_eq : QualifiedName.ofPath e.target = .ok n
  accessor_eq : accessorOfName n = .ok e.accessor

/-- The entry is that of no function, for the given reason. -/
inductive IsMisnamed (e : Export) : ResolveError → Prop where
  | path {x : NameError} (h : QualifiedName.ofPath e.target = .error x) : IsMisnamed e (.naming x)
  | segment {n : QualifiedName} {x : NameError} (hn : QualifiedName.ofPath e.target = .ok n)
      (h : accessorOfName n = .error x) : IsMisnamed e (.naming x)
  | mismatch {n : QualifiedName} {expected : String} (hn : QualifiedName.ofPath e.target = .ok n)
      (h : accessorOfName n = .ok expected) (hne : expected ≠ e.accessor) :
      IsMisnamed e (.mismatch e.target e.accessor expected)

theorem checkDerived_of_isOf {e : Export} {n : QualifiedName} (h : e.IsOf n) :
    e.checkDerived = .ok () := by
  simp [checkDerived, derivedAccessor, qualifiedName, h.name_eq, h.accessor_eq, Except.mapError,
    bind, Except.bind]

theorem checkDerived_of_isMisnamed {e : Export} {err : ResolveError} (h : e.IsMisnamed err) :
    e.checkDerived = .error err := by
  cases h with
  | path h =>
    simp [checkDerived, derivedAccessor, qualifiedName, h, Except.mapError, bind, Except.bind]
  | segment hn h =>
    simp [checkDerived, derivedAccessor, qualifiedName, hn, h, Except.mapError, bind, Except.bind]
  | mismatch hn h hne =>
    simp [checkDerived, derivedAccessor, qualifiedName, hn, h, hne, Except.mapError, bind,
      Except.bind]

theorem exists_isOf_or_isMisnamed (e : Export) : (∃ n, e.IsOf n) ∨ ∃ err, e.IsMisnamed err := by
  cases hn : QualifiedName.ofPath e.target with
  | error x => exact .inr ⟨_, .path hn⟩
  | ok n =>
    cases ha : accessorOfName n with
    | error x => exact .inr ⟨_, .segment hn ha⟩
    | ok expected =>
      by_cases hexpected : expected = e.accessor
      · exact .inl ⟨n, hn, hexpected ▸ ha⟩
      · exact .inr ⟨_, .mismatch hn ha hexpected⟩

/-- The address of an entry, or why it has none. -/
def ownAddress (e : Export) : Except ResolveError Int64 :=
  if e.address = 0 then .error (.nullAddress e.accessor) else .ok e.address

end Export

namespace AddressTable

/-! ## Sound entries -/

/-- Every entry is that of a function, and no two names are the same. -/
structure IsSound (entries : List Export) : Prop where
  named : ∀ e ∈ entries, ∃ n, e.IsOf n
  distinct : entries.Pairwise fun e f =>
    ∀ n, QualifiedName.ofPath e.target = .ok n → QualifiedName.ofPath f.target ≠ .ok n

/-- What is wrong with an entry that stands behind sound ones. -/
inductive Fault (before : List Export) (e : Export) : ResolveError → Prop where
  | misnamed {err : ResolveError} (h : e.IsMisnamed err) : Fault before e err
  | duplicate {n : QualifiedName} {f : Export} (he : e.IsOf n) (hf : f ∈ before)
      (hn : QualifiedName.ofPath f.target = .ok n) : Fault before e (.duplicateAccessor e.accessor)

theorem isSound_nil : IsSound [] := ⟨by simp, List.Pairwise.nil⟩

theorem IsSound.of_append {before after : List Export} (h : IsSound (before ++ after)) :
    IsSound before :=
  ⟨fun e he => h.named e (List.mem_append_left after he), (List.pairwise_append.1 h.distinct).1⟩

theorem IsSound.append_singleton {before : List Export} (h : IsSound before) {e : Export}
    {n : QualifiedName} (he : e.IsOf n)
    (hnew : ∀ f ∈ before, QualifiedName.ofPath f.target ≠ .ok n) : IsSound (before ++ [e]) := by
  refine ⟨fun f hf => ?_, List.pairwise_append.2 ⟨h.distinct, List.pairwise_singleton _ _, ?_⟩⟩
  · rcases List.mem_append.1 hf with hf | hf
    · exact h.named f hf
    · rw [List.mem_singleton] at hf
      exact ⟨n, hf ▸ he⟩
  · intro f hf g hg m hm
    rw [List.mem_singleton] at hg
    subst hg
    rw [he.name_eq, ne_eq, Except.ok.injEq]
    rintro rfl
    exact hnew f hf hm

/-- Behind sound entries, an accessor comes again exactly if its name does. -/
theorem IsSound.accessor_mem_iff {before : List Export} (h : IsSound before) {e : Export}
    {n : QualifiedName} (he : e.IsOf n) :
    e.accessor ∈ before.map Export.accessor ↔
      ∃ f ∈ before, QualifiedName.ofPath f.target = .ok n := by
  rw [List.mem_map]
  constructor
  · rintro ⟨f, hf, hacc⟩
    obtain ⟨m, hm⟩ := h.named f hf
    have hmn : m = n := accessorOfName_injective hm.accessor_eq (hacc ▸ he.accessor_eq)
    exact ⟨f, hf, hmn ▸ hm.name_eq⟩
  · rintro ⟨f, hf, hn⟩
    obtain ⟨m, hm⟩ := h.named f hf
    have hmn : m = n := Except.ok.inj (hm.name_eq.symm.trans hn)
    have hacc := hm.accessor_eq
    rw [hmn, he.accessor_eq, Except.ok.injEq] at hacc
    exact ⟨f, hf, hacc.symm⟩

/-! ## The check -/

/-- One step of the check: an entry that keeps the table sound is passed over. -/
theorem validateFrom_cons {before : List Export} {e : Export} (h : IsSound (before ++ [e]))
    (after : List Export) :
    validateFrom (before.map Export.accessor) (e :: after) =
      validateFrom ((before ++ [e]).map Export.accessor) after := by
  obtain ⟨n, he⟩ := h.named e (by simp)
  have hnew : e.accessor ∉ before.map Export.accessor := by
    rw [h.of_append.accessor_mem_iff he]
    rintro ⟨f, hf, hn⟩
    exact (List.pairwise_append.1 h.distinct).2.2 f hf e (List.mem_singleton_self e) n hn he.name_eq
  simp only [validateFrom, Export.checkDerived_of_isOf he, bind, Except.bind, if_neg hnew,
    List.map_append, List.map_cons, List.map_nil]

theorem validateFrom_cons_of_fault {before : List Export} (hbefore : IsSound before) {e : Export}
    {err : ResolveError} (h : Fault before e err) (after : List Export) :
    validateFrom (before.map Export.accessor) (e :: after) = .error err := by
  cases h with
  | misnamed hbad =>
    simp only [validateFrom, Export.checkDerived_of_isMisnamed hbad, bind, Except.bind]
  | duplicate he hf hn =>
    have hseen := (hbefore.accessor_mem_iff he).2 ⟨_, hf, hn⟩
    simp only [validateFrom, Export.checkDerived_of_isOf he, bind, Except.bind, if_pos hseen]

/-- A run of the check: all entries of a sound start are passed over. -/
theorem validateFrom_append {before entries : List Export} (h : IsSound (before ++ entries))
    (after : List Export) :
    validateFrom (before.map Export.accessor) (entries ++ after) =
      validateFrom ((before ++ entries).map Export.accessor) after := by
  induction entries generalizing before with
  | nil => rw [List.nil_append, List.append_nil]
  | cons e entries ih =>
    have hsplit : before ++ e :: entries = (before ++ [e]) ++ entries := by simp
    rw [hsplit] at h ⊢
    rw [List.cons_append, validateFrom_cons h.of_append, ih h]

theorem isSound_or_fault {before : List Export} (h : IsSound before) (e : Export) :
    IsSound (before ++ [e]) ∨ ∃ err, Fault before e err := by
  rcases e.exists_isOf_or_isMisnamed with ⟨n, he⟩ | ⟨err, hbad⟩
  · by_cases hold : ∃ f ∈ before, QualifiedName.ofPath f.target = .ok n
    · obtain ⟨f, hf, hn⟩ := hold
      exact .inr ⟨_, .duplicate he hf hn⟩
    · refine .inl (h.append_singleton he fun f hf hn => hold ⟨f, hf, hn⟩)
  · exact .inr ⟨err, .misnamed hbad⟩

theorem isSound_or_exists_fault (entries : List Export) :
    IsSound entries ∨ ∃ before e after err,
      entries = before ++ e :: after ∧ IsSound before ∧ Fault before e err := by
  induction entries using List.reverseRecOn with
  | nil => exact .inl isSound_nil
  | append_singleton entries e ih =>
    rcases ih with h | ⟨before, f, after, err, rfl, hbefore, hf⟩
    · rcases isSound_or_fault h e with hsound | ⟨err, hfault⟩
      · exact .inl hsound
      · exact .inr ⟨entries, e, [], err, rfl, h, hfault⟩
    · exact .inr ⟨before, f, after ++ [e], err, by simp, hbefore, hf⟩

theorem validate_of_isSound {t : AddressTable} (h : IsSound t.entries) : t.validate = .ok () := by
  have hrun := @validateFrom_append [] t.entries h []
  rw [List.append_nil] at hrun
  exact hrun.trans rfl

theorem validate_of_fault {t : AddressTable} {before after : List Export} {e : Export}
    {err : ResolveError} (ht : t.entries = before ++ e :: after) (hbefore : IsSound before)
    (h : Fault before e err) : t.validate = .error err := by
  have hrun := @validateFrom_append [] before hbefore (e :: after)
  rw [validate, ht]
  exact hrun.trans (validateFrom_cons_of_fault hbefore h after)

theorem validate_eq_ok_iff {t : AddressTable} : t.validate = .ok () ↔ IsSound t.entries := by
  refine ⟨fun h => ?_, validate_of_isSound⟩
  rcases isSound_or_exists_fault t.entries with
    hsound | ⟨before, e, after, err, ht, hbefore, hfault⟩
  · exact hsound
  · rw [validate_of_fault ht hbefore hfault] at h
    cases h

theorem validate_eq_error_iff {t : AddressTable} {err : ResolveError} :
    t.validate = .error err ↔
      ∃ before e after, t.entries = before ++ e :: after ∧ IsSound before ∧ Fault before e err := by
  constructor
  · intro h
    rcases isSound_or_exists_fault t.entries with
      hsound | ⟨before, e, after, err', ht, hbefore, hfault⟩
    · rw [validate_of_isSound hsound] at h
      cases h
    · rw [validate_of_fault ht hbefore hfault, Except.error.injEq] at h
      exact ⟨before, e, after, ht, hbefore, h ▸ hfault⟩
  · rintro ⟨before, e, after, ht, hbefore, hfault⟩
    exact validate_of_fault ht hbefore hfault

/-! ## Looking up -/

theorem find?_eq_some_of_nodup {α κ : Type} [DecidableEq κ] {key : α → κ} {l : List α}
    (h : (l.map key).Nodup) {a : α} (ha : a ∈ l) :
    (l.find? fun b => key b = key a) = some a := by
  cases hfind : l.find? fun b => key b = key a with
  | none => simpa using List.find?_eq_none.1 hfind a ha
  | some b =>
    have hkey : key b = key a := by simpa using List.find?_some hfind
    rw [List.inj_on_of_nodup_map h (List.mem_of_find?_eq_some hfind) ha hkey]

section Sound

variable {t : AddressTable} (h : IsSound t.entries) {e : Export} (he : e ∈ t.entries)

include h

theorem IsSound.nodup_target : (t.entries.map Export.target).Nodup := by
  rw [List.Nodup, List.pairwise_map]
  refine h.distinct.imp_of_mem fun {e f} he _ hne htarget => ?_
  obtain ⟨n, hn⟩ := h.named e he
  exact hne n hn.name_eq (htarget ▸ hn.name_eq)

theorem IsSound.nodup_accessor : (t.entries.map Export.accessor).Nodup := by
  rw [List.Nodup, List.pairwise_map]
  refine h.distinct.imp_of_mem fun {e f} he hf hne hacc => ?_
  obtain ⟨m, hm⟩ := h.named e he
  obtain ⟨n, hn⟩ := h.named f hf
  have hmn : m = n := accessorOfName_injective hm.accessor_eq (hacc ▸ hn.accessor_eq)
  exact hne m hm.name_eq (hmn ▸ hn.name_eq)

include he

theorem byAccessor?_of_isSound : t.byAccessor? e.accessor = some e :=
  find?_eq_some_of_nodup h.nodup_accessor he

theorem byTarget?_of_isSound : t.byTarget? e.target = some e :=
  find?_eq_some_of_nodup h.nodup_target he

theorem addressOf_of_isSound : t.addressOf e.accessor = e.ownAddress := by
  rw [addressOf, byAccessor?_of_isSound h he, Export.ownAddress]

theorem addressOfTarget_of_isSound : t.addressOfTarget e.target = e.ownAddress := by
  rw [addressOfTarget, byTarget?_of_isSound h he]
  exact addressOf_of_isSound h he

end Sound

theorem addressOf_of_not_mem {t : AddressTable} {accessor : String}
    (h : accessor ∉ t.entries.map Export.accessor) :
    t.addressOf accessor = .error (.unknownAccessor accessor) := by
  have hnone : t.byAccessor? accessor = none := by
    simpa [byAccessor?] using h
  rw [addressOf, hnone]

theorem addressOfTarget_of_not_mem {t : AddressTable} {target : String}
    (h : target ∉ t.entries.map Export.target) :
    t.addressOfTarget target = .error (.unknownTarget target) := by
  have hnone : t.byTarget? target = none := by
    simpa [byTarget?] using h
  rw [addressOfTarget, hnone]

/-- What the check of a table comes to, and what it is good for.  A table passes exactly if it is
sound, and otherwise the first entry that breaks this is reported.  In a table that passes, every
look-up comes to the entry itself and to its own address; what is not in a table is not found. -/
theorem validate_outcome (t : AddressTable) :
    (t.validate = .ok () ↔ IsSound t.entries) ∧
    (∀ err, t.validate = .error err ↔
      ∃ before e after, t.entries = before ++ e :: after ∧ IsSound before ∧ Fault before e err) ∧
    (t.validate = .ok () → ∀ e ∈ t.entries,
      t.byAccessor? e.accessor = some e ∧ t.byTarget? e.target = some e ∧
      t.addressOf e.accessor = e.ownAddress ∧ t.addressOfTarget e.target = e.ownAddress) ∧
    (∀ accessor, accessor ∉ t.entries.map Export.accessor →
      t.addressOf accessor = .error (.unknownAccessor accessor)) ∧
    ∀ target, target ∉ t.entries.map Export.target →
      t.addressOfTarget target = .error (.unknownTarget target) := by
  refine ⟨validate_eq_ok_iff, fun err => validate_eq_error_iff, fun hok e he => ?_,
    fun _ => addressOf_of_not_mem, fun _ => addressOfTarget_of_not_mem⟩
  have h := validate_eq_ok_iff.1 hok
  exact ⟨byAccessor?_of_isSound h he, byTarget?_of_isSound h he, addressOf_of_isSound h he,
    addressOfTarget_of_isSound h he⟩

/-- Two functions, of which one has no address. -/
def twoExports : AddressTable :=
  ⟨[Export.ofPath ["f"] "void ()" 0, Export.ofPath ["ns", "g"] "int (int)" 4096]⟩

theorem lookups_twoExports :
    twoExports.validate = .ok () ∧
      twoExports.addressOf "get_f_address" = .error (.nullAddress "get_f_address") ∧
      twoExports.addressOfTarget "ns::g" = .ok 4096 ∧
      twoExports.addressOfTarget "g" = .error (.unknownTarget "g") := by
  obtain ⟨-, -, hlookup, -, hunknown⟩ := validate_outcome twoExports
  have hok : twoExports.validate = .ok () := by decide +kernel
  obtain ⟨-, -, hf, -⟩ := hlookup hok (Export.ofPath ["f"] "void ()" 0) (by simp [twoExports])
  obtain ⟨-, -, -, hg⟩ :=
    hlookup hok (Export.ofPath ["ns", "g"] "int (int)" 4096) (by simp [twoExports])
  exact ⟨hok, hf, hg, hunknown "g" (by decide +kernel)⟩

end AddressTable

end AddressExport
