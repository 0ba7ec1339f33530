import AddressExport.Name.Binding
import AddressExport.Proofs.Name.Decoding
import AddressExport.Proofs.Repeat
import AddressExport.Proofs.Traverse
import Mathlib.Data.Finset.Card

/-!
# Which targets get accessors

`assign` succeeds exactly if no target comes twice, every name can be exported, and the overloads of
one name have different tags.  The last condition is the only one that depends on the hash: since
accessors are read back (`decodeAccessor_bindAmong`), two of them are equal only if the names are,
and the tags (`accessor_eq_iff`).

A name is overloaded if several targets have it.  As no target may come twice, these are targets
with several signatures (`isOverloaded_iff_several`).

Two positions of a list are given as a sublist: `[t, u].Sublist targets` says that `t` stands
somewhere in front of `u`.
-/

namespace AddressExport

/-! ## The three conditions -/

/-- No two targets have one name and, up to blanks, one signature. -/
def AreDistinct (targets : List Target) : Prop :=
  targets.Pairwise fun t u =>
    t.name = u.name → normalizeSignature t.signature ≠ normalizeSignature u.signature

instance (targets : List Target) : Decidable (AreDistinct targets) :=
  inferInstanceAs (Decidable (List.Pairwise _ _))

/-- The name can be exported. -/
def Target.IsNameable (t : Target) : Prop := ∃ symbol, t.name.mangle = .ok symbol

/-- No two targets of one name have one tag. -/
def TagsDiffer (targets : List Target) : Prop :=
  targets.Pairwise fun t u => t.name = u.name → overloadTag t.signature ≠ overloadTag u.signature

theorem areDistinct_iff_nodup {targets : List Target} :
    AreDistinct targets ↔ (targets.map Target.identity).Nodup := by
  simp only [AreDistinct, List.Nodup, List.pairwise_map, Target.identity, ne_eq, Prod.mk.injEq,
    not_and]

theorem areDistinct_congr {targets others : List Target} (h : targets.Perm others) :
    AreDistinct targets ↔ AreDistinct others := by
  rw [areDistinct_iff_nodup, areDistinct_iff_nodup]
  exact (h.map Target.identity).nodup_iff

theorem checkDistinct_eq_ok_iff {targets : List Target} :
    checkDistinct targets = .ok () ↔ AreDistinct targets := by
  rw [areDistinct_iff_nodup, ← firstRepeat?_eq_none_iff]
  unfold checkDistinct
  split
  · next h => simp [h]
  · next h => simp [h]

theorem checkDistinct_eq_error_iff {targets : List Target} {e : NameError} :
    checkDistinct targets = .error e ↔
      ∃ before t after, targets = before ++ t :: after ∧ AreDistinct before ∧
        (∃ u ∈ before, u.identity = t.identity) ∧
        e = .duplicateTarget t.name.path (normalizeSignature t.signature) := by
  unfold checkDistinct
  constructor
  · intro h
    split at h
    · next u t hr =>
      obtain ⟨before, after, hl, hnodup, hu, hut⟩ := firstRepeat?_eq_some_iff.1 hr
      exact ⟨before, t, after, hl, areDistinct_iff_nodup.2 hnodup, ⟨u, hu, hut⟩,
        (Except.error.inj h).symm⟩
    · cases h
  · rintro ⟨before, t, after, hl, hdistinct, ⟨u, hu, hut⟩, rfl⟩
    have hr : firstRepeat? Target.identity targets = some (u, t) :=
      firstRepeat?_eq_some_iff.2 ⟨before, after, hl, areDistinct_iff_nodup.1 hdistinct, hu, hut⟩
    simp only [hr]

theorem checkUnique_eq_ok_iff {bindings : List Binding} :
    checkUnique bindings = .ok () ↔ (bindings.map Binding.accessor).Nodup := by
  rw [← firstRepeat?_eq_none_iff]
  unfold checkUnique
  split
  · next h => simp [h]
  · next h => simp [h]

theorem checkUnique_eq_error_iff {bindings : List Binding} {e : NameError} :
    checkUnique bindings = .error e ↔
      ∃ before b after a, bindings = before ++ b :: after ∧ (before.map Binding.accessor).Nodup ∧
        a ∈ before ∧ a.accessor = b.accessor ∧
        e = .collision b.accessor a.target.describe b.target.describe := by
  unfold checkUnique
  constructor
  · intro h
    split at h
    · next a b hr =>
      obtain ⟨before, after, hl, hnodup, ha, hab⟩ := firstRepeat?_eq_some_iff.1 hr
      exact ⟨before, b, after, a, hl, hnodup, ha, hab, (Except.error.inj h).symm⟩
    · cases h
  · rintro ⟨before, b, after, a, hl, hnodup, ha, hab, rfl⟩
    have hr : firstRepeat? Binding.accessor bindings = some (a, b) :=
      firstRepeat?_eq_some_iff.2 ⟨before, after, hl, hnodup, ha, hab⟩
    simp only [hr]

/-- Bindings pass exactly if no accessor comes twice.  Otherwise the failure names the first
accessor that comes again, the target that had it before, and the target that has it again. -/
theorem checkUnique_outcome (bindings : List Binding) :
    (checkUnique bindings = .ok () ↔ (bindings.map Binding.accessor).Nodup) ∧
    (¬ (bindings.map Binding.accessor).Nodup →
      ∃ i j a b, bindings[i]? = some a ∧ bindings[j]? = some b ∧
      IsFirstRepeat (bindings.map Binding.accessor) i j ∧
      checkUnique bindings =
        .error (.collision b.accessor a.target.describe b.target.describe)) := by
  refine ⟨checkUnique_eq_ok_iff, fun hrepeated => ?_⟩
  cases h : firstRepeat? Binding.accessor bindings with
  | none => exact absurd (firstRepeat?_eq_none_iff.1 h) hrepeated
  | some found =>
    obtain ⟨a, b⟩ := found
    obtain ⟨i, j, hi, hj, hrepeat⟩ := exists_isFirstRepeat h
    exact ⟨i, j, a, b, hi, hj, hrepeat, by simp only [checkUnique, h]⟩

theorem mangle_eq_error_iff {n : QualifiedName} {e : NameError} :
    n.mangle = .error e ↔
      ∃ segment, n.segments.find? (fun s => !isNameSafe s) = some segment ∧
        e = .invalidSegment segment n.path := by
  unfold QualifiedName.mangle
  split
  · next s hs => simp [hs, eq_comm]
  · next hs => simp [hs]

/-! ## Symbols among targets -/

/-- The tag of one of the targets, if it has overloads among them. -/
def tagAmong (targets : List Target) (t : Target) : Option String :=
  if isOverloaded targets t.name then some (overloadTag t.signature) else none

theorem isTagText_of_mem_tagAmong {targets : List Target} {t : Target} :
    ∀ tag ∈ tagAmong targets t, IsTagText tag := by
  intro tag h
  unfold tagAmong at h
  split at h
  · obtain rfl := Option.mem_some_iff.1 h
    exact isTag_toList_eq_true_iff.1 (isTag_overloadTag _)
  · cases h

theorem symbolAmong_of_mangle {targets : List Target} {t : Target} {symbol : String}
    (h : t.name.mangle = .ok symbol) :
    symbolAmong targets t = .ok (withTag symbol (tagAmong targets t)) := by
  unfold symbolAmong tagAmong
  split
  · exact taggedSymbol_of_mangle h t.signature
  · exact h

theorem bindAmong_eq_ok_iff {targets : List Target} {t : Target} {b : Binding} :
    bindAmong targets t = .ok b ↔
      ∃ symbol, t.name.mangle = .ok symbol ∧
        b = ⟨t, withTag symbol (tagAmong targets t),
          accessorOfSymbol (withTag symbol (tagAmong targets t))⟩ := by
  unfold bindAmong
  cases h : t.name.mangle with
  | error e =>
    have : symbolAmong targets t = .error e := by
      unfold symbolAmong taggedSymbol
      simp [h, Except.map]
    simp [this, Except.map]
  | ok symbol => simp [symbolAmong_of_mangle h, Except.map, eq_comm]

theorem bindAmong_eq_error_iff {targets : List Target} {t : Target} {e : NameError} :
    bindAmong targets t = .error e ↔ t.name.mangle = .error e := by
  unfold bindAmong
  cases h : t.name.mangle with
  | error e =>
    have : symbolAmong targets t = .error e := by
      unfold symbolAmong taggedSymbol
      simp [h, Except.map]
    simp [this, Except.map]
  | ok symbol => simp [symbolAmong_of_mangle h, Except.map]

/-- Reading the accessor of a target gives its name, and its tag if it has overloads. -/
theorem decodeAccessor_bindAmong {targets : List Target} {t : Target} {b : Binding}
    (h : bindAmong targets t = .ok b) :
    decodeAccessor b.accessor = .ok (t.name, tagAmong targets t) := by
  obtain ⟨symbol, hsymbol, rfl⟩ := bindAmong_eq_ok_iff.1 h
  exact decodeAccessor_eq_ok_iff.2 ⟨symbol, hsymbol, isTagText_of_mem_tagAmong, rfl⟩

theorem isOverload_eq_isSome {n : QualifiedName} {symbol : String} (h : n.mangle = .ok symbol)
    (tag : Option String) :
    Text.contains "___".toList (withTag symbol tag).toList = tag.isSome := by
  cases tag with
  | none => exact QualifiedName.contains_triple_of_mangle h
  | some tag =>
    simp only [withTag, String.toList_append, Option.isSome_some, List.append_assoc]
    exact Text.contains_append _ _ _

/-! ## Overloads -/

/-- The signatures that the targets of a name have, in the spelling that counts. -/
def signaturesUnder (targets : List Target) (n : QualifiedName) : List String :=
  (targets.filter fun t => t.name = n).map fun t => normalizeSignature t.signature

theorem nodup_signaturesUnder {targets : List Target} (h : AreDistinct targets)
    (n : QualifiedName) : (signaturesUnder targets n).Nodup := by
  rw [signaturesUnder, List.Nodup, List.pairwise_map, List.pairwise_filter]
  exact h.imp fun hne ht hu => hne ((of_decide_eq_true ht).trans (of_decide_eq_true hu).symm)

/-- Behind `checkDistinct`, a name is overloaded exactly if its targets have several signatures. -/
theorem isOverloaded_iff_several {targets : List Target} (h : checkDistinct targets = .ok ())
    (n : QualifiedName) :
    isOverloaded targets n = true ↔ 1 < (signaturesUnder targets n).toFinset.card := by
  have hnodup := nodup_signaturesUnder (checkDistinct_eq_ok_iff.1 h) n
  rw [List.toFinset_card_of_nodup hnodup, signaturesUnder, List.length_map, isOverloaded,
    decide_eq_true_iff, List.countP_eq_length_filter]

theorem isOverloaded_of_sublist {targets : List Target} {t u : Target}
    (h : [t, u].Sublist targets) (hname : t.name = u.name) :
    isOverloaded targets t.name = true := by
  have hcount := h.countP_le (p := fun v => decide (v.name = t.name))
  simp only [isOverloaded, decide_eq_true_eq]
  refine Nat.lt_of_lt_of_le ?_ hcount
  simp [hname]

theorem isOverloaded_iff {targets : List Target} {i : Nat} {t : Target} (h : targets[i]? = some t) :
    isOverloaded targets t.name = true ↔ ∃ u ∈ targets.eraseIdx i, u.name = t.name := by
  obtain ⟨hi, ht⟩ := List.getElem?_eq_some_iff.1 h
  have hsplit : targets = targets.take i ++ t :: targets.drop (i + 1) := by
    rw [← ht, ← List.drop_eq_getElem_cons hi, List.take_append_drop]
  have hcount : (targets.countP fun u => decide (u.name = t.name)) =
      ((targets.eraseIdx i).countP fun u => decide (u.name = t.name)) + 1 := by
    conv => lhs; rw [hsplit]
    rw [List.eraseIdx_eq_take_drop_succ, List.countP_append, List.countP_append, List.countP_cons]
    simp only [decide_true, if_true]
    omega
  simp only [isOverloaded, decide_eq_true_eq, hcount]
  rw [Nat.lt_add_left_iff_pos, List.countP_pos_iff]
  simp only [decide_eq_true_eq]

/-! ## Bindings of targets -/

section Bindings

variable {targets : List Target} {bindings : List Binding}

theorem bindAmong_of_mem (h : targets.map (bindAmong targets) = bindings.map .ok) {b : Binding}
    (hb : b ∈ bindings) : bindAmong targets b.target = .ok b := by
  have : Except.ok b ∈ targets.map (bindAmong targets) := h ▸ List.mem_map_of_mem hb
  obtain ⟨t, -, ht⟩ := List.mem_map.1 this
  obtain ⟨symbol, -, rfl⟩ := bindAmong_eq_ok_iff.1 ht
  exact ht

theorem map_target_eq (h : targets.map (bindAmong targets) = bindings.map .ok) :
    bindings.map Binding.target = targets := by
  refine List.ext_getElem? fun i => ?_
  have hi := congrArg (fun l => l[i]?) h
  simp only [List.getElem?_map] at hi ⊢
  cases ht : targets[i]? with
  | none =>
    rw [ht, Option.map_none, eq_comm, Option.map_eq_none_iff] at hi
    rw [hi, Option.map_none]
  | some t =>
    rw [ht, Option.map_some, eq_comm, Option.map_eq_some_iff] at hi
    obtain ⟨b, hb, hbt⟩ := hi
    obtain ⟨symbol, -, rfl⟩ := bindAmong_eq_ok_iff.1 hbt.symm
    rw [hb, Option.map_some]

theorem isOverload_eq_isOverloaded (h : targets.map (bindAmong targets) = bindings.map .ok)
    {b : Binding} (hb : b ∈ bindings) : b.isOverload = isOverloaded targets b.target.name := by
  obtain ⟨symbol, hsymbol, hbe⟩ := bindAmong_eq_ok_iff.1 (bindAmong_of_mem h hb)
  have hsym : b.symbol = withTag symbol (tagAmong targets b.target) := by rw [hbe]
  rw [Binding.isOverload, hsym, isOverload_eq_isSome hsymbol, tagAmong]
  cases isOverloaded targets b.target.name <;> rfl

theorem isNameable_of_mem_bindings (h : targets.map (bindAmong targets) = bindings.map .ok)
    {b : Binding} (hb : b ∈ bindings) : b.target.IsNameable := by
  obtain ⟨symbol, hsymbol, -⟩ := bindAmong_eq_ok_iff.1 (bindAmong_of_mem h hb)
  exact ⟨symbol, hsymbol⟩

/-- Two bindings share their accessor exactly if they are overloads of one name with one tag. -/
theorem accessor_eq_iff (h : targets.map (bindAmong targets) = bindings.map .ok) {a b : Binding}
    (hab : [a, b].Sublist bindings) :
    a.accessor = b.accessor ↔
      a.target.name = b.target.name ∧
        overloadTag a.target.signature = overloadTag b.target.signature := by
  have ha := bindAmong_of_mem h (hab.subset (by simp : a ∈ [a, b]))
  have hb := bindAmong_of_mem h (hab.subset (by simp : b ∈ [a, b]))
  have shared (hname : a.target.name = b.target.name) :
      tagAmong targets a.target = some (overloadTag a.target.signature) ∧
        tagAmong targets b.target = some (overloadTag b.target.signature) := by
    have hover := isOverloaded_of_sublist (map_target_eq h ▸ hab.map Binding.target) hname
    simp only [tagAmong, hover, ← hname, if_true, and_self]
  constructor
  · intro hacc
    have hdec := (decodeAccessor_bindAmong ha).symm.trans (hacc ▸ decodeAccessor_bindAmong hb)
    rw [Except.ok.injEq, Prod.mk.injEq] at hdec
    refine ⟨hdec.1, ?_⟩
    rw [(shared hdec.1).1, (shared hdec.1).2, Option.some.injEq] at hdec
    exact hdec.2
  · rintro ⟨hname, htag⟩
    obtain ⟨symbol, hsymbol, hae⟩ := bindAmong_eq_ok_iff.1 ha
    obtain ⟨symbol', hsymbol', hbe⟩ := bindAmong_eq_ok_iff.1 hb
    rw [hname, hsymbol', Except.ok.injEq] at hsymbol
    rw [hae, hbe, (shared hname).1, (shared hname).2, htag, hsymbol]

theorem nodup_accessor_iff (h : targets.map (bindAmong targets) = bindings.map .ok) :
    (bindings.map Binding.accessor).Nodup ↔ TagsDiffer targets := by
  rw [← map_target_eq h, List.Nodup, TagsDiffer, List.pairwise_map, List.pairwise_map,
    List.pairwise_iff_forall_sublist, List.pairwise_iff_forall_sublist]
  constructor
  · intro hne a b hab hname htag
    exact hne hab ((accessor_eq_iff h hab).2 ⟨hname, htag⟩)
  · intro hne a b hab hacc
    obtain ⟨hname, htag⟩ := (accessor_eq_iff h hab).1 hacc
    exact hne hab hname htag

theorem exists_bindings_iff :
    (∃ bindings : List Binding, targets.map (bindAmong targets) = bindings.map .ok) ↔
      ∀ t ∈ targets, t.IsNameable := by
  constructor
  · rintro ⟨bindings, h⟩ t ht
    obtain ⟨b, hb, rfl⟩ := List.mem_map.1 ((map_target_eq h).symm ▸ ht)
    obtain ⟨symbol, hsymbol, -⟩ := bindAmong_eq_ok_iff.1 (bindAmong_of_mem h hb)
    exact ⟨symbol, hsymbol⟩
  · intro hall
    cases hm : targets.mapM (bindAmong targets) with
    | ok bindings => exact ⟨bindings, mapM_eq_ok_iff.1 hm⟩
    | error e =>
      obtain ⟨before, t, after, hl, -, ht⟩ := mapM_eq_error_iff.1 hm
      obtain ⟨symbol, hsymbol⟩ := hall t (by simp [hl])
      rw [bindAmong_eq_error_iff, hsymbol] at ht
      cases ht

/-! ## Assignment -/

theorem assign_eq_ok_iff :
    assign targets = .ok bindings ↔
      AreDistinct targets ∧ targets.map (bindAmong targets) = bindings.map .ok ∧
        TagsDiffer targets := by
  have hassign : assign targets = .ok bindings ↔
      checkDistinct targets = .ok () ∧ targets.mapM (bindAmong targets) = .ok bindings ∧
        checkUnique bindings = .ok () := by
    unfold assign
    cases checkDistinct targets with
    | error e => simp [bind, Except.bind]
    | ok =>
      cases targets.mapM (bindAmong targets) with
      | error e => simp [bind, Except.bind]
      | ok bs =>
        cases hu : checkUnique bs with
        | error e =>
          simp only [bind, Except.bind, hu, reduceCtorEq, Except.ok.injEq, true_and, false_iff]
          rintro ⟨rfl, hok⟩
          simp [hu] at hok
        | ok =>
          simp only [bind, Except.bind, pure, Except.pure, hu, Except.ok.injEq, true_and]
          exact ⟨fun h => ⟨h, h ▸ hu⟩, fun h => h.1⟩
  rw [hassign, checkDistinct_eq_ok_iff, mapM_eq_ok_iff, checkUnique_eq_ok_iff]
  exact and_congr_right fun _ => and_congr_right fun h => nodup_accessor_iff h

theorem exists_assign_eq_ok_iff :
    (∃ bindings, assign targets = .ok bindings) ↔
      AreDistinct targets ∧ (∀ t ∈ targets, t.IsNameable) ∧ TagsDiffer targets := by
  simp only [assign_eq_ok_iff, ← exists_bindings_iff]
  constructor
  · rintro ⟨bindings, hd, h, ht⟩
    exact ⟨hd, ⟨bindings, h⟩, ht⟩
  · rintro ⟨hd, ⟨bindings, h⟩, ht⟩
    exact ⟨bindings, hd, h, ht⟩

/-- The binding at a position: a symbol without tag if no other target has the name, and one with
the tag of the signature if another has. -/
structure NamedAmong (targets : List Target) (i : Nat) (b : Binding) : Prop where
  accessor_eq : b.accessor = accessorOfSymbol b.symbol
  alone : (∀ u ∈ targets.eraseIdx i, u.name ≠ b.target.name) →
    b.target.name.mangle = .ok b.symbol ∧ b.isOverload = false
  shared : (∃ u ∈ targets.eraseIdx i, u.name = b.target.name) →
    ∃ symbol, b.target.name.mangle = .ok symbol ∧
      b.symbol = symbol ++ "___" ++ overloadTag b.target.signature ∧ b.isOverload = true
  decodes : ∃ tag, decodeAccessor b.accessor = .ok (b.target.name, tag)

theorem namedAmong_of_getElem? (h : targets.map (bindAmong targets) = bindings.map .ok) {i : Nat}
    {b : Binding} (hi : bindings[i]? = some b) : NamedAmong targets i b := by
  have hb := bindAmong_of_mem h (List.mem_of_getElem? hi)
  have hti : targets[i]? = some b.target := by
    rw [← map_target_eq h, List.getElem?_map, hi, Option.map_some]
  have hover := isOverloaded_iff hti
  obtain ⟨symbol, hsymbol, hbe⟩ := bindAmong_eq_ok_iff.1 hb
  have hsym : b.symbol = withTag symbol (tagAmong targets b.target) := by rw [hbe]
  have hflag : b.isOverload = (tagAmong targets b.target).isSome := by
    rw [Binding.isOverload, hsym, isOverload_eq_isSome hsymbol]
  refine ⟨by rw [hbe], fun halone => ?_, fun hshared => ⟨symbol, hsymbol, ?_⟩,
    _, decodeAccessor_bindAmong hb⟩
  · have hno : tagAmong targets b.target = none := by
      refine if_neg fun hyes => ?_
      obtain ⟨u, hu, hname⟩ := hover.1 hyes
      exact halone u hu hname
    rw [hflag, hsym, hno]
    exact ⟨hsymbol, rfl⟩
  · have hyes : tagAmong targets b.target = some (overloadTag b.target.signature) :=
      if_pos (hover.2 hshared)
    rw [hflag, hsym, hyes]
    exact ⟨rfl, rfl⟩

/-! ## Failures -/

theorem assign_of_not_areDistinct (h : ¬ AreDistinct targets) :
    ∃ before t after, targets = before ++ t :: after ∧ AreDistinct before ∧
      (∃ u ∈ before, u.identity = t.identity) ∧
      assign targets = .error (.duplicateTarget t.name.path (normalizeSignature t.signature)) := by
  cases hd : checkDistinct targets with
  | ok => exact absurd (checkDistinct_eq_ok_iff.1 hd) h
  | error e =>
    obtain ⟨before, t, after, hl, hbefore, hu, rfl⟩ := checkDistinct_eq_error_iff.1 hd
    exact ⟨before, t, after, hl, hbefore, hu, by simp only [assign, hd, bind, Except.bind]⟩

theorem assign_of_not_nameable (hd : AreDistinct targets) (hn : ¬ ∀ t ∈ targets, t.IsNameable) :
    ∃ before t after segment, targets = before ++ t :: after ∧ (∀ u ∈ before, u.IsNameable) ∧
      t.name.segments.find? (fun s => !isNameSafe s) = some segment ∧
      assign targets = .error (.invalidSegment segment t.name.path) := by
  cases hm : targets.mapM (bindAmong targets) with
  | ok bindings => exact absurd (exists_bindings_iff.1 ⟨bindings, mapM_eq_ok_iff.1 hm⟩) hn
  | error e =>
    obtain ⟨before, t, after, hl, hbefore, ht⟩ := mapM_eq_error_iff.1 hm
    obtain ⟨segment, hseg, rfl⟩ := mangle_eq_error_iff.1 (bindAmong_eq_error_iff.1 ht)
    refine ⟨before, t, after, segment, hl, fun u hu => ?_, hseg, ?_⟩
    · obtain ⟨b, hb⟩ := hbefore u hu
      obtain ⟨symbol, hsymbol, -⟩ := bindAmong_eq_ok_iff.1 hb
      exact ⟨symbol, hsymbol⟩
    · simp only [assign, checkDistinct_eq_ok_iff.2 hd, hm, bind, Except.bind]

/-- Two overloads of one name whose signatures differ and have the same tag. -/
def TagsCollide (t u : Target) : Prop :=
  t.name = u.name ∧ normalizeSignature t.signature ≠ normalizeSignature u.signature ∧
    overloadTag t.signature = overloadTag u.signature

theorem assign_of_not_tagsDiffer (hd : AreDistinct targets) (hn : ∀ t ∈ targets, t.IsNameable)
    (ht : ¬ TagsDiffer targets) :
    ∃ t u symbol, [t, u].Sublist targets ∧ TagsCollide t u ∧ u.name.mangle = .ok symbol ∧
      assign targets = .error (.collision
        (accessorOfSymbol (symbol ++ "___" ++ overloadTag u.signature)) t.describe u.describe) := by
  obtain ⟨bindings, h⟩ := exists_bindings_iff.2 hn
  cases hu : checkUnique bindings with
  | ok => exact absurd ((nodup_accessor_iff h).1 (checkUnique_eq_ok_iff.1 hu)) ht
  | error e =>
    obtain ⟨before, b, after, a, hl, -, ha, hab, rfl⟩ := checkUnique_eq_error_iff.1 hu
    have hsub : [a, b].Sublist bindings := by
      rw [hl]
      exact (List.singleton_sublist.2 ha).append (List.singleton_sublist.2 (by simp))
    obtain ⟨hname, htag⟩ := (accessor_eq_iff h hsub).1 hab
    have hsubTarget : [a.target, b.target].Sublist targets :=
      map_target_eq h ▸ hsub.map Binding.target
    have hnorm := List.pairwise_iff_forall_sublist.1 hd hsubTarget hname
    obtain ⟨symbol, hsymbol, hbe⟩ :=
      bindAmong_eq_ok_iff.1 (bindAmong_of_mem h (hsub.subset (by simp : b ∈ [a, b])))
    have hover : tagAmong targets b.target = some (overloadTag b.target.signature) :=
      if_pos (hname ▸ isOverloaded_of_sublist hsubTarget hname)
    have hacc : b.accessor =
        accessorOfSymbol (symbol ++ "___" ++ overloadTag b.target.signature) := by
      rw [hbe, hover]
      rfl
    refine ⟨a.target, b.target, symbol, hsubTarget, ⟨hname, hnorm, htag⟩, hsymbol, ?_⟩
    simp only [assign, checkDistinct_eq_ok_iff.2 hd, mapM_eq_ok_iff.2 h, hu, hacc, bind,
      Except.bind]

end Bindings

/-- What an assignment comes to.  It succeeds exactly if the targets are distinct, can be named, and
have different tags where they share a name; then it gives every target, in order, the symbol and
the accessor that it must have, and no accessor twice.  Otherwise the first of the three conditions
that does not hold decides which failure is reported; so a collision is one of the hash. -/
theorem assign_outcome (targets : List Target) :
    ((∃ bindings, assign targets = .ok bindings) ↔
      AreDistinct targets ∧ (∀ t ∈ targets, t.IsNameable) ∧ TagsDiffer targets) ∧
    (∀ bindings, assign targets = .ok bindings →
      bindings.map Binding.target = targets ∧
      (∀ i b, bindings[i]? = some b → NamedAmong targets i b) ∧
      (bindings.map Binding.accessor).Nodup) ∧
    (¬ AreDistinct targets → ∃ before t after, targets = before ++ t :: after ∧
      AreDistinct before ∧ (∃ u ∈ before, u.identity = t.identity) ∧
      assign targets = .error (.duplicateTarget t.name.path (normalizeSignature t.signature))) ∧
    (AreDistinct targets → (¬ ∀ t ∈ targets, t.IsNameable) →
      ∃ before t after segment, targets = before ++ t :: after ∧ (∀ u ∈ before, u.IsNameable) ∧
        t.name.segments.find? (fun s => !isNameSafe s) = some segment ∧
        assign targets = .error (.invalidSegment segment t.name.path)) ∧
    (AreDistinct targets → (∀ t ∈ targets, t.IsNameable) → ¬ TagsDiffer targets →
      ∃ t u symbol, [t, u].Sublist targets ∧ TagsCollide t u ∧ u.name.mangle = .ok symbol ∧
        assign targets = .error (.collision
          (accessorOfSymbol (symbol ++ "___" ++ overloadTag u.signature)) t.describe u.describe)) ∧
    ∀ accessor first second, assign targets = .error (.collision accessor first second) →
      ∃ t u, [t, u].Sublist targets ∧ TagsCollide t u := by
  refine ⟨exists_assign_eq_ok_iff, fun bindings h => ?_, assign_of_not_areDistinct,
    assign_of_not_nameable, assign_of_not_tagsDiffer, fun accessor first second h => ?_⟩
  · obtain ⟨hd, hbind, ht⟩ := assign_eq_ok_iff.1 h
    exact ⟨map_target_eq hbind, fun i b hi => namedAmong_of_getElem? hbind hi,
      (nodup_accessor_iff hbind).2 ht⟩
  · by_cases hd : AreDistinct targets
    · by_cases hn : ∀ t ∈ targets, t.IsNameable
      · by_cases ht : TagsDiffer targets
        · obtain ⟨bindings, hb⟩ := exists_assign_eq_ok_iff.2 ⟨hd, hn, ht⟩
          simp [h] at hb
        · obtain ⟨t, u, symbol, hsub, hcollide, -⟩ := assign_of_not_tagsDiffer hd hn ht
          exact ⟨t, u, hsub, hcollide⟩
      · obtain ⟨before, t, after, segment, -, -, -, he⟩ := assign_of_not_nameable hd hn
        simp [h] at he
    · obtain ⟨before, t, after, -, -, -, he⟩ := assign_of_not_areDistinct hd
      simp [h] at he

/-- Each of the three conditions has failures of its own. -/
theorem assign_eq_error_cases {targets : List Target} {e : NameError}
    (h : assign targets = .error e) :
    (¬ AreDistinct targets ∧ ∃ name signature, e = .duplicateTarget name signature) ∨
    ((¬ ∀ t ∈ targets, t.IsNameable) ∧ ∃ segment name, e = .invalidSegment segment name) ∨
    (¬ TagsDiffer targets ∧ ∃ accessor first second, e = .collision accessor first second) := by
  by_cases hd : AreDistinct targets
  · by_cases hn : ∀ t ∈ targets, t.IsNameable
    · by_cases ht : TagsDiffer targets
      · obtain ⟨bindings, hb⟩ := exists_assign_eq_ok_iff.2 ⟨hd, hn, ht⟩
        simp [h] at hb
      · obtain ⟨t, u, symbol, -, -, -, he⟩ := assign_of_not_tagsDiffer hd hn ht
        exact .inr (.inr ⟨ht, _, _, _, Except.error.inj (h.symm.trans he)⟩)
    · obtain ⟨before, t, after, segment, -, -, -, he⟩ := assign_of_not_nameable hd hn
      exact .inr (.inl ⟨hn, _, _, Except.error.inj (h.symm.trans he)⟩)
  · obtain ⟨before, t, after, -, -, -, he⟩ := assign_of_not_areDistinct hd
    exact .inl ⟨hd, _, _, Except.error.inj (h.symm.trans he)⟩

theorem exists_duplicateTarget_iff {targets : List Target} :
    (∃ name signature, assign targets = .error (.duplicateTarget name signature)) ↔
      ¬ AreDistinct targets := by
  constructor
  · rintro ⟨name, signature, h⟩
    rcases assign_eq_error_cases h with ⟨hd, -⟩ | ⟨-, _, _, ⟨⟩⟩ | ⟨-, _, _, _, ⟨⟩⟩
    exact hd
  · intro hd
    obtain ⟨before, t, after, -, -, -, he⟩ := assign_of_not_areDistinct hd
    exact ⟨_, _, he⟩

/-! ## Leaving out what cannot be named -/

theorem isNone_nameError?_iff {t : Target} : t.nameError?.isNone = true ↔ t.IsNameable := by
  unfold Target.nameError? Target.IsNameable
  cases t.name.mangle <;> simp

theorem eq_filter_of_keepNameable {strict : Bool} {targets kept : List Target}
    (h : keepNameable strict targets = .ok kept) :
    kept = targets.filter fun t => t.nameError?.isNone := by
  simp only [keepNameable] at h
  split at h
  · cases h
  · exact (Except.ok.inj h).symm

end AddressExport
