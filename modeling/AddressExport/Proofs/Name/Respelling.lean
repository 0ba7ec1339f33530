import AddressExport.Proofs.Name.Spelling
import AddressExport.Proofs.Text.Words

/-!
# Signatures that are spelled otherwise

Signatures count by their words.  `normalizeSignature` gives one spelling to all signatures with the
same words (`normalizeSignature_eq_iff`), and `assign` looks at signatures only through it: so
targets whose signatures are spelled otherwise get the symbols and accessors that they had
(`map_symbol_eq_of_isRespelled`).
-/

namespace AddressExport

theorem normalizeSignature_eq_iff {s t : String} :
    normalizeSignature s = normalizeSignature t ↔ Text.HaveSameWords s t := by
  rw [Text.haveSameWords_iff]
  exact Text.respace_eq_iff

theorem overloadTag_congr {s t : String} (h : normalizeSignature s = normalizeSignature t) :
    overloadTag s = overloadTag t := by
  rw [overloadTag, overloadTag, h]

/-! ## Targets -/

/-- The same target, but for the blanks in its signature. -/
structure Target.IsRespelled (t u : Target) : Prop where
  name_eq : t.name = u.name
  kind_eq : t.kind = u.kind
  haveSameWords : Text.HaveSameWords t.signature u.signature

namespace Target.IsRespelled

variable {t u : Target}

theorem normalizeSignature_eq (h : t.IsRespelled u) :
    normalizeSignature t.signature = normalizeSignature u.signature :=
  normalizeSignature_eq_iff.2 h.haveSameWords

theorem identity_eq (h : t.IsRespelled u) : t.identity = u.identity :=
  Prod.ext h.name_eq h.normalizeSignature_eq

theorem overloadTag_eq (h : t.IsRespelled u) : overloadTag t.signature = overloadTag u.signature :=
  overloadTag_congr h.normalizeSignature_eq

end Target.IsRespelled

/-! ## Lists of targets -/

theorem map_eq_map_iff_forall₂ {α β γ : Type} {f : α → γ} {g : β → γ} {l : List α} {m : List β} :
    l.map f = m.map g ↔ List.Forall₂ (fun a b => f a = g b) l m := by
  rw [← List.forall₂_eq_eq_eq, List.forall₂_map_left_iff, List.forall₂_map_right_iff]

theorem tagsDiffer_iff_nodup {targets : List Target} :
    TagsDiffer targets ↔ (targets.map fun t => (t.name, overloadTag t.signature)).Nodup := by
  simp only [TagsDiffer, List.Nodup, List.pairwise_map, ne_eq, Prod.mk.injEq, not_and]

theorem map_symbol_eq {targets : List Target} {bindings : List Binding}
    (h : targets.map (bindAmong targets) = bindings.map .ok) :
    (bindings.map Binding.symbol).map .ok = targets.map (symbolAmong targets) := by
  have hsymbols := congrArg (List.map (Except.map Binding.symbol)) h
  rw [List.map_map, List.map_map] at hsymbols
  rw [List.map_map]
  refine hsymbols.symm.trans (List.map_congr_left fun t _ => ?_)
  show (bindAmong targets t).map Binding.symbol = symbolAmong targets t
  rw [bindAmong]
  cases symbolAmong targets t <;> rfl

section Respelled

variable {targets others : List Target} (h : List.Forall₂ Target.IsRespelled targets others)

include h

theorem map_name_eq_of_isRespelled : targets.map Target.name = others.map Target.name :=
  map_eq_map_iff_forall₂.2 (h.imp fun _ _ => Target.IsRespelled.name_eq)

theorem isOverloaded_eq_of_isRespelled (n : QualifiedName) :
    isOverloaded targets n = isOverloaded others n := by
  have hcount (l : List Target) :
      (l.countP fun t => decide (t.name = n)) =
        (l.map Target.name).countP fun m => decide (m = n) := by
    rw [List.countP_map]
    rfl
  rw [isOverloaded, isOverloaded, hcount, hcount, map_name_eq_of_isRespelled h]

theorem areDistinct_iff_of_isRespelled : AreDistinct targets ↔ AreDistinct others := by
  have hidentities : targets.map Target.identity = others.map Target.identity :=
    map_eq_map_iff_forall₂.2 (h.imp fun _ _ => Target.IsRespelled.identity_eq)
  rw [areDistinct_iff_nodup, areDistinct_iff_nodup, hidentities]

theorem isNameable_iff_of_isRespelled :
    (∀ t ∈ targets, t.IsNameable) ↔ ∀ u ∈ others, u.IsNameable := by
  have hnames (l : List Target) :
      (∀ t ∈ l, t.IsNameable) ↔ ∀ n ∈ l.map Target.name, ∃ symbol, n.mangle = .ok symbol := by
    rw [List.forall_mem_map]
    rfl
  rw [hnames, hnames, map_name_eq_of_isRespelled h]

theorem tagsDiffer_iff_of_isRespelled : TagsDiffer targets ↔ TagsDiffer others := by
  have htags : (targets.map fun t => (t.name, overloadTag t.signature)) =
      others.map fun u => (u.name, overloadTag u.signature) :=
    map_eq_map_iff_forall₂.2 (h.imp fun _ _ hr => Prod.ext hr.name_eq hr.overloadTag_eq)
  rw [tagsDiffer_iff_nodup, tagsDiffer_iff_nodup, htags]

theorem symbolAmong_eq_of_isRespelled {t u : Target} (hr : t.IsRespelled u) :
    symbolAmong targets t = symbolAmong others u := by
  rw [symbolAmong, symbolAmong, isOverloaded_eq_of_isRespelled h, hr.name_eq, taggedSymbol,
    taggedSymbol, hr.overloadTag_eq]

theorem exists_assign_iff_of_isRespelled :
    (∃ bindings, assign targets = .ok bindings) ↔ ∃ bindings, assign others = .ok bindings := by
  rw [exists_assign_eq_ok_iff, exists_assign_eq_ok_iff, areDistinct_iff_of_isRespelled h,
    isNameable_iff_of_isRespelled h, tagsDiffer_iff_of_isRespelled h]

theorem map_symbol_eq_of_isRespelled {bindings respelled : List Binding}
    (hbind : assign targets = .ok bindings) (hrespelled : assign others = .ok respelled) :
    bindings.map Binding.symbol = respelled.map Binding.symbol := by
  obtain ⟨-, hbind, -⟩ := assign_eq_ok_iff.1 hbind
  obtain ⟨-, hrespelled, -⟩ := assign_eq_ok_iff.1 hrespelled
  have hsymbols : targets.map (symbolAmong targets) = others.map (symbolAmong others) :=
    map_eq_map_iff_forall₂.2 (h.imp fun _ _ => symbolAmong_eq_of_isRespelled h)
  rw [← map_symbol_eq hbind, ← map_symbol_eq hrespelled] at hsymbols
  exact (List.map_injective_iff.2 fun _ _ => Except.ok.inj) hsymbols

end Respelled

theorem map_accessor_eq {targets : List Target} {bindings : List Binding}
    (h : assign targets = .ok bindings) :
    bindings.map Binding.accessor = (bindings.map Binding.symbol).map accessorOfSymbol := by
  obtain ⟨-, hbind, -⟩ := assign_eq_ok_iff.1 h
  rw [List.map_map]
  exact List.map_congr_left fun b hb => accessor_eq_of_mem_bindings hbind hb

/-- Normalizing gives to all signatures with the same words one of them, in which single spaces part
the words.  So a list of targets can be exported as well if its signatures are spelled otherwise,
and nothing is called otherwise. -/
theorem normalizeSignature_outcome :
    (∀ s, normalizeSignature (normalizeSignature s) = normalizeSignature s) ∧
    (∀ s, Text.IsSpaced (normalizeSignature s).toList ∧
      Text.HaveSameWords s (normalizeSignature s)) ∧
    (∀ s t, normalizeSignature s = normalizeSignature t ↔ Text.HaveSameWords s t) ∧
    ∀ targets others, List.Forall₂ Target.IsRespelled targets others →
      ((∃ bindings, assign targets = .ok bindings) ↔ ∃ bindings, assign others = .ok bindings) ∧
      ∀ bindings respelled, assign targets = .ok bindings → assign others = .ok respelled →
        bindings.map Binding.symbol = respelled.map Binding.symbol ∧
        bindings.map Binding.accessor = respelled.map Binding.accessor := by
  refine ⟨Text.respace_respace, fun s => ⟨Text.isSpaced_respace s, ?_⟩,
    fun s t => normalizeSignature_eq_iff,
    fun targets others h => ⟨exists_assign_iff_of_isRespelled h,
      fun bindings respelled hbind hrespelled => ?_⟩⟩
  · exact Text.haveSameWords_iff.2 (Text.words_respace s).symm
  · have hsymbols := map_symbol_eq_of_isRespelled h hbind hrespelled
    exact ⟨hsymbols, by rw [map_accessor_eq hbind, map_accessor_eq hrespelled, hsymbols]⟩

example : Text.HaveSameWords "int  (int) " "\tint\n(int)" := by decide

end AddressExport
