import AddressExport.Proofs.Declaration.Cleanup
import AddressExport.Proofs.Declaration.Exported

/-!
# Targets after cleanup

Cleanup takes nodes away and leaves the others below the nodes that they were below before, so a
function that is found afterwards was found before, under the same name.  The more prefixes there
are of system headers, the more is taken (`keptTargets_sublist`).  What an access specifier says
holds for the members behind it also if the specifier itself is taken, so no member turns public
when there are more prefixes.
-/

namespace AddressExport

variable {few many : List String}

theorem Declaration.isKept_of_subset (h : ∀ start ∈ few, start ∈ many) {d : Declaration}
    (hkept : d.isKept many = true) : d.isKept few = true := by
  rw [isKept_eq_true_iff] at hkept ⊢
  refine ⟨hkept.1, fun hsystem => hkept.2 ?_⟩
  obtain ⟨file, hfile, start, hstart, hrest⟩ := hsystem
  exact ⟨file, hfile, start, h start hstart, hrest⟩

theorem forestTrailsBelow_eq_nil_iff {α : Type} {above : List α} {ts : List (Tree α)} :
    Tree.forestTrailsBelow above ts = [] ↔ ts = [] := by
  rcases ts with _ | ⟨⟨a, us⟩, ts⟩ <;> simp [Tree.forestTrailsBelow, Tree.trailsBelow]

mutual

/-- With more prefixes cleanup leaves fewer nodes, each below the nodes that it is below
otherwise. -/
theorem exists_sublist_trailsBelow_of_prune (h : ∀ start ∈ few, start ∈ many) {u : Tree Declaration}
    (above : List Declaration) :
    ∀ {t : Tree Declaration}, prune many t = some u →
      ∃ v, prune few t = some v ∧ (Tree.trailsBelow above u).Sublist (Tree.trailsBelow above v)
  | .node d ts, hu => by
    have hmembers := sublist_forestTrailsBelow_of_subset h (above ++ [d]) d.publicAtStart ts
    have hkept : d.isKept few = true := Declaration.isKept_of_subset h (isKept_of_prune hu)
    -- a linkage specification holds something with more prefixes, so it does with fewer
    have hholds : ¬ (d.kind = "LinkageSpecDecl" ∧
        (pruneMembers few d.publicAtStart ts).isEmpty) := by
      rintro ⟨hkind, hempty⟩
      rw [List.isEmpty_iff.1 hempty, Tree.forestTrailsBelow, List.sublist_nil,
        forestTrailsBelow_eq_nil_iff] at hmembers
      simp [prune, hkind, hmembers] at hu
    refine ⟨.node d (pruneMembers few d.publicAtStart ts), ?_, ?_⟩
    · rw [prune, if_pos hkept]
      exact if_neg hholds
    · rw [eq_of_prune hu]
      exact hmembers.cons_cons _

theorem sublist_forestTrailsBelow_of_subset (h : ∀ start ∈ few, start ∈ many)
    (above : List Declaration) (isPublic : Bool) :
    ∀ ts : List (Tree Declaration),
      (Tree.forestTrailsBelow above (pruneMembers many isPublic ts)).Sublist
        (Tree.forestTrailsBelow above (pruneMembers few isPublic ts))
  | [] => List.Sublist.refl _
  | t :: ts => by
    have hrest := sublist_forestTrailsBelow_of_subset h above (t.label.publicFrom isPublic) ts
    rw [pruneMembers, pruneMembers]
    by_cases hpublic : t.label.publicFrom isPublic = true
    · rw [if_pos hpublic, if_pos hpublic]
      cases hmany : prune many t with
      | none =>
        cases prune few t with
        | none => exact hrest
        | some v => exact hrest.trans (List.sublist_append_right _ _)
      | some u =>
        obtain ⟨v, hv, hsub⟩ := exists_sublist_trailsBelow_of_prune h above hmany
        rw [hv]
        exact hsub.append hrest
    · rw [if_neg hpublic, if_neg hpublic]
      exact hrest

end

/-! ## Targets -/

theorem targets_sublist_of_trails {u v : Tree Declaration} (h : u.trails.Sublist v.trails) :
    (targets u).Sublist (targets v) := by
  have hfound : (u.trails.filterMap Tree.Trail.exported?).Sublist
      (v.trails.filterMap Tree.Trail.exported?) := h.filterMap _
  rw [targets, targets, Tree.filterMap_target?_candidates, Tree.filterMap_target?_candidates]
  exact (hfound.filter _).append (hfound.filter _)

/-- The functions that are found in what cleanup leaves of a tree. -/
def keptTargets (systemPrefixes : List String) (t : Tree Declaration) : List Target :=
  ((prune systemPrefixes t).map targets).getD []

/-- Cleanup neither adds targets nor changes them or their order, and with more prefixes of system
headers it leaves fewer. -/
theorem keptTargets_sublist (h : ∀ start ∈ few, start ∈ many) (t : Tree Declaration) :
    (keptTargets many t).Sublist (keptTargets few t) ∧ (keptTargets few t).Sublist (targets t) := by
  unfold keptTargets
  constructor
  · cases hmany : prune many t with
    | none => exact List.nil_sublist _
    | some u =>
      obtain ⟨v, hv, hsub⟩ := exists_sublist_trailsBelow_of_prune h [] hmany
      rw [hv]
      exact targets_sublist_of_trails hsub
  · cases hfew : prune few t with
    | none => exact List.nil_sublist _
    | some u =>
      have hsub := sublist_trailsBelow_of_prune [] hfew
      exact targets_sublist_of_trails (hsub.trans List.filter_sublist)

/-- Functions of three headers.  The class of the first one has its access specifier from the
second. -/
def threeHeaders : Tree Declaration :=
  .node ⟨"TranslationUnitDecl", .translationUnit, none⟩
    [.node ⟨"CXXRecordDecl", .record .classTag "C", some "a.h"⟩
      [.node ⟨"AccessSpecDecl", .word "public", some "/opt/b.h"⟩ [],
        .node ⟨"CXXMethodDecl", .typed "f" "int ()" "static", some "a.h"⟩ []],
      .node ⟨"FunctionDecl", .typed "g" "int ()" "", some "/opt/b.h"⟩ [],
      .node ⟨"FunctionDecl", .typed "h" "int ()" "", some "/usr/c.h"⟩ []]

theorem keptTargets_threeHeaders :
    (∀ start ∈ ["/usr/"], start ∈ ["/usr/", "/opt/"]) ∧
      (keptTargets ["/usr/", "/opt/"] threeHeaders).map (fun s => s.name.path) = ["C::f"] ∧
      (keptTargets ["/usr/"] threeHeaders).map (fun s => s.name.path) = ["g", "C::f"] ∧
      (targets threeHeaders).map (fun s => s.name.path) = ["g", "h", "C::f"] ∧
      (keptTargets ["/usr/", "/opt/"] threeHeaders).Sublist (keptTargets ["/usr/"] threeHeaders) ∧
      (keptTargets ["/usr/"] threeHeaders).Sublist (targets threeHeaders) := by
  have hsubset : ∀ start ∈ ["/usr/"], start ∈ ["/usr/", "/opt/"] := by decide
  obtain ⟨hmany, hfew⟩ := keptTargets_sublist hsubset threeHeaders
  exact ⟨hsubset, by decide +kernel, by decide +kernel, by decide +kernel, hmany, hfew⟩

end AddressExport
