import AddressExport.Proofs.Declaration.Cleanup

/-!
# Cleaning up twice

Cleanup leaves a tree that it does not change again (`prune_idempotent`).  The second time fewer
access specifiers are left to say which members are public.  One that opens a public section is left
together with the section, unless it comes from a system header, which the hypothesis rules out; one
that closes a public section is gone with the members behind it.  So what the second time takes for
public can only be more.
-/

namespace AddressExport

variable {systemPrefixes : List String}

theorem label_of_prune {t u : Tree Declaration} (h : prune systemPrefixes t = some u) :
    u.label = t.label := by
  rw [eq_of_prune h, Tree.label_node]

theorem isSome_prune_of_accessSpec {t : Tree Declaration} (hkind : t.label.kind = "AccessSpecDecl")
    (hsystem : ¬ t.label.FromSystem systemPrefixes) : (prune systemPrefixes t).isSome := by
  have hruled : ¬ t.label.RuledOut := by simp [Declaration.RuledOut, hkind]
  exact isSome_prune_iff.2 ⟨⟨hruled, hsystem⟩, fun h => by simp [hkind] at h⟩

/-- A member that is public stays so if more is public before it. -/
theorem Declaration.publicFrom_of_le {d : Declaration} {first second : Bool}
    (hle : first = true → second = true) (h : d.publicFrom first = true) :
    d.publicFrom second = true := by
  unfold publicFrom at h ⊢
  split
  · next hkind => rwa [if_pos hkind] at h
  · next hkind =>
    rw [if_neg hkind] at h
    exact hle h

/-- The second time as much is public as the first time, or more, and what is left is left again. -/
theorem pruneMembers_pruneMembers {ts : List (Tree Declaration)}
    (hagain : ∀ t ∈ ts, ∀ u, prune systemPrefixes t = some u → prune systemPrefixes u = some u)
    (hspecifiers : ∀ t ∈ ts, t.label.kind = "AccessSpecDecl" → ¬ t.label.FromSystem systemPrefixes)
    {first second : Bool} (hle : first = true → second = true) :
    pruneMembers systemPrefixes second (pruneMembers systemPrefixes first ts) =
      pruneMembers systemPrefixes first ts := by
  induction ts generalizing first second with
  | nil => rfl
  | cons t ts ih =>
    rw [List.forall_mem_cons] at hagain hspecifiers
    have hrest {second : Bool} (hle : t.label.publicFrom first = true → second = true) :=
      ih hagain.2 hspecifiers.2 hle
    rw [pruneMembers]
    by_cases hpublic : t.label.publicFrom first = true
    · rw [if_pos hpublic]
      cases hprune : prune systemPrefixes t with
      | some u =>
        have hsecond : u.label.publicFrom second = true := by
          rw [label_of_prune hprune]
          exact Declaration.publicFrom_of_le hle hpublic
        rw [pruneMembers, if_pos hsecond, hagain.1 u hprune, hrest fun _ => hsecond]
      -- what is taken is no access specifier, so the next member is as public as this one
      | none =>
        have hkind : t.label.kind ≠ "AccessSpecDecl" := by
          intro hkind
          have hkept := isSome_prune_of_accessSpec hkind (hspecifiers.1 hkind)
          rw [hprune] at hkept
          cases hkept
        refine hrest fun _ => hle ?_
        rwa [Declaration.publicFrom, if_neg hkind] at hpublic
    · rw [if_neg hpublic]
      exact hrest fun h => absurd h hpublic

theorem prune_prune {t u : Tree Declaration}
    (hspecifiers : ∀ d ∈ t.trails.map Tree.Trail.label,
      d.kind = "AccessSpecDecl" → ¬ d.FromSystem systemPrefixes)
    (h : prune systemPrefixes t = some u) : prune systemPrefixes u = some u := by
  induction t generalizing u with
  | node d ts ih =>
    have hbelow (t : Tree Declaration) (ht : t ∈ ts) (e : Declaration)
        (he : e ∈ t.trails.map Tree.Trail.label) :
        e.kind = "AccessSpecDecl" → ¬ e.FromSystem systemPrefixes :=
      hspecifiers e (Tree.map_label_trails_subset_of_mem ht he)
    have hmembers : pruneMembers systemPrefixes d.publicAtStart
        (pruneMembers systemPrefixes d.publicAtStart ts) =
          pruneMembers systemPrefixes d.publicAtStart ts :=
      pruneMembers_pruneMembers (fun t ht u hu => ih t ht (hbelow t ht) hu)
        (fun t ht => hbelow t ht _ (Tree.label_mem_map_label_trails t)) id
    -- the root keeps its label, and a linkage specification still holds what it held
    obtain rfl := eq_of_prune h
    rw [Tree.label_node, Tree.children_node] at h ⊢
    rw [prune] at h ⊢
    rwa [hmembers]

/-- What cleanup leaves, it leaves again, if no access specifier comes from a system header. -/
theorem prune_idempotent {t u : Tree Declaration}
    (hspecifiers : ∀ x ∈ t.trails, x.label.kind = "AccessSpecDecl" →
      ¬ x.label.FromSystem systemPrefixes)
    (h : prune systemPrefixes t = some u) : prune systemPrefixes u = some u :=
  prune_prune (List.forall_mem_map.2 hspecifiers) h

/-- A class with a public section between private ones, and a linkage specification.  The access
specifiers come from a file of their own. -/
def publicSection (specifierFile : String) : Tree Declaration :=
  .node ⟨"TranslationUnitDecl", .translationUnit, none⟩
    [.node ⟨"CXXRecordDecl", .record .classTag "C", some "a.h"⟩
      [.node ⟨"CXXMethodDecl", .typed "f" "int ()" "static", some "a.h"⟩ [],
        .node ⟨"AccessSpecDecl", .word "public", some specifierFile⟩ [],
        .node ⟨"EnumDecl", .omitted, some "a.h"⟩ [],
        .node ⟨"CXXMethodDecl", .typed "g" "int ()" "static", some "a.h"⟩ [],
        .node ⟨"AccessSpecDecl", .word "private", some specifierFile⟩ [],
        .node ⟨"CXXMethodDecl", .typed "h" "int ()" "static", some "a.h"⟩ []],
      .node ⟨"LinkageSpecDecl", .word "C", some "a.h"⟩
        [.node ⟨"FunctionDecl", .typed "_k" "int ()" "", some "a.h"⟩ []]]

/-- The texts of what cleanup leaves. -/
def keptTexts (t : Tree Declaration) : Option (List String) :=
  (prune defaultSystemPrefixes t).map fun u => u.trails.map fun x => x.label.detail.text

theorem prune_idempotent_publicSection :
    ∃ u, (∀ x ∈ (publicSection "a.h").trails,
        x.label.kind = "AccessSpecDecl" → ¬ x.label.FromSystem defaultSystemPrefixes) ∧
      prune defaultSystemPrefixes (publicSection "a.h") = some u ∧
      u.trails.map (fun x => x.label.detail.text) = ["", "class C", "public", "g 'int ()' static"] ∧
      prune defaultSystemPrefixes u = some u := by
  have hspecifiers : ∀ x ∈ (publicSection "a.h").trails,
      x.label.kind = "AccessSpecDecl" → ¬ x.label.FromSystem defaultSystemPrefixes := by
    simp only [← Declaration.isSystem_eq_true_iff]
    decide +kernel
  have hrun : keptTexts (publicSection "a.h") =
      some ["", "class C", "public", "g 'int ()' static"] := by
    decide +kernel
  obtain ⟨u, h, htexts⟩ := Option.map_eq_some_iff.1 hrun
  exact ⟨u, hspecifiers, h, htexts, prune_idempotent hspecifiers h⟩

/-- Specifiers from a system header are taken the first time, and then the class is private
throughout. -/
example :
    keptTexts (publicSection "/usr/b.h") = some ["", "class C", "g 'int ()' static"] ∧
      (prune defaultSystemPrefixes (publicSection "/usr/b.h")).bind keptTexts =
        some ["", "class C"] := by
  decide +kernel

end AddressExport
