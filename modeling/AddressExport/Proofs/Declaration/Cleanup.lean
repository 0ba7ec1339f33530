import AddressExport.Declaration.Cleanup
import AddressExport.Proofs.Text.Pieces
import AddressExport.Proofs.Tree.Nodes
import Mathlib.Data.List.Basic
import Mathlib.Data.List.Induction
import Mathlib.Order.Bounds.Defs

/-!
# Which nodes survive cleanup

A node survives if it and all nodes above it may stay (`MayStay`).  Whether a linkage specification
may stay depends in turn on what survives in it, so the rule alone does not settle the survivors:
leaving out everything in linkage specifications obeys it as well.  Cleanup keeps the largest set of
nodes that obeys the rule (`prune_eq_restrictTo_survivors`).
-/

namespace AddressExport

/-! ## The rule -/

namespace Declaration

def HasReservedName (d : Declaration) : Prop := ∃ rest, d.name? = some ("_" ++ rest)

/-- Whether the kind, the detail or the name of a node rules it out. -/
def RuledOut (d : Declaration) : Prop :=
  (d.kind = "NamespaceDecl" ∧
    ((∃ isInline, d.detail = .scope none isInline) ∨ d.name? = some "std" ∨ d.HasReservedName)) ∨
  (d.kind = "FunctionDecl" ∧
    (d.HasReservedName ∨ ∃ name ∈ ["new", "delete", "new[]", "delete[]"], d.name? = some name)) ∨
  d.kind = "EnumDecl" ∨ d.kind = "TypedefDecl" ∨
  (d.kind = "CXXRecordDecl" ∧ ((∀ tag name, d.detail ≠ .record tag name) ∨ d.HasReservedName))

/-- Whether a node is known to start in a system header. -/
def FromSystem (systemPrefixes : List String) (d : Declaration) : Prop :=
  ∃ file, d.file = some file ∧ ∃ start ∈ systemPrefixes, ∃ rest, file = start ++ rest

end Declaration

/-- Whether the child of the given number is public: the last access specifier among the children up
to that one says so, or there is none and the members of the node start public. -/
def IsPublicAt (parent : Tree Declaration) (i : Nat) : Prop :=
  match ((parent.children.take (i + 1)).filter
      fun t => t.label.kind = "AccessSpecDecl").getLast? with
  | some specifier => specifier.label.name? = some "public"
  | none => ∀ name, parent.label.detail ≠ .record .classTag name

/-- What is asked of the node `s` at position `p` of `t`, if the survivors are the nodes at the
positions of `S`. -/
structure MayStay (systemPrefixes : List String) (t : Tree Declaration) (S : Set Position)
    (p : Position) (s : Tree Declaration) : Prop where
  not_ruledOut : ¬ s.label.RuledOut
  not_fromSystem : ¬ s.label.FromSystem systemPrefixes
  isPublic : ∀ q i parent, p = q ++ [i] → t.at? q = some parent → IsPublicAt parent i
  not_hollow : s.label.kind = "LinkageSpecDecl" → ∃ i, p ++ [i] ∈ S

/-- Whether the positions of `S` are those of the nodes that may stay, with all nodes above them. -/
def AreSurvivors (systemPrefixes : List String) (t : Tree Declaration) (S : Set Position) : Prop :=
  ∀ p, p ∈ S ↔
    (t.at? p).isSome ∧ ∀ q, q <+: p → ∀ s, t.at? q = some s → MayStay systemPrefixes t S q s

/-! ## What is asked of a node alone -/

namespace Declaration

theorem isReserved_name?_iff {d : Declaration} :
    isReserved (d.name?.getD "") = true ↔ d.HasReservedName := by
  rw [isReserved, Text.startsWith_eq_true_iff, HasReservedName]
  cases d.name? with
  | none => simp
  | some name => simp

theorem matches_scope_none_iff {detail : Detail} :
    (detail matches .scope none _) = true ↔ ∃ isInline, detail = .scope none isInline := by
  rcases detail with _ | ⟨_ | name, isInline⟩ | _ | _ | _ | _ | _ <;> simp

theorem not_matches_record_iff {detail : Detail} :
    (!(detail matches .record _ _)) = true ↔ ∀ tag name, detail ≠ .record tag name := by
  cases detail <;> simp

theorem contains_allocationFunctions_iff {d : Declaration} :
    allocationFunctions.contains (d.name?.getD "") = true ↔
      ∃ name ∈ ["new", "delete", "new[]", "delete[]"], d.name? = some name := by
  cases d.name? with
  | none => decide
  | some name => simp [allocationFunctions]

theorem isExcluded_eq_true_iff {d : Declaration} : d.isExcluded = true ↔ d.RuledOut := by
  have hstd : d.name?.getD "" = "std" ↔ d.name? = some "std" := by
    cases d.name? <;> simp
  unfold isExcluded RuledOut
  -- the kinds are different words, so a kind opens one case of the rule at most
  split
  · next h =>
    simp only [h, String.reduceEq, true_and, false_and, or_false, Bool.or_eq_true,
      decide_eq_true_eq, hstd, isReserved_name?_iff, or_assoc]
    exact or_congr_left matches_scope_none_iff
  · next hns =>
    split
    · next h =>
      simp only [h, String.reduceEq, true_and, false_and, or_false, false_or, Bool.or_eq_true,
        isReserved_name?_iff, contains_allocationFunctions_iff]
    · next hfun =>
      split
      · next h => rcases h with h | h <;> simp [h]
      · next henum =>
        obtain ⟨henum, htypedef⟩ := not_or.1 henum
        split
        · next h =>
          simp only [h, String.reduceEq, true_and, false_and, false_or, Bool.or_eq_true,
            isReserved_name?_iff]
          exact or_congr_left not_matches_record_iff
        · next hrec => simp [hns, hfun, henum, htypedef, hrec]

theorem isSystem_eq_true_iff {systemPrefixes : List String} {d : Declaration} :
    d.isSystem systemPrefixes = true ↔ d.FromSystem systemPrefixes := by
  simp [isSystem, FromSystem, Option.any_eq_true, Text.startsWith_eq_true_iff]

theorem isKept_eq_true_iff {systemPrefixes : List String} {d : Declaration} :
    d.isKept systemPrefixes = true ↔ ¬ d.RuledOut ∧ ¬ d.FromSystem systemPrefixes := by
  rw [isKept, Bool.and_eq_true, Bool.not_eq_true', Bool.not_eq_true', ← isExcluded_eq_true_iff,
    ← isSystem_eq_true_iff, Bool.not_eq_true, Bool.not_eq_true]

end Declaration

/-! ## Public members -/

/-- Whether members are public behind the given ones. -/
def publicAfter (start : Bool) (ts : List (Tree Declaration)) : Bool :=
  ts.foldl (fun isPublic t => t.label.publicFrom isPublic) start

theorem publicAfter_eq (start : Bool) (ts : List (Tree Declaration)) :
    publicAfter start ts =
      match (ts.filter fun t => t.label.kind = "AccessSpecDecl").getLast? with
      | some specifier => decide (specifier.label.name? = some "public")
      | none => start := by
  induction ts generalizing start with
  | nil => rfl
  | cons t ts ih =>
    rw [publicAfter, List.foldl_cons, ← publicAfter, ih, Declaration.publicFrom]
    by_cases h : t.label.kind = "AccessSpecDecl"
    · rw [List.filter_cons_of_pos (by simpa using h), List.getLast?_cons, if_pos h]
      cases (ts.filter fun t => decide (t.label.kind = "AccessSpecDecl")).getLast? with
      | none => rfl
      | some specifier => rfl
    · rw [List.filter_cons_of_neg (by simpa using h), if_neg h]

theorem publicAtStart_eq_true_iff {d : Declaration} :
    d.publicAtStart = true ↔ ∀ name, d.detail ≠ .record .classTag name := by
  unfold Declaration.publicAtStart
  rcases d.detail with _ | _ | _ | _ | ⟨_ | _ | _, name⟩ | _ | _ <;> simp [RecordTag.publicAtStart]

theorem publicAfter_take_iff {parent : Tree Declaration} {i : Nat} :
    publicAfter parent.label.publicAtStart (parent.children.take (i + 1)) = true ↔
      IsPublicAt parent i := by
  rw [publicAfter_eq, IsPublicAt]
  cases ((parent.children.take (i + 1)).filter fun t =>
    decide (t.label.kind = "AccessSpecDecl")).getLast? with
  | none => exact publicAtStart_eq_true_iff
  | some specifier => exact decide_eq_true_iff

/-! ## What cleanup keeps -/

variable {systemPrefixes : List String}

theorem pruneMembers_ne_nil_iff {start : Bool} {ts : List (Tree Declaration)} :
    pruneMembers systemPrefixes start ts ≠ [] ↔
      ∃ i t, ts[i]? = some t ∧ publicAfter start (ts.take (i + 1)) = true ∧
        (prune systemPrefixes t).isSome := by
  induction ts generalizing start with
  | nil => simp [pruneMembers]
  | cons t ts ih =>
    have hstep : pruneMembers systemPrefixes start (t :: ts) ≠ [] ↔
        (t.label.publicFrom start = true ∧ (prune systemPrefixes t).isSome) ∨
          pruneMembers systemPrefixes (t.label.publicFrom start) ts ≠ [] := by
      rw [pruneMembers]
      cases t.label.publicFrom start <;> cases prune systemPrefixes t <;> simp
    rw [hstep, ih]
    constructor
    · rintro (⟨hpublic, hkept⟩ | ⟨i, s, hs, hpublic, hkept⟩)
      · exact ⟨0, t, rfl, hpublic, hkept⟩
      · exact ⟨i + 1, s, hs, hpublic, hkept⟩
    · rintro ⟨_ | i, s, hs, hpublic, hkept⟩
      · obtain rfl := Option.some.inj hs
        exact .inl ⟨hpublic, hkept⟩
      · exact .inr ⟨i, s, hs, hpublic, hkept⟩

/-- A node is kept if it may stay and, a linkage specification, holds something public that is
kept. -/
theorem isSome_prune_iff {t : Tree Declaration} :
    (prune systemPrefixes t).isSome ↔
      (¬ t.label.RuledOut ∧ ¬ t.label.FromSystem systemPrefixes) ∧
        (t.label.kind = "LinkageSpecDecl" → ∃ i s, t.children[i]? = some s ∧ IsPublicAt t i ∧
          (prune systemPrefixes s).isSome) := by
  obtain ⟨d, ts⟩ := t
  have hmembers := @pruneMembers_ne_nil_iff systemPrefixes d.publicAtStart ts
  have hpublic (i : Nat) := @publicAfter_take_iff (.node d ts) i
  simp only [Tree.label_node, Tree.children_node] at hpublic ⊢
  simp only [hpublic] at hmembers
  rw [← hmembers, ← Declaration.isKept_eq_true_iff, prune]
  by_cases hkept : d.isKept systemPrefixes = true
  · simp only [hkept, if_true, true_and]
    split
    · next h => simp [h.1, List.isEmpty_iff.1 h.2]
    · next h => simpa using h
  · simp [hkept]

theorem eq_of_prune {t u : Tree Declaration} (h : prune systemPrefixes t = some u) :
    u = .node t.label (pruneMembers systemPrefixes t.label.publicAtStart t.children) := by
  obtain ⟨d, ts⟩ := t
  rw [prune] at h
  by_cases hkept : d.isKept systemPrefixes = true
  · rw [if_pos hkept, Option.ite_none_left_eq_some] at h
    exact (Option.some.inj h.2).symm
  · rw [if_neg hkept] at h
    cases h

theorem isKept_of_prune {t u : Tree Declaration} (h : prune systemPrefixes t = some u) :
    t.label.isKept systemPrefixes = true := by
  obtain ⟨hkept, -⟩ := isSome_prune_iff.1 (Option.isSome_of_eq_some h)
  exact Declaration.isKept_eq_true_iff.2 hkept

mutual

/-- Cleanup leaves some of the nodes that can stay, each below the nodes that it was below
before. -/
theorem sublist_trailsBelow_of_prune {u : Tree Declaration} (above : List Declaration) :
    ∀ {t : Tree Declaration}, prune systemPrefixes t = some u →
      (Tree.trailsBelow above u).Sublist
        ((Tree.trailsBelow above t).filter fun x => x.label.isKept systemPrefixes)
  | .node d ts, h => by
    have hkept : d.isKept systemPrefixes = true := isKept_of_prune h
    rw [eq_of_prune h, Tree.trailsBelow, Tree.trailsBelow, List.filter_cons_of_pos (by exact hkept)]
    exact (sublist_forestTrailsBelow_pruneMembers (above ++ [d]) d.publicAtStart ts).cons_cons _

theorem sublist_forestTrailsBelow_pruneMembers (above : List Declaration) (start : Bool) :
    ∀ ts : List (Tree Declaration),
      (Tree.forestTrailsBelow above (pruneMembers systemPrefixes start ts)).Sublist
        ((Tree.forestTrailsBelow above ts).filter fun x => x.label.isKept systemPrefixes)
  | [] => List.Sublist.refl _
  | t :: ts => by
    have hrest := sublist_forestTrailsBelow_pruneMembers above (t.label.publicFrom start) ts
    rw [pruneMembers, Tree.forestTrailsBelow, List.filter_append]
    split
    · cases h : prune systemPrefixes t with
      | none => exact hrest.trans (List.sublist_append_right _ _)
      | some u => exact (sublist_trailsBelow_of_prune above h).append hrest
    · exact hrest.trans (List.sublist_append_right _ _)

end

theorem mem_trails_of_prune {t u : Tree Declaration} (h : prune systemPrefixes t = some u)
    {x : Tree.Trail Declaration} (hx : x ∈ u.trails) :
    x ∈ t.trails ∧ x.label.isKept systemPrefixes = true :=
  List.mem_filter.1 ((sublist_trailsBelow_of_prune [] h).subset hx)

/-! ## Survivors -/

/-- Whether the node at a position is kept, with all nodes above it, and none of them lies in a
section that is not public. -/
def survives (systemPrefixes : List String) : Position → Tree Declaration → Bool
  | [], t => (prune systemPrefixes t).isSome
  | i :: p, t =>
    (prune systemPrefixes t).isSome &&
      publicAfter t.label.publicAtStart (t.children.take (i + 1)) &&
        t.children[i]?.any fun child => survives systemPrefixes p child

theorem survives_cons_iff {t : Tree Declaration} {i : Nat} {p : Position} :
    survives systemPrefixes (i :: p) t = true ↔
      (prune systemPrefixes t).isSome ∧ IsPublicAt t i ∧
        ∃ child, t.children[i]? = some child ∧ survives systemPrefixes p child = true := by
  rw [survives, Bool.and_eq_true, Bool.and_eq_true, publicAfter_take_iff, Option.any_eq_true,
    and_assoc]

theorem survives_append_singleton_iff {t : Tree Declaration} {p : Position} {i : Nat} :
    survives systemPrefixes (p ++ [i]) t = true ↔
      survives systemPrefixes p t = true ∧ ∃ parent s, t.at? p = some parent ∧
        parent.children[i]? = some s ∧ IsPublicAt parent i ∧ (prune systemPrefixes s).isSome := by
  induction p generalizing t with
  | nil =>
    rw [List.nil_append, survives_cons_iff]
    constructor
    · rintro ⟨hkept, hpublic, s, hs, hskept⟩
      exact ⟨hkept, t, s, rfl, hs, hpublic, hskept⟩
    · rintro ⟨hkept, _, s, ⟨⟩, hs, hpublic, hskept⟩
      exact ⟨hkept, hpublic, s, hs, hskept⟩
  | cons j p ih =>
    rw [List.cons_append, survives_cons_iff, survives_cons_iff, Tree.at?_cons]
    cases t.children[j]? with
    | none => simp
    | some child =>
      simp only [Option.some.injEq, exists_eq_left', Option.bind_some, ih, and_assoc]

theorem survives_of_survives_below {t : Tree Declaration} {p q : Position}
    (h : survives systemPrefixes p t = true) (hq : q <+: p) :
    survives systemPrefixes q t = true := by
  induction p using List.reverseRecOn with
  | nil => rwa [List.prefix_nil.1 hq]
  | append_singleton p i ih =>
    rcases List.prefix_concat_iff.1 hq with rfl | hq
    · exact h
    · exact ih (survives_append_singleton_iff.1 h).1 hq

theorem exists_at?_of_survives {t : Tree Declaration} {p : Position}
    (h : survives systemPrefixes p t = true) :
    ∃ s, t.at? p = some s ∧ (prune systemPrefixes s).isSome := by
  induction p using List.reverseRecOn with
  | nil => exact ⟨t, rfl, h⟩
  | append_singleton p i ih =>
    obtain ⟨-, parent, s, hparent, hs, -, hkept⟩ := survives_append_singleton_iff.1 h
    exact ⟨s, Tree.at?_append_singleton_eq_some_iff.2 ⟨parent, hparent, hs⟩, hkept⟩

theorem mayStay_of_survives {t s : Tree Declaration} {p : Position}
    (h : survives systemPrefixes p t = true) (hs : t.at? p = some s) :
    MayStay systemPrefixes t {p | survives systemPrefixes p t = true} p s := by
  obtain ⟨s', hs', hkept⟩ := exists_at?_of_survives h
  obtain rfl := Option.some.inj (hs'.symm.trans hs)
  obtain ⟨⟨hruled, hsystem⟩, hholds⟩ := isSome_prune_iff.1 hkept
  refine ⟨hruled, hsystem, ?_, fun hlinkage => ?_⟩
  · rintro q i parent rfl hparent
    obtain ⟨-, parent', -, hparent', -, hpublic, -⟩ := survives_append_singleton_iff.1 h
    rw [hparent] at hparent'
    obtain rfl := Option.some.inj hparent'
    exact hpublic
  · obtain ⟨i, child, hchild, hpublic, hchildKept⟩ := hholds hlinkage
    exact ⟨i, survives_append_singleton_iff.2 ⟨h, s', child, hs, hchild, hpublic, hchildKept⟩⟩

/-- A node that may stay survives if its parent does. -/
theorem survives_of_mayStay {t s : Tree Declaration} {p : Position} (hs : t.at? p = some s)
    (h : MayStay systemPrefixes t {p | survives systemPrefixes p t = true} p s)
    (habove : ∀ q i, p = q ++ [i] → survives systemPrefixes q t = true) :
    survives systemPrefixes p t = true := by
  have hkept : (prune systemPrefixes s).isSome := by
    refine isSome_prune_iff.2 ⟨⟨h.not_ruledOut, h.not_fromSystem⟩, fun hlinkage => ?_⟩
    obtain ⟨i, hi⟩ := h.not_hollow hlinkage
    obtain ⟨-, parent, child, hparent, hchild, hpublic, hchildKept⟩ :=
      survives_append_singleton_iff.1 hi
    obtain rfl := Option.some.inj (hparent.symm.trans hs)
    exact ⟨i, child, hchild, hpublic, hchildKept⟩
  rcases List.eq_nil_or_concat' p with rfl | ⟨q, i, rfl⟩
  · obtain rfl := Option.some.inj hs
    exact hkept
  · obtain ⟨parent, hparent, hchild⟩ := Tree.at?_append_singleton_eq_some_iff.1 hs
    exact survives_append_singleton_iff.2 ⟨habove q i rfl, parent, s, hparent, hchild,
      h.isPublic q i parent rfl hparent, hkept⟩

theorem areSurvivors_survives (t : Tree Declaration) :
    AreSurvivors systemPrefixes t {p | survives systemPrefixes p t = true} := by
  intro p
  constructor
  · intro h
    obtain ⟨s, hs, -⟩ := exists_at?_of_survives h
    refine ⟨Option.isSome_of_eq_some hs, fun q hq r hr => ?_⟩
    exact mayStay_of_survives (survives_of_survives_below h hq) hr
  · rintro ⟨hp, hall⟩
    -- from the root down, since a node survives only with its parent
    induction p using List.reverseRecOn with
    | nil => exact survives_of_mayStay rfl (hall [] List.prefix_rfl t rfl) (by simp)
    | append_singleton p i ih =>
      obtain ⟨s, hs⟩ := Option.isSome_iff_exists.1 hp
      obtain ⟨parent, hparent, -⟩ := Tree.at?_append_singleton_eq_some_iff.1 hs
      have habove : survives systemPrefixes p t = true :=
        ih (Option.isSome_of_eq_some hparent) fun q hq =>
          hall q (hq.trans (List.prefix_append p [i]))
      refine survives_of_mayStay hs (hall _ List.prefix_rfl s hs) fun q j hq => ?_
      rwa [← (List.append_inj' hq rfl).1]

/-- Cleanup keeps every node of a set that obeys the rule. -/
theorem isSome_prune_of_mem {t : Tree Declaration} {S : Set Position}
    (hS : AreSurvivors systemPrefixes t S) {s : Tree Declaration} {p : Position}
    (hs : t.at? p = some s) (hp : p ∈ S) : (prune systemPrefixes s).isSome := by
  -- from the leaves up, since a linkage specification is kept for what is kept in it
  induction s generalizing p with
  | node d ts ih =>
    have h := ((hS p).1 hp).2 p List.prefix_rfl _ hs
    refine isSome_prune_iff.2 ⟨⟨h.not_ruledOut, h.not_fromSystem⟩, fun hlinkage => ?_⟩
    obtain ⟨i, hi⟩ := h.not_hollow hlinkage
    obtain ⟨hat, hall⟩ := (hS _).1 hi
    obtain ⟨child, hchildAt⟩ := Option.isSome_iff_exists.1 hat
    obtain ⟨parent, hparent, hchild⟩ := Tree.at?_append_singleton_eq_some_iff.1 hchildAt
    obtain rfl := Option.some.inj (hparent.symm.trans hs)
    have hpublic := (hall _ List.prefix_rfl child hchildAt).isPublic p i _ rfl hs
    exact ⟨i, child, hchild, hpublic, ih child (List.mem_of_getElem? hchild) hchildAt hi⟩

theorem survives_of_mem {t : Tree Declaration} {S : Set Position}
    (hS : AreSurvivors systemPrefixes t S) {p : Position} (hp : p ∈ S) :
    survives systemPrefixes p t = true := by
  induction p using List.reverseRecOn with
  | nil => exact isSome_prune_of_mem hS rfl hp
  | append_singleton p i ih =>
    obtain ⟨hat, hall⟩ := (hS _).1 hp
    obtain ⟨s, hs⟩ := Option.isSome_iff_exists.1 hat
    obtain ⟨parent, hparent, hchild⟩ := Tree.at?_append_singleton_eq_some_iff.1 hs
    have habove : p ∈ S := (hS p).2
      ⟨Option.isSome_of_eq_some hparent, fun q hq => hall q (hq.trans (List.prefix_append p [i]))⟩
    have hpublic := (hall _ List.prefix_rfl s hs).isPublic p i parent rfl hparent
    exact survives_append_singleton_iff.2
      ⟨ih habove, parent, s, hparent, hchild, hpublic, isSome_prune_of_mem hS hs hp⟩

/-! ## The tree that is left -/

mutual

theorem prune_eq_restrictTo {keep : Position → Bool} :
    ∀ {t : Tree Declaration}, (∀ p, keep p = survives systemPrefixes p t) →
      prune systemPrefixes t = t.restrictTo keep
  | .node d ts, h => by
    -- if the root is kept, then `survives` asks no more of it at the positions below
    have hroot : keep [] = (prune systemPrefixes (.node d ts)).isSome := h []
    cases hprune : prune systemPrefixes (.node d ts) with
    | none =>
      rw [hprune] at hroot
      exact (Tree.restrictTo_eq_none_iff.2 hroot).symm
    | some u =>
      have hmembers : pruneMembers systemPrefixes d.publicAtStart ts =
          Tree.restrictAllTo keep 0 ts := by
        refine pruneMembers_eq_restrictAllTo fun i p => ?_
        rw [Nat.zero_add, h, survives, hprune]
        rfl
      rw [Tree.restrictTo, hroot, hprune, ← hmembers]
      exact congrArg some (eq_of_prune hprune)

theorem pruneMembers_eq_restrictAllTo {keep : Position → Bool} {start : Bool} {number : Nat} :
    ∀ {ts : List (Tree Declaration)},
      (∀ i p, keep ((number + i) :: p) =
        (publicAfter start (ts.take (i + 1)) && ts[i]?.any fun t => survives systemPrefixes p t)) →
      pruneMembers systemPrefixes start ts = Tree.restrictAllTo keep number ts
  | [], _ => by rw [pruneMembers, Tree.restrictAllTo]
  | t :: ts, h => by
    have hfirst (p : Position) : keep (number :: p) =
        (t.label.publicFrom start && survives systemPrefixes p t) := h 0 p
    have hrest : pruneMembers systemPrefixes (t.label.publicFrom start) ts =
        Tree.restrictAllTo keep (number + 1) ts := by
      refine pruneMembers_eq_restrictAllTo fun i p => ?_
      rw [Nat.add_right_comm, Nat.add_assoc, h (i + 1) p]
      rfl
    rw [pruneMembers, Tree.restrictAllTo, hrest]
    cases hpublic : t.label.publicFrom start with
    | false =>
      rw [Tree.restrictTo_eq_none_iff.2 (by rw [hfirst, hpublic, Bool.false_and])]
      rfl
    | true =>
      have ht : prune systemPrefixes t = t.restrictTo fun p => keep (number :: p) := by
        refine prune_eq_restrictTo fun p => ?_
        rw [hfirst, hpublic, Bool.true_and]
      rw [if_pos rfl, ht]
      cases t.restrictTo fun p => keep (number :: p) <;> rfl

end

/-- Cleanup leaves the tree of the survivors, every node of it as it was and in its place, and
nothing if the root does not survive.  The survivors are the largest set of nodes that, with all
nodes above them, may stay. -/
theorem prune_eq_restrictTo_survivors (systemPrefixes : List String) (t : Tree Declaration) :
    ∃ keep : Position → Bool,
      IsGreatest {S | AreSurvivors systemPrefixes t S} {p | keep p = true} ∧
        prune systemPrefixes t = t.restrictTo keep ∧
        (prune systemPrefixes t = none ↔ keep [] = false) := by
  have hrestrict : prune systemPrefixes t = t.restrictTo fun p => survives systemPrefixes p t :=
    prune_eq_restrictTo fun _ => rfl
  refine ⟨fun p => survives systemPrefixes p t, ⟨areSurvivors_survives t, ?_⟩, hrestrict, ?_⟩
  · exact fun _ hS _ hp => survives_of_mem hS hp
  · rw [hrestrict, Tree.restrictTo_eq_none_iff]

end AddressExport
