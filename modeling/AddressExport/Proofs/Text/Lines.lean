import AddressExport.Proofs.Text.Blank
import AddressExport.Text.Lines
import Mathlib.Data.List.Basic

/-!
# Lines that are written and read

`Text.lines_unlines` reads written lines back if none ends in a carriage return.  Such a carriage
return becomes part of the line end: of each line that ends in one, `Text.lines` drops it
(`lines_unlines_chomp`).
-/

namespace AddressExport.Text

/-- A line without the carriage return at its end, if it has one there. -/
def chomp (l : List Char) : List Char :=
  if l.getLast? = some '\r' then l.dropLast else l

theorem chomp_append {a b : List Char} (hb : b ≠ []) : chomp (a ++ b) = a ++ chomp b := by
  rw [chomp, chomp, List.getLast?_append_of_ne_nil a hb, List.dropLast_append_of_ne_nil hb]
  split <;> rfl

theorem chomp_prefix (l : List Char) : chomp l <+: l := by
  unfold chomp
  split
  · exact List.dropLast_prefix l
  · exact List.prefix_refl l

theorem splitLines_append_crlf {l : List Char} (hl : '\n' ∉ l) (rest : List Char) :
    splitLines (l ++ '\r' :: '\n' :: rest) = l :: splitLines rest := by
  induction l with
  | nil => rfl
  | cons c l ih =>
    have hc : c ≠ '\n' := fun h => hl (by simp [h])
    have hl' : '\n' ∉ l := fun h => hl (List.mem_cons_of_mem c h)
    have hhead : (l ++ '\r' :: '\n' :: rest).head? ≠ some '\n' := by
      cases l with
      | nil => simp
      | cons d l =>
        have hd : d ≠ '\n' := fun h => hl' (by simp [h])
        simpa using hd
    rw [List.cons_append, splitLines_cons hc fun _ => hhead, ih hl']

theorem splitLines_append_lineFeed_chomp {l : List Char} (hl : '\n' ∉ l) (rest : List Char) :
    splitLines (l ++ '\n' :: rest) = chomp l :: splitLines rest := by
  by_cases hr : l.getLast? = some '\r'
  · obtain ⟨m, rfl⟩ := List.getLast?_eq_some_iff.1 hr
    have hm : '\n' ∉ m := fun h => hl (List.mem_append_left _ h)
    rw [chomp, if_pos hr, List.dropLast_concat, List.append_assoc, List.singleton_append,
      splitLines_append_crlf hm]
  · rw [chomp, if_neg hr, splitLines_append_lineFeed hl hr]

theorem lineFeed_not_mem_splitLines (s : List Char) : ∀ l ∈ splitLines s, '\n' ∉ l := by
  fun_induction splitLines s with
  | case1 => exact List.forall_mem_nil _
  | case2 r ih => exact List.forall_mem_cons.2 ⟨List.not_mem_nil, ih⟩
  | case3 r ih => exact List.forall_mem_cons.2 ⟨List.not_mem_nil, ih⟩
  | case4 c r hc _ _ _ => simpa using fun h => hc h.symm
  | case5 c r hc _ l ls hls ih =>
    rw [hls, List.forall_mem_cons] at ih
    refine List.forall_mem_cons.2 ⟨fun hmem => ?_, ih.2⟩
    rcases List.mem_cons.1 hmem with h | h
    · exact hc h.symm
    · exact ih.1 h

theorem lineFeed_not_mem_lines (s : String) : ∀ l ∈ lines s, '\n' ∉ l.toList := by
  intro l hl
  obtain ⟨cs, hcs, rfl⟩ := List.mem_map.1 hl
  rw [String.toList_ofList]
  exact lineFeed_not_mem_splitLines s.toList cs hcs

theorem unlines_nil : unlines [] = "" := rfl

theorem unlines_append (ls ms : List String) : unlines (ls ++ ms) = unlines ls ++ unlines ms := by
  rw [unlines, List.flatMap_append, String.ofList_append]
  rfl

theorem lines_unlines_chomp {ls : List String} (hl : ∀ l ∈ ls, '\n' ∉ l.toList) :
    lines (unlines ls) = ls.map fun l => String.ofList (chomp l.toList) := by
  rw [lines, unlines, String.toList_ofList]
  induction ls with
  | nil => rfl
  | cons l ls ih =>
    rw [List.forall_mem_cons] at hl
    rw [List.flatMap_cons, List.append_assoc, List.singleton_append,
      splitLines_append_lineFeed_chomp hl.1, List.map_cons, ih hl.2, List.map_cons]

theorem trimBlanks_chomp (l : List Char) : trimBlanks (chomp l) = trimBlanks l := by
  unfold chomp
  split
  · next hr =>
    obtain ⟨m, rfl⟩ := List.getLast?_eq_some_iff.1 hr
    rw [List.dropLast_concat, trimBlanks_append_blank m rfl]
  · rfl

end AddressExport.Text
