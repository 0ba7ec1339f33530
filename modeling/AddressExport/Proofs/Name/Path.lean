import AddressExport.Name.Qualified
import AddressExport.Proofs.Name.Spelling
import AddressExport.Proofs.Text.Blank
import AddressExport.Proofs.Text.Pieces
import Mathlib.Data.Set.Function

/-!
# Paths are read back

A path is cut at `::` from the left, and blanks around the pieces are dropped.  So a text is a path
if no piece is blank (`exists_ofPath_iff`).  Reading gives back the segments that a path was joined
from if none of them holds a colon or has a blank at an end (`ofPath_path`): then no `::` can arise
between two segments and their separator.
-/

namespace AddressExport.QualifiedName

/-! ## Texts that are paths -/

theorem ofPath_eq_ok_iff {path : String} {n : QualifiedName} :
    ofPath path = .ok n ↔ n.segments = pathSegments path := by
  rw [← ofSegments?_eq_some_iff, ofPath]
  cases ofSegments? (pathSegments path) <;> simp

theorem exists_segments_eq_iff {segments : List String} :
    (∃ n : QualifiedName, n.segments = segments) ↔ segments ≠ [] ∧ ∀ s ∈ segments, s ≠ "" := by
  constructor
  · rintro ⟨n, rfl⟩
    exact ⟨n.segments_ne_nil, n.segment_ne_empty⟩
  · rintro ⟨hne, hall⟩
    exact ⟨⟨segments, hne, hall⟩, rfl⟩

theorem pathSegments_ne_nil (path : String) : pathSegments path ≠ [] := by
  simp [pathSegments, Text.splitTwice_ne_nil]

theorem ofList_trimBlanks_ne_iff {piece : List Char} :
    String.ofList (Text.trimBlanks piece) ≠ "" ↔ ∃ c ∈ piece, Text.isBlank c = false := by
  have hempty : String.ofList (Text.trimBlanks piece) = "" ↔ Text.trimBlanks piece = [] := by
    rw [← String.toList_inj, String.toList_ofList, String.toList_empty]
  rw [ne_eq, hempty, Text.trimBlanks_eq_nil_iff]
  simp

theorem exists_ofPath_iff {path : String} :
    (∃ n, ofPath path = .ok n) ↔
      ∀ piece ∈ Text.splitTwice ':' path.toList, ∃ c ∈ piece, Text.isBlank c = false := by
  simp only [ofPath_eq_ok_iff, exists_segments_eq_iff, pathSegments_ne_nil, ne_eq,
    not_false_eq_true, true_and]
  simp only [pathSegments, List.forall_mem_map, ← ne_eq, ofList_trimBlanks_ne_iff]

/-! ## Paths of names -/

/-- No segment holds a colon, or has a blank at an end. -/
def IsPlain (n : QualifiedName) : Prop := ∀ s ∈ n.segments, ':' ∉ s.toList ∧ Text.IsTrimmed s.toList

theorem pathSegments_path {n : QualifiedName} (h : n.IsPlain) :
    pathSegments n.path = n.segments := by
  have hpieces : Text.splitTwice ':' n.path.toList = n.segments.map String.toList := by
    rw [path, String.toList_intercalate]
    apply Text.splitTwice_intercalate
    · simpa using n.segments_ne_nil
    · simp only [List.forall_mem_map]
      exact fun s hs => Text.isPiece_of_not_mem (h s hs).1
  rw [pathSegments, hpieces, List.map_map]
  refine (List.map_congr_left fun s hs => ?_).trans (List.map_id n.segments)
  show String.ofList (Text.trimBlanks s.toList) = s
  rw [(h s hs).2.trimBlanks_eq, String.ofList_toList]

theorem ofPath_path {n : QualifiedName} (h : n.IsPlain) : ofPath n.path = .ok n :=
  ofPath_eq_ok_iff.2 (pathSegments_path h).symm

theorem IsPlain.path_ne_empty {n : QualifiedName} (h : n.IsPlain) : n.path ≠ "" := by
  intro hpath
  have hsegments := pathSegments_path h
  rw [hpath] at hsegments
  exact n.segment_ne_empty "" (by rw [← hsegments]; decide) rfl

theorem injOn_path : Set.InjOn path {n | n.IsPlain} := by
  intro m hm n hn heq
  have hread := (ofPath_path hm).symm.trans (heq ▸ ofPath_path hn)
  exact Except.ok.inj hread

/-- Names that can be exported are made of identifiers. -/
theorem isPlain_of_mangle {n : QualifiedName} {symbol : String} (h : n.mangle = .ok symbol) :
    n.IsPlain := by
  intro s hs
  have hword := isWord_of_mem_segments h hs
  exact ⟨hword.not_mem (by decide), Text.isTrimmed_of_no_blank hword.not_isBlank⟩

/-- A text is read as a name exactly if none of its pieces is blank, where it is cut at `::` from
the left.  A name whose segments hold no colon, and have no blank at their ends, is read back from
its path.  So no two such names have one path, among them all names that can be exported. -/
theorem ofPath_outcome :
    (∀ path : String, ∃ pieces, (∀ ps, Text.IsCut ':' path.toList ps ↔ ps = pieces) ∧
      ((∃ n, ofPath path = .ok n) ↔ ∀ piece ∈ pieces, ∃ c ∈ piece, Text.isBlank c = false)) ∧
    (∀ n : QualifiedName, n.IsPlain → ofPath n.path = .ok n) ∧
    Set.InjOn path {n | n.IsPlain} ∧
    (∀ (n : QualifiedName) (symbol : String), n.mangle = .ok symbol → n.IsPlain) ∧
    Set.InjOn path {n | ∃ symbol, n.mangle = .ok symbol} := by
  refine ⟨fun path => ⟨_, fun ps => Text.isCut_iff, exists_ofPath_iff⟩, fun n => ofPath_path,
    injOn_path, fun n symbol => isPlain_of_mangle, injOn_path.mono ?_⟩
  rintro n ⟨symbol, h⟩
  exact isPlain_of_mangle h

/-- A colon at the end of a segment would be taken for the beginning of the next one. -/
example : (⟨["a:", "b"], by decide, by decide⟩ : QualifiedName).path = "a:::b" ∧
    pathSegments "a:::b" = ["a", ":b"] := by decide

end AddressExport.QualifiedName
