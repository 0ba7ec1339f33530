import AddressExport.Name.Error
import AddressExport.Text.Blank
import AddressExport.Text.Pieces

/-!
# Qualified names

A qualified name is a list of segments, the enclosing scopes from the outside in and the name itself
at the end: `ns::BarCls::fun` has three.  There is always a segment and none is empty.
-/

namespace AddressExport

/-- A fully qualified name such as `ns::BarCls::fun`. -/
structure QualifiedName where
  segments : List String
  segments_ne_nil : segments ≠ []
  segment_ne_empty : ∀ s ∈ segments, s ≠ ""
  deriving DecidableEq

namespace QualifiedName

/-- The name with the given segments, unless one is empty or there is none. -/
def ofSegments? (segments : List String) : Option QualifiedName :=
  if h : segments ≠ [] ∧ ∀ s ∈ segments, s ≠ "" then some ⟨segments, h.1, h.2⟩ else none

/-- The name with the given segments, taken as they are. -/
def ofSegments (segments : List String) : Except NameError QualifiedName :=
  match ofSegments? segments with
  | some name => .ok name
  | none => .error (.emptySegment ("::".intercalate segments))

/-- The segments that a path spells: its pieces between `::`, each without the blanks around it. -/
def pathSegments (path : String) : List String :=
  (Text.splitTwice ':' path.toList).map fun piece => String.ofList (Text.trimBlanks piece)

/-- Reads a path such as `outer::inner::name`. -/
def ofPath (path : String) : Except NameError QualifiedName :=
  match ofSegments? (pathSegments path) with
  | some name => .ok name
  | none => .error (.emptySegment path)

/-- The segments joined by `::`. -/
def path (n : QualifiedName) : String := "::".intercalate n.segments

/-- The last segment. -/
def baseName (n : QualifiedName) : String := n.segments.getLast n.segments_ne_nil

/-- Whether a name comes in front of another.  Lists of segments are compared segment by segment,
and segments character by character. -/
def isBefore (a b : QualifiedName) : Bool :=
  List.lex a.segments b.segments fun s t => List.lex s.toList t.toList fun c d => c < d

/-- Names in ascending order, each once. -/
def sortUnique (names : List QualifiedName) : List QualifiedName :=
  (names.mergeSort fun a b => !b.isBefore a).eraseReps

theorem ofSegments?_eq_some_iff {segments : List String} {n : QualifiedName} :
    ofSegments? segments = some n ↔ n.segments = segments := by
  constructor
  · intro h
    simp only [ofSegments?] at h
    split at h
    · cases h; rfl
    · cases h
  · rintro rfl
    exact dif_pos ⟨n.segments_ne_nil, n.segment_ne_empty⟩

end QualifiedName

end AddressExport
