import AddressExport.Journal

/-!
# Failures of naming

What can go wrong when a name is read, exported or decoded.
-/

namespace AddressExport

/-- A failure of naming. -/
inductive NameError where
  /-- A qualified name has an empty segment, or no segment at all. -/
  | emptySegment (name : String)
  /-- A segment of a name cannot be part of an exported name. -/
  | invalidSegment (segment name : String)
  /-- One name and signature is asked for twice. -/
  | duplicateTarget (name signature : String)
  /-- Two targets would be exported under one accessor. -/
  | collision (accessor first second : String)
  /-- A text is not an accessor name. -/
  | malformedAccessor (accessor : String)
  deriving DecidableEq, Repr

namespace NameError

/-- What the user is told. -/
def diagnostic : NameError → Diagnostic
  | emptySegment name =>
    { code := "NAME-001"
      message := s!"Qualified name `{name}` contains an empty segment"
      help := some "Qualified names look like `outer::inner::name`" }
  | invalidSegment segment name =>
    { code := "NAME-002"
      message := s!"Segment `{segment}` of `{name}` cannot be used in an exported accessor name"
      help := some ("Segments must be C identifiers that start with a letter, contain no `__` " ++
        "and do not end with `_`") }
  | duplicateTarget name signature =>
    { code := "NAME-003"
      message := s!"Target `{name}` with signature `{signature}` is listed more than once"
      help := none }
  | collision accessor first second =>
    { code := "NAME-004"
      message := s!"Accessor `{accessor}` would be exported for both `{first}` and `{second}`"
      help := none }
  | malformedAccessor accessor =>
    { code := "NAME-005"
      message := s!"`{accessor}` is not a well-formed accessor name"
      help := some "Accessor names look like `get_outer__inner__name_address`" }

/-- The sentence of a failure. -/
def message (e : NameError) : String := e.diagnostic.message

end NameError

end AddressExport
