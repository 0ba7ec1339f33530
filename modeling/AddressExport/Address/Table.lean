import AddressExport.Name.Accessor

/-!
# Tables of exported addresses

A loaded library describes what it exports in a table: for each function the name, the signature,
the accessor and the address that the accessor returns.  Functions are looked up by accessor or by
name.  `validate` checks that every accessor is the one derived from the name, and that none comes
twice.
-/

namespace AddressExport

/-- What can go wrong when an address is looked up or a table is checked. -/
inductive ResolveError where
  /-- No entry has the accessor. -/
  | unknownAccessor (accessor : String)
  /-- No entry has the name. -/
  | unknownTarget (target : String)
  /-- The accessor returned no address. -/
  | nullAddress (accessor : String)
  /-- The accessor is not the one derived from the name. -/
  | mismatch (target accessor expected : String)
  /-- Two entries have one accessor. -/
  | duplicateAccessor (accessor : String)
  /-- The name cannot be exported. -/
  | naming (e : NameError)
  deriving DecidableEq, Repr

namespace ResolveError

/-- What the user is told. -/
def diagnostic : ResolveError → Diagnostic
  | unknownAccessor accessor =>
    { code := "RT-001", message := s!"No accessor named `{accessor}` is exported", help := none }
  | unknownTarget target =>
    { code := "RT-002", message := s!"No binding exports `{target}`", help := none }
  | nullAddress accessor =>
    { code := "RT-003", message := s!"Accessor `{accessor}` returned a null address", help := none }
  | mismatch target accessor expected =>
    { code := "RT-004"
      message := s!"Binding for `{target}` is exported as `{accessor}` " ++
        s!"but its name derives to `{expected}`"
      help := some "Rename the accessor to the derived name" }
  | duplicateAccessor accessor =>
    { code := "RT-005"
      message := s!"Accessor `{accessor}` is exported more than once"
      help := none }
  | naming e => e.diagnostic

end ResolveError

/-- An exported function. -/
structure Export where
  /-- The qualified name, such as `ns::ns2::bar`. -/
  target : String
  /-- The signature that callers must assume. -/
  signature : String
  accessor : String
  /-- What the accessor returns; 0 is no address. -/
  address : Int64
  deriving DecidableEq

namespace Export

/-- The entry of a function that is declared by its path: names and accessor come from the
identifiers of the path. -/
def ofPath (identifiers : List String) (signature : String) (address : Int64) : Export :=
  ⟨"::".intercalate identifiers, signature, accessorOfSymbol ("__".intercalate identifiers),
    address⟩

/-- The name of the function. -/
def qualifiedName (e : Export) : Except ResolveError QualifiedName :=
  (QualifiedName.ofPath e.target).mapError ResolveError.naming

/-- The accessor that the name of the function derives to. -/
def derivedAccessor (e : Export) : Except ResolveError String := do
  let name ← e.qualifiedName
  (accessorOfName name).mapError ResolveError.naming

/-- Refuses an entry whose accessor is not the derived one. -/
def checkDerived (e : Export) : Except ResolveError Unit := do
  let expected ← e.derivedAccessor
  if expected = e.accessor then .ok () else .error (.mismatch e.target e.accessor expected)

end Export

/-- A table of exported functions. -/
structure AddressTable where
  entries : List Export
  deriving DecidableEq

namespace AddressTable

/-- The first entry with the accessor. -/
def byAccessor? (t : AddressTable) (accessor : String) : Option Export :=
  t.entries.find? fun e => e.accessor = accessor

/-- The first entry with the name. -/
def byTarget? (t : AddressTable) (target : String) : Option Export :=
  t.entries.find? fun e => e.target = target

/-- The address that an accessor returns. -/
def addressOf (t : AddressTable) (accessor : String) : Except ResolveError Int64 :=
  match t.byAccessor? accessor with
  | some e => if e.address = 0 then .error (.nullAddress accessor) else .ok e.address
  | none => .error (.unknownAccessor accessor)

/-- The address of the function with the name, by way of its accessor. -/
def addressOfTarget (t : AddressTable) (target : String) : Except ResolveError Int64 :=
  match t.byTarget? target with
  | some e => t.addressOf e.accessor
  | none => .error (.unknownTarget target)

/-- Checks entries in order; accessors in `seen` have come before. -/
def validateFrom (seen : List String) : List Export → Except ResolveError Unit
  | [] => .ok ()
  | e :: es => do
    e.checkDerived
    if e.accessor ∈ seen then .error (.duplicateAccessor e.accessor)
    else validateFrom (seen ++ [e.accessor]) es

/-- Checks that every accessor is the derived one and that none comes twice. -/
def validate (t : AddressTable) : Except ResolveError Unit := validateFrom [] t.entries

end AddressTable

/-! ## Addresses as functions -/

/-- Why an address cannot be made a function. -/
inductive PointerFault where
  /-- Pointers to the function do not have the size of an address. -/
  | wrongSize
  /-- There is no address. -/
  | nullAddress
  deriving DecidableEq, Repr

namespace PointerFault

/-- What is said when the program stops. -/
def message : PointerFault → String
  | wrongSize => "function pointer type must be address-sized"
  | nullAddress => "null function address"

end PointerFault

/-- The size of an address in bytes. -/
def addressSize : Nat := 8

/-- The pointer, of the given size, to the function at an address.  Addresses are signed, pointers
are not. -/
def pointerTo (size : Nat) (address : Int64) : Except PointerFault UInt64 :=
  if size ≠ addressSize then .error .wrongSize
  else if address = 0 then .error .nullAddress
  else .ok address.toUInt64

end AddressExport
