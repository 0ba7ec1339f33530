import AddressExport.Name.Binding
import AddressExport.Signature.Parts
import AddressExport.Text.Lines

/-!
# The source of the accessors

For a list of bindings two files are generated (`ModuleSpec`): the source of their accessors, which
is compiled to a shared library, and a Python module that loads the library and calls them.

For each binding the source defines an accessor, a function with C linkage that returns the address
of the target.  A name that stands alone needs no type to take its address, and its signature may
name types that are unknown outside the target's scope.  An overload is picked by a cast to the type
of its pointer.
-/

namespace AddressExport

/-! ## Modules to generate -/

/-- What is generated: the name of the Python module, and the headers that declare the targets, as
the source of the accessors includes them. -/
structure ModuleSpec where
  name : String
  headers : List String
  deriving DecidableEq, Repr

namespace ModuleSpec

/-- The name of the shared library, without what systems put around it. -/
def libraryName (m : ModuleSpec) : String := "addrex_" ++ m.name

/-- The file of the accessors. -/
def accessorsFile (m : ModuleSpec) : String := m.libraryName ++ ".cpp"

/-- The file of the Python module. -/
def wrapperFile (m : ModuleSpec) : String := m.name ++ ".py"

/-- The file of the shared library. -/
def libraryFile (m : ModuleSpec) : String := "lib" ++ m.libraryName ++ ".so"

end ModuleSpec

/-! ## Accessors -/

namespace Binding

/-- The expression for the address of the target. -/
def addressExpression (b : Binding) : String :=
  let path := b.target.name.path
  let plain := "std::addressof(" ++ path ++ ")"
  if b.isOverload then
    match pointerType b.target.signature with
    | .ok type => "static_cast<" ++ type ++ ">(&" ++ path ++ ")"
    | .error _ => plain
  else plain

/-- The lines that define the accessor. -/
def accessorLines (b : Binding) : List String :=
  ["",
    "extern \"C\" intptr_t " ++ b.accessor ++ "() \x7b",
    "  /* " ++ b.target.signature ++ " */",
    "  return reinterpret_cast<intptr_t>(" ++ b.addressExpression ++ ");",
    "\x7d"]

/-- What there is to note about an accessor: that it cannot pick its overload. -/
def accessorNote? (b : Binding) : Option Entry :=
  if b.isOverload then
    match pointerType b.target.signature with
    | .ok _ => none
    | .error e =>
      let path := b.target.name.path
      some ⟨.warn, s!"{e.message}; taking the address of overloaded `{path}` without a cast"⟩
  else none

end Binding

namespace ModuleSpec

/-- The lines in front of the accessors. -/
def accessorsHeader (m : ModuleSpec) : List String :=
  ["// Generated by addrex for module `" ++ m.name ++ "`. Do not edit.", "#include <memory>",
    "#include <cstdint>"] ++ m.headers.map fun h => "#include \"" ++ h ++ "\""

/-- The source that defines the accessors of bindings. -/
def accessors (m : ModuleSpec) (bindings : List Binding) : String :=
  Text.unlines (m.accessorsHeader ++ bindings.flatMap Binding.accessorLines)

/-- What there is to note about the accessors of bindings. -/
def accessorNotes (bindings : List Binding) : List Entry := bindings.filterMap Binding.accessorNote?

end ModuleSpec

end AddressExport
