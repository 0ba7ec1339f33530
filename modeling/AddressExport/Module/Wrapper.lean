import AddressExport.Module.Accessors
import AddressExport.Name.Binding
import AddressExport.Signature.Foreign
import AddressExport.Text.Lines

/-!
# The Python module

The module loads the library that the accessors are compiled to.  For each binding whose types
Python can declare it calls the accessor and makes the address a function object, which it exports
under the symbol of the binding.  The other bindings are left out.
-/

namespace AddressExport

/-- The keywords of Python, and the names that the module binds before the first function. -/
def reservedNames : List String :=
  ["False", "None", "True", "and", "as", "assert", "async", "await", "break", "class", "continue",
    "def", "del", "elif", "else", "except", "finally", "for", "from", "global", "if", "import",
    "in", "is", "lambda", "nonlocal", "not", "or", "pass", "raise", "return", "try", "while",
    "with", "yield", "ctypes", "sys"]

/-- The name of a symbol in the module.  Reserved names get an underscore at the end, which no
symbol has. -/
def wrapperName (symbol : String) : String :=
  if symbol ∈ reservedNames then symbol ++ "_" else symbol

namespace Binding

/-- The lines that define the function object. -/
def wrapperLines (b : Binding) (type : ForeignFunction) : List String :=
  let name := wrapperName b.symbol
  ["", "",
    "_lib." ++ b.accessor ++ ".argtypes = ()",
    "_lib." ++ b.accessor ++ ".restype = ctypes.c_void_p",
    "# " ++ b.target.signature,
    "_" ++ name ++ "_signature = " ++ type.expression,
    name ++ " = _" ++ name ++ "_signature(_lib." ++ b.accessor ++ "())",
    "__all__.append(\"" ++ name ++ "\")"]

/-- The type of the target, if Python can call it. -/
def foreignType? (b : Binding) : Option ForeignFunction :=
  (ForeignFunction.ofText b.target.signature).toOption

/-- What there is to note about a binding: that Python cannot call the target. -/
def wrapperNote? (b : Binding) : Option Entry :=
  match ForeignFunction.ofText b.target.signature with
  | .ok _ => none
  | .error e => some ⟨.warn, s!"Not wrapping `{b.target.name.path}` for Python: {e.message}"⟩

end Binding

/-- The module up to the first function, with blanks for its own name and that of the library. -/
def wrapperHeader : String :=
  Text.unlines
    ["",
      "# This Python module `\x7bmodule\x7d` is generated by addrex. Do not edit.",
      "__all__ = []",
      "import ctypes",
      "import sys",
      "",
      "",
      "def _load_library(name):",
      "    if sys.platform.startswith('win'):",
      "        return ctypes.cdll.LoadLibrary(f'\x7bname\x7d.dll')",
      "    if sys.platform == 'darwin':",
      "        return ctypes.cdll.LoadLibrary(f'lib\x7bname\x7d.dylib')",
      "    return ctypes.cdll.LoadLibrary(f'lib\x7bname\x7d.so')",
      "",
      "",
      "_lib = _load_library(\"\x7blibrary\x7d\")"]

namespace ModuleSpec

/-- The source of the Python module. -/
def wrapper (m : ModuleSpec) (bindings : List Binding) : String :=
  Text.fill "\x7blibrary\x7d" m.libraryName (Text.fill "\x7bmodule\x7d" m.name wrapperHeader) ++
    Text.unlines (bindings.flatMap fun b => (b.foreignType?.map b.wrapperLines).getD [])

/-- The symbols that the Python module leaves out. -/
def unwrapped (bindings : List Binding) : List String :=
  (bindings.filter fun b => b.foreignType?.isNone).map Binding.symbol

/-- What there is to note about the Python module. -/
def wrapperNotes (bindings : List Binding) : List Entry := bindings.filterMap Binding.wrapperNote?

end ModuleSpec

end AddressExport
