import AddressExport.Signature.Parts

/-!
# Types that Python can declare

A function can be called from Python if its result and all its parameters have types that `ctypes`
knows: numbers, characters and pointers.  Qualifiers, spacing and the namespace of the standard
library do not count.  All data pointers are one type, except that pointers to characters are
strings.
-/

namespace AddressExport

/-- A type that Python can declare. -/
inductive ForeignType where
  | void
  | bool
  | char
  | signedChar
  | unsignedChar
  | short
  | unsignedShort
  | int
  | unsignedInt
  | long
  | unsignedLong
  | longLong
  | unsignedLongLong
  | float
  | double
  | longDouble
  | int8
  | int16
  | int32
  | int64
  | uint8
  | uint16
  | uint32
  | uint64
  | size
  | signedSize
  /-- A pointer to characters. -/
  | string
  /-- Any other pointer to data. -/
  | pointer
  deriving DecidableEq, Repr

namespace ForeignType

/-- The spellings of the types that are not pointers. -/
def spellings : List (String × ForeignType) :=
  [("void", void), ("bool", bool), ("_Bool", bool), ("char", char), ("signed char", signedChar),
    ("unsigned char", unsignedChar),
    ("short", short), ("short int", short), ("signed short", short), ("signed short int", short),
    ("unsigned short", unsignedShort), ("unsigned short int", unsignedShort),
    ("int", int), ("signed", int), ("signed int", int),
    ("unsigned", unsignedInt), ("unsigned int", unsignedInt),
    ("long", long), ("long int", long), ("signed long", long), ("signed long int", long),
    ("unsigned long", unsignedLong), ("unsigned long int", unsignedLong),
    ("long long", longLong), ("long long int", longLong), ("signed long long", longLong),
    ("signed long long int", longLong),
    ("unsigned long long", unsignedLongLong), ("unsigned long long int", unsignedLongLong),
    ("float", float), ("double", double), ("long double", longDouble),
    ("int8_t", int8), ("int16_t", int16), ("int32_t", int32), ("int64_t", int64),
    ("uint8_t", uint8), ("uint16_t", uint16), ("uint32_t", uint32), ("uint64_t", uint64),
    ("size_t", size), ("uintptr_t", size),
    ("ssize_t", signedSize), ("ptrdiff_t", signedSize), ("intptr_t", signedSize)]

/-- The words that do not count in the spelling of a type. -/
def qualifiers : List String := ["const", "volatile", "struct", "enum"]

/-- The spelling of a type that counts: its words without the qualifiers. -/
def unqualified (type : List Char) : String :=
  " ".intercalate ((Text.words (String.ofList type)).filter fun w => !qualifiers.contains w)

/-- A spelling without the namespace of the standard library. -/
def unprefixed (base : String) : String :=
  match Text.afterStart? "std::".toList base.toList with
  | some rest => String.ofList rest
  | none => base

/-- The type that a text spells, if Python can declare it. -/
def ofText? (text : String) : Option ForeignType :=
  let type := Text.trimBlanks text.toList
  if type.getLast? = some '&' ∨ type = "...".toList then none
  else
    match Text.beforeEnd? ['*'] type with
    | some pointee => some (if unqualified pointee = "char" then string else pointer)
    | none => spellings.lookup (unprefixed (unqualified type))

/-- The expression that names the type in a Python module. -/
def expression : ForeignType → String
  | void => "None"
  | bool => "ctypes.c_bool"
  | char => "ctypes.c_char"
  | signedChar => "ctypes.c_byte"
  | unsignedChar => "ctypes.c_ubyte"
  | short => "ctypes.c_short"
  | unsignedShort => "ctypes.c_ushort"
  | int => "ctypes.c_int"
  | unsignedInt => "ctypes.c_uint"
  | long => "ctypes.c_long"
  | unsignedLong => "ctypes.c_ulong"
  | longLong => "ctypes.c_longlong"
  | unsignedLongLong => "ctypes.c_ulonglong"
  | float => "ctypes.c_float"
  | double => "ctypes.c_double"
  | longDouble => "ctypes.c_longdouble"
  | int8 => "ctypes.c_int8"
  | int16 => "ctypes.c_int16"
  | int32 => "ctypes.c_int32"
  | int64 => "ctypes.c_int64"
  | uint8 => "ctypes.c_uint8"
  | uint16 => "ctypes.c_uint16"
  | uint32 => "ctypes.c_uint32"
  | uint64 => "ctypes.c_uint64"
  | size => "ctypes.c_size_t"
  | signedSize => "ctypes.c_ssize_t"
  | string => "ctypes.c_char_p"
  | pointer => "ctypes.c_void_p"

/-- The type of a parameter.  No parameter is void. -/
def ofParameter? (text : String) : Option ForeignType :=
  match ofText? text with
  | some void => none
  | type => type

end ForeignType

/-- The type of a function that Python can call. -/
structure ForeignFunction where
  result : ForeignType
  parameters : List ForeignType
  deriving DecidableEq, Repr

namespace ForeignFunction

/-- The type that a signature spells.  The first type that Python cannot declare is refused. -/
def ofText (signature : String) : Except SignatureError ForeignFunction := do
  let parts ← Signature.ofText signature
  let known (text : String) (type : Option ForeignType) : Except SignatureError ForeignType :=
    match type with
    | some t => .ok t
    | none => .error (.unsupportedType text signature)
  let result ← known parts.result (ForeignType.ofText? parts.result)
  let parameters ← parts.parameters.mapM fun p => known p (ForeignType.ofParameter? p)
  return ⟨result, parameters⟩

/-- The expression for the type in a Python module. -/
def expression (f : ForeignFunction) : String :=
  "ctypes.CFUNCTYPE(" ++
    ", ".intercalate (f.result.expression :: f.parameters.map ForeignType.expression) ++ ")"

end ForeignFunction

end AddressExport
