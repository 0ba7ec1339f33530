import AddressExport.Address.Table

/-!
# A sample library

A small library with three exported functions, a free one, one in a namespace and a member of a
type.  Where they lie in memory does not matter: each has an address of its own.
-/

namespace AddressExport.Sample

/-- `foo : int → int`, the square and one, in 32 bits. -/
def foo (x : Int32) : Int32 := x * x + 1

/-- `ns::ns2::bar : double → double`, a half and a quarter. -/
def bar (x : Float) : Float := x / 2 + 0.25

/-- `ns::BarCls::fun`, which has no parameters. -/
def answer : Int32 := 42

/-- The functions by their types. -/
inductive Function where
  | ofInt (f : Int32 → Int32)
  | ofDouble (f : Float → Float)
  | constant (value : Int32)

/-- The addresses of the functions. -/
def fooAddress : Int64 := 0x1000
def barAddress : Int64 := 0x2000
def answerAddress : Int64 := 0x3000

/-- What the library exports. -/
def table : AddressTable :=
  ⟨[Export.ofPath ["foo"] "extern \"C\" fn(i32) -> i32" fooAddress,
    Export.ofPath ["ns", "ns2", "bar"] "extern \"C\" fn(f64) -> f64" barAddress,
    Export.ofPath ["ns", "BarCls", "fun"] "extern \"C\" fn() -> i32" answerAddress]⟩

/-- The function at an address. -/
def functionAt? (address : Int64) : Option Function :=
  if address = fooAddress then some (.ofInt foo)
  else if address = barAddress then some (.ofDouble bar)
  else if address = answerAddress then some (.constant answer)
  else none

end AddressExport.Sample
