import AddressExport.Settings.Basic
import AddressExport.Toml.Document

/-!
# Reading settings

Settings are written in a TOML document with the tables `module`, `clang` and `naming`.  Instead of
a table there may be an array with the values of its keys in their order; values after the last key
are not looked at.  A key that is not known is refused, and so is a value of the wrong kind.
-/

namespace AddressExport.Settings

open Toml (Value)

/-! ## Values -/

/-- A text. -/
def text? : Value → Option String
  | .string s => some s
  | _ => none

/-- A truth value. -/
def boolean? : Value → Option Bool
  | .boolean b => some b
  | _ => none

/-- A list of texts. -/
def texts? : Value → Option (List String)
  | .array values => values.mapM text?
  | _ => none

/-- A list of paths. -/
def paths? (value : Value) : Option (List Path) :=
  (texts? value).map fun texts => texts.map Path.mk

/-- Reads a value that may be absent. -/
def ifPresent {α : Type} (read : Value → Option α) : Option Value → Option (Option α)
  | none => some none
  | some value => (read value).map some

/-- Reads a value that has a default. -/
def orElse {α : Type} (standard : α) (read : Value → Option α) (value : Option Value) : Option α :=
  (ifPresent read value).map fun a => a.getD standard

/-! ## Tables -/

/-- The values of the given keys, in their order, if there are no other keys. -/
def fields? (keys : List String) : Value → Option (List (Option Value))
  | .table _ entries =>
    if entries.all fun e => keys.contains e.1 then some (keys.map fun k => entries.lookup k)
    else none
  | .array values => some ((List.range keys.length).map fun i => values[i]?)
  | _ => none

/-- The table `module`. -/
def module? (value : Value) : Option ModuleSettings := do
  match ← fields? ["name", "headers", "sources"] value with
  | [name, headers, sources] =>
    return { name := ← ifPresent text? name
             headers := ← orElse [] paths? headers
             sources := ← orElse [] paths? sources }
  | _ => none

/-- The table `clang`. -/
def compiler? (value : Value) : Option CompilerSettings := do
  match ← fields? ["exe", "dump_flags", "build_flags", "extra_flags"] value with
  | [executable, dumpFlags, buildFlags, extraFlags] =>
    return { executable := ← ifPresent text? executable
             dumpFlags := ← ifPresent text? dumpFlags
             buildFlags := ← ifPresent text? buildFlags
             extraFlags := ← ifPresent text? extraFlags }
  | _ => none

/-- The table `naming`. -/
def naming? (value : Value) : Option NamingSettings := do
  match ← fields? ["strict", "system_prefixes"] value with
  | [strict, systemPrefixes] =>
    return { strict := ← orElse false boolean? strict
             systemPrefixes := ← ifPresent texts? systemPrefixes }
  | _ => none

/-- The settings that a document holds. -/
def ofText? (document : String) : Option Settings := do
  let entries ← Toml.read? document
  match ← fields? ["module", "clang", "naming"] (.table .stated entries) with
  | [module, compiler, naming] =>
    return { module := ← orElse {} module? module
             compiler := ← orElse {} compiler? compiler
             naming := ← orElse {} naming? naming }
  | _ => none

end AddressExport.Settings
