import PackageCoupling.Config
import PackageCoupling.Json.Parse
import PackageCoupling.Json.Record

namespace PackageCoupling

namespace BuiltinTable

def toJson (table : BuiltinTable) : Json :=
  .ofFields [("package", .ofText table.package), ("types", .ofList .ofText table.types)]

def ofJson? (value : Json) : Option BuiltinTable := do
  let record ← value.record? ["package", "types"]
  return {
    package := ← record.required? "package" Json.text?
    types := ← record.required? "types" (Json.list? Json.text?) }

end BuiltinTable

namespace Config

def toJson (config : Config) : Json :=
  .ofFields [
    ("default_package", .ofText config.defaultPackage),
    ("separators", .ofList .ofText config.separators),
    ("builtin_packages", .ofList BuiltinTable.toJson config.builtins)]

def ofJson? (value : Json) : Option Config := do
  let record ← value.record? ["default_package", "separators", "builtin_packages"]
  let default : Config := {}
  return {
    defaultPackage := ← record.withDefault? "default_package" default.defaultPackage Json.text?
    separators := ← record.withDefault? "separators" default.separators (Json.list? Json.text?)
    builtins := ← record.withDefault? "builtin_packages" default.builtins (Json.list? BuiltinTable.ofJson?) }

def ofDocument (text : String) : Except Fault Config := do
  match Json.parse? text >>= ofJson? with
  | none        => throw (.invalidConfig .unreadable)
  | some config =>
    config.validate
    return config

end Config
end PackageCoupling
