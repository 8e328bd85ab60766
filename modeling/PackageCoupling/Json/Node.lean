import PackageCoupling.Node
import PackageCoupling.Json.Record

namespace PackageCoupling

-- Ids, lines and columns have 32 bits in documents, and counts have 64.
def Json.idBound : Nat := UInt32.size

def Json.countBound : Nat := UInt64.size

namespace NodeId

variable {kind : NodeKind}

def toJson (id : NodeId kind) : Json :=
  .ofNat id.val

def ofJson? (value : Json) : Option (NodeId kind) :=
  (value.natBelow? Json.idBound).map (⟨·⟩)

end NodeId

namespace NodeRef

def toJson (node : NodeRef) : Json :=
  .ofFields [("kind", .ofText node.kind.name), ("id", node.id.toJson)]

-- Reads a reference to a node of one of the given kinds. In an array the kind is always text.
def ofJsonAmong? (kinds : List NodeKind) (value : Json) : Option NodeRef := do
  let record ← value.record? ["kind", "id"]
  let choice? := if record.positional then Json.spelled? else Json.choice?
  let kind ← record.required? "kind" (choice? kinds NodeKind.name)
  return ⟨kind, ← record.required? "id" NodeId.ofJson?⟩

def ofJson? (value : Json) : Option NodeRef :=
  ofJsonAmong? NodeKind.all value

end NodeRef

namespace TypeKind

def toJson (kind : TypeKind) : Json :=
  .ofText kind.name

def ofJson? (value : Json) : Option TypeKind :=
  value.choice? all name

end TypeKind

namespace CallableKind

def toJson (kind : CallableKind) : Json :=
  .ofText kind.name

def ofJson? (value : Json) : Option CallableKind :=
  value.choice? all name

end CallableKind

namespace Modifier

def toJson (modifier : Modifier) : Json :=
  .ofText modifier.name

def ofJson? (value : Json) : Option Modifier :=
  value.choice? all name

end Modifier

namespace Modifiers

def toJson (modifiers : Modifiers) : Json :=
  .ofFields [("modifiers", .ofList Modifier.toJson modifiers.list)]

-- Equal modifiers in a document are all kept.
def ofJson? (value : Json) : Option Modifiers := do
  let record ← value.record? ["modifiers"]
  return ⟨← record.required? "modifiers" (Json.list? Modifier.ofJson?)⟩

end Modifiers

namespace Location

def toJson (location : Location) : Json :=
  .ofFields [
    ("file", .ofText location.file),
    ("line", .ofNat location.line.toNat),
    ("col", .ofNat location.col.toNat)]

def ofJson? (value : Json) : Option Location := do
  let record ← value.record? ["file", "line", "col"]
  return {
    file := ← record.required? "file" Json.text?
    line := .ofNat (← record.required? "line" (Json.natBelow? Json.idBound))
    col := .ofNat (← record.required? "col" (Json.natBelow? Json.idBound)) }

end Location

namespace Header

def toJson (header : Header) : Json :=
  .ofFields [("name", .ofText header.name), ("location", .ofOption Location.toJson header.location)]

def ofJson? (value : Json) : Option Header := do
  let record ← value.record? ["name", "location"]
  return {
    name := ← record.required? "name" Json.text?
    location := ← record.optional? "location" Location.ofJson? }

end Header

namespace Package

def toJson (package : Package) : Json :=
  .ofFields [
    ("package_id", package.id.toJson),
    ("header", package.header.toJson),
    ("types", .ofList NodeId.toJson package.types),
    ("functions", .ofList NodeId.toJson package.functions)]

def ofJson? (value : Json) : Option Package := do
  let record ← value.record? ["package_id", "header", "types", "functions"]
  return {
    id := ← record.required? "package_id" NodeId.ofJson?
    header := ← record.required? "header" Header.ofJson?
    types := ← record.required? "types" (Json.list? NodeId.ofJson?)
    functions := ← record.required? "functions" (Json.list? NodeId.ofJson?) }

end Package

namespace TypeDecl

def toJson (type : TypeDecl) : Json :=
  .ofFields [
    ("type_id", type.id.toJson),
    ("kind", type.kind.toJson),
    ("header", type.header.toJson),
    ("package", type.package.toJson),
    ("modifiers", type.modifiers.toJson),
    ("parent_class", .ofOption NodeId.toJson type.parent),
    ("interfaces", .ofList NodeId.toJson type.interfaces),
    ("constants", .ofList NodeId.toJson type.constants),
    ("properties", .ofList NodeId.toJson type.properties),
    ("methods", .ofList NodeId.toJson type.methods),
    ("dependencies", .ofList NodeId.toJson type.dependencies),
    ("children", .ofList NodeId.toJson type.children)]

def ofJson? (value : Json) : Option TypeDecl := do
  let record ← value.record? [
    "type_id", "kind", "header", "package", "modifiers", "parent_class", "interfaces", "constants",
    "properties", "methods", "dependencies", "children"]
  return {
    id := ← record.required? "type_id" NodeId.ofJson?
    kind := ← record.required? "kind" TypeKind.ofJson?
    header := ← record.required? "header" Header.ofJson?
    package := ← record.required? "package" NodeId.ofJson?
    modifiers := ← record.required? "modifiers" Modifiers.ofJson?
    parent := ← record.optional? "parent_class" NodeId.ofJson?
    interfaces := ← record.required? "interfaces" (Json.list? NodeId.ofJson?)
    constants := ← record.required? "constants" (Json.list? NodeId.ofJson?)
    properties := ← record.required? "properties" (Json.list? NodeId.ofJson?)
    methods := ← record.required? "methods" (Json.list? NodeId.ofJson?)
    dependencies := ← record.required? "dependencies" (Json.list? NodeId.ofJson?)
    children := ← record.required? "children" (Json.list? NodeId.ofJson?) }

end TypeDecl

namespace Callable

def toJson (callable : Callable) : Json :=
  .ofFields [
    ("callable_id", callable.id.toJson),
    ("kind", callable.kind.toJson),
    ("header", callable.header.toJson),
    ("owner", .ofOption NodeId.toJson callable.owner),
    ("package", .ofOption NodeId.toJson callable.package),
    ("modifiers", callable.modifiers.toJson),
    ("parameters", .ofList NodeId.toJson callable.parameters),
    ("dependencies", .ofList NodeId.toJson callable.dependencies),
    ("exception_types", .ofList NodeId.toJson callable.exceptions),
    ("return_type", .ofOption NodeId.toJson callable.returnType)]

def ofJson? (value : Json) : Option Callable := do
  let record ← value.record? [
    "callable_id", "kind", "header", "owner", "package", "modifiers", "parameters", "dependencies",
    "exception_types", "return_type"]
  return {
    id := ← record.required? "callable_id" NodeId.ofJson?
    kind := ← record.required? "kind" CallableKind.ofJson?
    header := ← record.required? "header" Header.ofJson?
    owner := ← record.optional? "owner" NodeId.ofJson?
    package := ← record.optional? "package" NodeId.ofJson?
    modifiers := ← record.required? "modifiers" Modifiers.ofJson?
    parameters := ← record.required? "parameters" (Json.list? NodeId.ofJson?)
    dependencies := ← record.required? "dependencies" (Json.list? NodeId.ofJson?)
    exceptions := ← record.required? "exception_types" (Json.list? NodeId.ofJson?)
    returnType := ← record.optional? "return_type" NodeId.ofJson? }

end Callable

namespace Parameter

def toJson (parameter : Parameter) : Json :=
  .ofFields [
    ("parameter_id", parameter.id.toJson),
    ("header", parameter.header.toJson),
    ("callable", parameter.callable.toJson),
    ("position", .ofNat parameter.position),
    ("type_ref", .ofOption NodeId.toJson parameter.type)]

def ofJson? (value : Json) : Option Parameter := do
  let record ← value.record? ["parameter_id", "header", "callable", "position", "type_ref"]
  return {
    id := ← record.required? "parameter_id" NodeId.ofJson?
    header := ← record.required? "header" Header.ofJson?
    callable := ← record.required? "callable" NodeId.ofJson?
    position := ← record.required? "position" (Json.natBelow? Json.countBound)
    type := ← record.optional? "type_ref" NodeId.ofJson? }

end Parameter

namespace Property

def toJson (property : Property) : Json :=
  .ofFields [
    ("property_id", property.id.toJson),
    ("header", property.header.toJson),
    ("owner", property.owner.toJson),
    ("modifiers", property.modifiers.toJson),
    ("type_ref", .ofOption NodeId.toJson property.type)]

def ofJson? (value : Json) : Option Property := do
  let record ← value.record? ["property_id", "header", "owner", "modifiers", "type_ref"]
  return {
    id := ← record.required? "property_id" NodeId.ofJson?
    header := ← record.required? "header" Header.ofJson?
    owner := ← record.required? "owner" NodeId.ofJson?
    modifiers := ← record.required? "modifiers" Modifiers.ofJson?
    type := ← record.optional? "type_ref" NodeId.ofJson? }

end Property

namespace Constant

def toJson (constant : Constant) : Json :=
  .ofFields [
    ("constant_id", constant.id.toJson),
    ("header", constant.header.toJson),
    ("owner", constant.owner.toJson),
    ("referenced_type", .ofOption NodeId.toJson constant.target)]

def ofJson? (value : Json) : Option Constant := do
  let record ← value.record? ["constant_id", "header", "owner", "referenced_type"]
  return {
    id := ← record.required? "constant_id" NodeId.ofJson?
    header := ← record.required? "header" Header.ofJson?
    owner := ← record.required? "owner" NodeId.ofJson?
    target := ← record.optional? "referenced_type" NodeId.ofJson? }

end Constant
end PackageCoupling
