import PackageCoupling.Json.Node

namespace PackageCoupling

inductive Endpoint where
  | package (id : PackageId)
  | type (id : TypeId)
deriving DecidableEq, Repr

namespace Endpoint

def ref : Endpoint → NodeRef
  | package id => id.ref
  | type id    => id.ref

def ofRef? : NodeRef → Option Endpoint
  | ⟨.package, id⟩ => some (package id)
  | ⟨.type, id⟩    => some (type id)
  | _              => none

def toJson (endpoint : Endpoint) : Json :=
  endpoint.ref.toJson

def ofJson? (value : Json) : Option Endpoint := do
  ofRef? (← NodeRef.ofJsonAmong? [.package, .type] value)

end Endpoint
end PackageCoupling
