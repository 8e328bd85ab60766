import PackageCoupling.Graph.Edit

namespace PackageCoupling

def substituteSlot (old new : TypeId) (slot : Option TypeId) : Option TypeId :=
  if slot = some old then some new else slot

-- How many places hold a type, where a list counts as one place.
def placesIn (old : TypeId) (types : List TypeId) : Nat :=
  if old ∈ types then 1 else 0

def placesInSlot (old : TypeId) (slot : Option TypeId) : Nat :=
  if slot = some old then 1 else 0

namespace TypeDecl

def substitute (old new : TypeId) (type : TypeDecl) : TypeDecl :=
  { type with
    parent := substituteSlot old new type.parent
    interfaces := Distinct.substitute old new type.interfaces }

def places (old : TypeId) (type : TypeDecl) : Nat :=
  placesInSlot old type.parent + placesIn old type.interfaces

end TypeDecl

namespace Callable

def substitute (old new : TypeId) (callable : Callable) : Callable :=
  { callable with
    dependencies := Distinct.substitute old new callable.dependencies
    exceptions := Distinct.substitute old new callable.exceptions
    returnType := substituteSlot old new callable.returnType }

def places (old : TypeId) (callable : Callable) : Nat :=
  placesIn old callable.dependencies + placesIn old callable.exceptions + placesInSlot old callable.returnType

end Callable

namespace Graph

def placesAmong {kind : NodeKind} {α : Type} (nodes : Arena kind α) (places : α → Nat) : Nat :=
  nodes.toList.foldl (fun total a => total + places a) 0

def places (graph : Graph) (old : TypeId) : Nat :=
  placesAmong graph.callables (Callable.places old)
    + placesAmong graph.parameters (fun p => placesInSlot old p.type)
    + placesAmong graph.properties (fun p => placesInSlot old p.type)
    + placesAmong graph.constants (fun c => placesInSlot old c.target)
    + placesAmong graph.types (TypeDecl.places old)

-- Puts `new` in the place of `old` except in dependencies between types.
def substitutePlaces (graph : Graph) (old new : TypeId) : Graph :=
  { graph with
    callables := graph.callables.map (Callable.substitute old new)
    parameters := graph.parameters.map fun p => { p with type := substituteSlot old new p.type }
    properties := graph.properties.map fun p => { p with type := substituteSlot old new p.type }
    constants := graph.constants.map fun c => { c with target := substituteSlot old new c.target }
    types := graph.types.map (TypeDecl.substitute old new) }

-- Makes what belongs to `old`, as `decl` says, belong to `new`.
def moveMembers (graph : Graph) (decl : TypeDecl) (old new : TypeId) : Graph :=
  let graph := graph.updateType old fun t => { t with methods := [], properties := [], constants := [] }
  let graph := decl.methods.foldl (fun g m => g.updateCallable m fun c => { c with owner := some new }) graph
  let graph := decl.properties.foldl (fun g p => g.updateProperty p fun n => { n with owner := new }) graph
  let graph := decl.constants.foldl (fun g c => g.updateConstant c fun n => { n with owner := new }) graph
  graph.updateType new fun t =>
    { t with
      methods := decl.methods.foldl Distinct.add t.methods
      properties := t.properties ++ decl.properties
      constants := t.constants ++ decl.constants }

namespace Edit

-- Puts one type in the place of another wherever the latter is mentioned, which is left without
-- dependencies and members. Returns how many places held it, together with how many dependencies and
-- members it had.
def substitute (old new : TypeId) : Edit Nat := do
  discard (requireType new)
  let decl ← requireType old
  let places ← modifyGet fun g => (g.places old, g.substitutePlaces old new)
  decl.dependencies.forM fun target => do
    discard (disconnect old target)
    if target ≠ new then
      discard (connect new target)
  decl.children.forM fun child => do
    discard (disconnect child old)
    if child ≠ new then
      discard (connect child new)
  modify (·.moveMembers decl old new)
  return places + decl.dependencies.length + decl.children.length
    + decl.methods.length + decl.properties.length + decl.constants.length

-- Erases a type together with its dependencies in both directions. Members are not erased, nor are other
-- mentions of the type. Returns the type as it was in the end.
def eraseType (type : TypeId) : Edit TypeDecl := do
  let decl ← requireType type
  decl.dependencies.forM fun target => discard (disconnect type target)
  decl.children.forM fun child => discard (disconnect child type)
  modify (·.updatePackage decl.package fun p => { p with types := Distinct.remove p.types type })
  let erased ← requireType type
  modify fun g => { g with types := g.types.erase type }
  return erased

end Edit
end Graph
end PackageCoupling
