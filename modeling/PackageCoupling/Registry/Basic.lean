import PackageCoupling.Graph.Grow
import PackageCoupling.QualifiedName
import PackageCoupling.Registry.Generation

namespace PackageCoupling

@[ext]
structure Registry where
  graph : Graph
  config : Config
  defaultPackage : PackageId
  active : Generation := ∅
  -- What was known when a type was asked for the first time. No later declaration takes it up again.
  frozen : Generation := ∅
  -- Types that were asked for and have not been declared since.
  placeholders : List TypeId := []
  isFrozen : Bool := false
  isFinalized : Bool := false

inductive Sought where
  | type (kind : TypeKind)
  | classOrInterface
deriving DecidableEq, Repr

namespace Sought

def kinds : Sought → List TypeKind
  | type kind        => [kind]
  | classOrInterface => [.cls, .interface]

def assumed : Sought → TypeKind
  | type kind        => kind
  | classOrInterface => .cls

end Sought

-- How a name was resolved: by a known type, by a type that was moved out of the default package, or by a
-- new type.
inductive Resolution where
  | reused
  | promoted
  | created
deriving DecidableEq, Repr

namespace Registry

-- The registry of a configuration that is taken to be valid.
def ofConfig (config : Config) : Registry :=
  let (defaultPackage, graph) := Graph.ensurePackage ∅ config.defaultPackage
  { graph := graph, config := config, defaultPackage := defaultPackage }

def create (config : Config) : Except Fault Registry := do
  config.validate
  return ofConfig config

-- All packages in order, except for the default package if nothing belongs to it.
def packages (registry : Registry) : List Package :=
  registry.graph.packages.toList.filter fun p => !(p.id = registry.defaultPackage && p.isEmpty)

def split (registry : Registry) (name : String) : QualifiedName :=
  QualifiedName.split registry.config true name

def lookup? (registry : Registry) (kind : TypeKind) (name : QualifiedName) : Option TypeId :=
  registry.frozen.find? kind name.key name.package registry.config.defaultPackage <|>
    registry.active.find? kind name.key name.package registry.config.defaultPackage

def freeze (registry : Registry) : Registry :=
  if registry.isFrozen then registry
  else { registry with isFrozen := true, frozen := registry.active, active := ∅ }

def newType (registry : Registry) (kind : TypeKind) (name : QualifiedName) : TypeId × Registry :=
  let (id, graph) := registry.graph.newType kind name.localName name.package
  (id, { registry with graph, active := registry.active.insert kind name.key name.package id })

-- Resolves a name in the active generation. A type that is only known in the default package moves to the
-- package that is asked for, and a request for the default package takes what was known first.
def resolve (registry : Registry) (kind : TypeKind) (name : QualifiedName) :
    TypeId × Resolution × Registry :=
  let default := registry.config.defaultPackage
  let created :=
    let (id, registry) := registry.newType kind name
    (id, .created, registry)
  match registry.active.inPackage? kind name.key name.package with
  | some id => (id, .reused, registry)
  | none =>
    if name.package = default then
      match registry.active.first? kind name.key with
      | some id => (id, .reused, registry)
      | none    => created
    else
      match registry.active.only? kind name.key default with
      | none => created
      | some id =>
        match registry.graph.relocate id name.package with
        | (none, _)       => created
        | (some _, graph) =>
          (id, .promoted, { registry with
            graph, active := registry.active.relocate kind name.key id name.package })

-- The type of a name. One that is not known is made up and kept as a placeholder.
def seek (registry : Registry) (sought : Sought) (name : String) : TypeId × Registry :=
  let registry := registry.freeze
  let name := registry.split name
  match sought.kinds.findSome? (registry.lookup? · name) with
  | some id => (id, registry)
  | none =>
    match registry.resolve sought.assumed name with
    | (id, .created, registry) =>
      (id, { registry with placeholders := Distinct.add registry.placeholders id })
    | (id, _, registry) => (id, registry)

def finalize (registry : Registry) : Registry :=
  { registry with isFinalized := true }

end Registry
end PackageCoupling
