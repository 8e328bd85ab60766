import PackageCoupling.Registry.Basic

namespace PackageCoupling

inductive Visit where
  | package (node : Package)
  | type (node : TypeDecl)
  | callable (node : Callable)
  | parameter (node : Parameter)
  | property (node : Property)
  | constant (node : Constant)
deriving DecidableEq, Repr

namespace Visit

def ref : Visit → NodeRef
  | package n   => n.id.ref
  | type n      => n.id.ref
  | callable n  => n.id.ref
  | parameter n => n.id.ref
  | property n  => n.id.ref
  | constant n  => n.id.ref

def references : Visit → List TypeId
  | package _   => []
  | type n      => n.references
  | callable n  => n.references
  | parameter n => n.references
  | property n  => n.references
  | constant n  => n.references

end Visit

-- A visit, followed by visits to what belongs to the node.
inductive Tree where
  | node (visit : Visit) (children : List Tree)

namespace Tree

def leaf (visit : Visit) : Tree :=
  node visit []

end Tree

namespace Graph

def callableTree (graph : Graph) (callable : Callable) : Tree :=
  .node (.callable callable)
    ((callable.parameters.filterMap graph.parameter?).map fun p => .leaf (.parameter p))

-- Constants come before properties, and properties before methods.
def typeTree (graph : Graph) (type : TypeDecl) : Tree :=
  .node (.type type)
    ((type.constants.filterMap graph.constant?).map (fun c => .leaf (.constant c))
      ++ (type.properties.filterMap graph.property?).map (fun p => .leaf (.property p))
      ++ (type.methods.filterMap graph.callable?).map graph.callableTree)

def typesOfKind (graph : Graph) (package : Package) (kind : TypeKind) : List TypeDecl :=
  (package.types.filterMap graph.type?).filter (·.kind = kind)

-- Classes come before interfaces, interfaces before traits, and traits before functions.
def packageTree (graph : Graph) (package : Package) : Tree :=
  .node (.package package)
    (TypeKind.all.flatMap (fun kind => (graph.typesOfKind package kind).map graph.typeTree)
      ++ (package.functions.filterMap graph.callable?).map graph.callableTree)

-- The tree below a package, a type or a callable. Walks do not start from other nodes.
def tree? (graph : Graph) : NodeRef → Option Tree
  | ⟨.package, id⟩  => (graph.package? id).map graph.packageTree
  | ⟨.type, id⟩     => (graph.type? id).map graph.typeTree
  | ⟨.callable, id⟩ => (graph.callable? id).map graph.callableTree
  | _               => none

end Graph

namespace Registry

def forest (registry : Registry) : List Tree :=
  registry.packages.map registry.graph.packageTree

end Registry
end PackageCoupling
