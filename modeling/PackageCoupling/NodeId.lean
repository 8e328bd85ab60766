namespace PackageCoupling

inductive NodeKind where
  | package
  | type
  | callable
  | parameter
  | property
  | constant
deriving DecidableEq, Repr

namespace NodeKind

def all : List NodeKind :=
  [package, type, callable, parameter, property, constant]

def name : NodeKind → String
  | package   => "package"
  | type      => "type"
  | callable  => "callable"
  | parameter => "parameter"
  | property  => "property"
  | constant  => "constant"

-- The word for a kind in messages, where it stands before the number of an id.
def label : NodeKind → String
  | package   => "pkg"
  | type      => "type"
  | callable  => "callable"
  | parameter => "param"
  | property  => "prop"
  | constant  => "const"

end NodeKind

@[ext]
structure NodeId (kind : NodeKind) where
  val : Nat
deriving DecidableEq, Repr

instance {kind : NodeKind} : LawfulBEq (NodeId kind) :=
  inferInstance

abbrev PackageId   := NodeId .package
abbrev TypeId      := NodeId .type
abbrev CallableId  := NodeId .callable
abbrev ParameterId := NodeId .parameter
abbrev PropertyId  := NodeId .property
abbrev ConstantId  := NodeId .constant

def NodeId.display {kind : NodeKind} (id : NodeId kind) : String :=
  kind.label ++ "_" ++ toString id.val

structure NodeRef where
  kind : NodeKind
  id : NodeId kind
deriving DecidableEq, Repr

namespace NodeRef

def display (node : NodeRef) : String :=
  node.id.display

end NodeRef

def NodeId.ref {kind : NodeKind} (id : NodeId kind) : NodeRef :=
  ⟨kind, id⟩

end PackageCoupling
