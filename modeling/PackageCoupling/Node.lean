import PackageCoupling.NodeId

namespace PackageCoupling

inductive TypeKind where
  | cls
  | interface
  | trait
deriving DecidableEq, Repr

namespace TypeKind

def all : List TypeKind :=
  [cls, interface, trait]

def name : TypeKind → String
  | cls       => "class"
  | interface => "interface"
  | trait     => "trait"

end TypeKind

inductive CallableKind where
  | function
  | method
deriving DecidableEq, Repr

namespace CallableKind

def all : List CallableKind :=
  [function, method]

def name : CallableKind → String
  | function => "function"
  | method   => "method"

end CallableKind

inductive Modifier where
  | abstract
  | final
  | static
deriving DecidableEq, Repr

namespace Modifier

def all : List Modifier :=
  [abstract, final, static]

def name : Modifier → String
  | abstract => "abstract"
  | final    => "final"
  | static   => "static"

end Modifier

-- The modifiers of a declaration, in the order in which they were given.
@[ext]
structure Modifiers where
  list : List Modifier := []
deriving DecidableEq, Repr

namespace Modifiers

-- Only the first of equal modifiers counts.
def ofList (modifiers : List Modifier) : Modifiers :=
  ⟨modifiers.eraseDups⟩

def has (modifiers : Modifiers) (modifier : Modifier) : Bool :=
  modifiers.list.contains modifier

end Modifiers

@[ext]
structure Location where
  file : String
  line : UInt32
  col : UInt32
deriving DecidableEq, Repr

@[ext]
structure Header where
  name : String
  location : Option Location := none
deriving DecidableEq, Repr

@[ext]
structure Package where
  id : PackageId
  header : Header
  types : List TypeId := []
  functions : List CallableId := []
deriving DecidableEq, Repr

@[ext]
structure TypeDecl where
  id : TypeId
  kind : TypeKind
  header : Header
  package : PackageId
  modifiers : Modifiers := {}
  parent : Option TypeId := none
  interfaces : List TypeId := []
  constants : List ConstantId := []
  properties : List PropertyId := []
  methods : List CallableId := []
  -- The types that this type depends on.
  dependencies : List TypeId := []
  -- The types that depend on this type.
  children : List TypeId := []
deriving DecidableEq, Repr

@[ext]
structure Callable where
  id : CallableId
  kind : CallableKind
  header : Header
  owner : Option TypeId := none
  package : Option PackageId := none
  modifiers : Modifiers := {}
  parameters : List ParameterId := []
  dependencies : List TypeId := []
  exceptions : List TypeId := []
  returnType : Option TypeId := none
deriving DecidableEq, Repr

@[ext]
structure Parameter where
  id : ParameterId
  header : Header
  callable : CallableId
  position : Nat
  type : Option TypeId
deriving DecidableEq, Repr

@[ext]
structure Property where
  id : PropertyId
  header : Header
  owner : TypeId
  modifiers : Modifiers := {}
  type : Option TypeId
deriving DecidableEq, Repr

@[ext]
structure Constant where
  id : ConstantId
  header : Header
  owner : TypeId
  -- The type whose constant the value mentions.
  target : Option TypeId := none
deriving DecidableEq, Repr

namespace Package

def isEmpty (package : Package) : Bool :=
  package.types.isEmpty && package.functions.isEmpty

end Package

namespace TypeDecl

-- Interfaces and traits are abstract, classes only if they are declared so.
def isAbstract (type : TypeDecl) : Bool :=
  match type.kind with
  | .cls                => type.modifiers.has .abstract
  | .interface | .trait => true

-- The types that a type mentions itself, each once.
def references (type : TypeDecl) : List TypeId :=
  (type.parent.toList ++ type.interfaces ++ type.dependencies).eraseDups

end TypeDecl

namespace Callable

def references (callable : Callable) : List TypeId :=
  (callable.dependencies ++ callable.exceptions ++ callable.returnType.toList).eraseDups

end Callable

namespace Parameter

def references (parameter : Parameter) : List TypeId :=
  parameter.type.toList

end Parameter

namespace Property

def references (property : Property) : List TypeId :=
  property.type.toList

end Property

namespace Constant

def references (constant : Constant) : List TypeId :=
  constant.target.toList

end Constant
end PackageCoupling
