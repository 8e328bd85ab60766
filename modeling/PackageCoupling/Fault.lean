import PackageCoupling.Node

namespace PackageCoupling

inductive Declaration where
  | package
  | type (kind : TypeKind)
  | function
  | method
deriving DecidableEq, Repr

def Declaration.operation : Declaration → String
  | package   => "build_package"
  | type kind => "build_" ++ kind.name
  | function  => "build_function"
  | method    => "build_method"

inductive ConfigFault where
  -- The text of the configuration cannot be read as one.
  | unreadable
  | blankDefaultPackage
  | emptySeparator
  | unnamedBuiltins
deriving DecidableEq, Repr

def ConfigFault.message : ConfigFault → String
  | unreadable          => "not a configuration"
  | blankDefaultPackage => "default_package must not be empty"
  | emptySeparator      => "separators must not be empty"
  | unnamedBuiltins     => "builtin package name must not be empty"

inductive Fault where
  -- Something was to be declared after the registry had been finalized.
  | finalized (declaration : Declaration) (name : String)
  -- There is no such node, or no longer.
  | unknownNode (node : NodeRef)
  | invalidConfig (cause : ConfigFault)
deriving DecidableEq, Repr

namespace Fault

def message : Fault → String
  | finalized declaration name =>
    "registry is frozen for writes: " ++ declaration.operation ++ "('" ++ name ++ "')"
  | unknownNode node    => "unknown node: " ++ node.display
  | invalidConfig cause => "invalid configuration: " ++ cause.message

def code : Fault → Nat
  | invalidConfig _ => 2
  | finalized _ _   => 3
  | unknownNode _   => 4

-- After a fatal fault the metrics can no longer be trusted.
def isFatal : Fault → Bool
  | invalidConfig _ => false
  | finalized _ _   => true
  | unknownNode _   => true

end Fault
end PackageCoupling
