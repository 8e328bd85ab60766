import PackageCoupling.Arena
import PackageCoupling.Distinct
import PackageCoupling.Node

namespace PackageCoupling

@[ext]
structure Graph where
  packages : Arena .package Package := ∅
  types : Arena .type TypeDecl := ∅
  callables : Arena .callable Callable := ∅
  parameters : Arena .parameter Parameter := ∅
  properties : Arena .property Property := ∅
  constants : Arena .constant Constant := ∅
  -- The ids of packages under their names.
  packageIndex : List (String × PackageId) := []

namespace Graph

instance : EmptyCollection Graph where
  emptyCollection := {}

def package? (graph : Graph) (id : PackageId) : Option Package :=
  graph.packages.get? id

def type? (graph : Graph) (id : TypeId) : Option TypeDecl :=
  graph.types.get? id

def callable? (graph : Graph) (id : CallableId) : Option Callable :=
  graph.callables.get? id

def parameter? (graph : Graph) (id : ParameterId) : Option Parameter :=
  graph.parameters.get? id

def property? (graph : Graph) (id : PropertyId) : Option Property :=
  graph.properties.get? id

def constant? (graph : Graph) (id : ConstantId) : Option Constant :=
  graph.constants.get? id

def header? (graph : Graph) : NodeRef → Option Header
  | ⟨.package, id⟩   => (graph.package? id).map (·.header)
  | ⟨.type, id⟩      => (graph.type? id).map (·.header)
  | ⟨.callable, id⟩  => (graph.callable? id).map (·.header)
  | ⟨.parameter, id⟩ => (graph.parameter? id).map (·.header)
  | ⟨.property, id⟩  => (graph.property? id).map (·.header)
  | ⟨.constant, id⟩  => (graph.constant? id).map (·.header)

-- Whether a node is live, that is, in the graph.
def contains (graph : Graph) (node : NodeRef) : Bool :=
  (graph.header? node).isSome

def name? (graph : Graph) (node : NodeRef) : Option String :=
  (graph.header? node).map (·.name)

def packageOf? (graph : Graph) (type : TypeId) : Option PackageId :=
  (graph.type? type).map (·.package)

def packageNamed? (graph : Graph) (name : String) : Option Package :=
  (graph.packageIndex.lookup name).bind graph.package?

def updatePackage (graph : Graph) (id : PackageId) (f : Package → Package) : Graph :=
  { graph with packages := graph.packages.modify id f }

def updateType (graph : Graph) (id : TypeId) (f : TypeDecl → TypeDecl) : Graph :=
  { graph with types := graph.types.modify id f }

def updateCallable (graph : Graph) (id : CallableId) (f : Callable → Callable) : Graph :=
  { graph with callables := graph.callables.modify id f }

def updateProperty (graph : Graph) (id : PropertyId) (f : Property → Property) : Graph :=
  { graph with properties := graph.properties.modify id f }

def updateConstant (graph : Graph) (id : ConstantId) (f : Constant → Constant) : Graph :=
  { graph with constants := graph.constants.modify id f }

def updateHeader (graph : Graph) (f : Header → Header) : NodeRef → Graph
  | ⟨.package, id⟩   =>
    { graph with packages := graph.packages.modify id fun n => { n with header := f n.header } }
  | ⟨.type, id⟩      =>
    { graph with types := graph.types.modify id fun n => { n with header := f n.header } }
  | ⟨.callable, id⟩  =>
    { graph with callables := graph.callables.modify id fun n => { n with header := f n.header } }
  | ⟨.parameter, id⟩ =>
    { graph with parameters := graph.parameters.modify id fun n => { n with header := f n.header } }
  | ⟨.property, id⟩  =>
    { graph with properties := graph.properties.modify id fun n => { n with header := f n.header } }
  | ⟨.constant, id⟩  =>
    { graph with constants := graph.constants.modify id fun n => { n with header := f n.header } }

end Graph
end PackageCoupling
