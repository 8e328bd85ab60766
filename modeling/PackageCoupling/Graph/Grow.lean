import PackageCoupling.Graph.Basic

namespace PackageCoupling.Graph

-- The package of the given name. There is never more than one, and a new one only if there is none.
def ensurePackage (graph : Graph) (name : String) : PackageId × Graph :=
  match graph.packageIndex.lookup name with
  | some id => (id, graph)
  | none =>
    let id := graph.packages.next
    (id, { graph with
      packages := graph.packages.push { id, header := { name := name } }
      packageIndex := (name, id) :: graph.packageIndex })

def newType (graph : Graph) (kind : TypeKind) (name package : String) : TypeId × Graph :=
  let (package, graph) := graph.ensurePackage package
  let id := graph.types.next
  let graph := graph.updatePackage package fun p => { p with types := p.types ++ [id] }
  (id, { graph with types := graph.types.push { id, kind, header := { name := name }, package } })

def newFunction (graph : Graph) (name package : String) : CallableId × Graph :=
  let (package, graph) := graph.ensurePackage package
  let id := graph.callables.next
  let graph := graph.updatePackage package fun p => { p with functions := p.functions ++ [id] }
  let function : Callable := { id, kind := .function, header := { name := name }, package := some package }
  (id, { graph with callables := graph.callables.push function })

def newMethod (graph : Graph) (name : String) : CallableId × Graph :=
  let id := graph.callables.next
  (id, { graph with callables := graph.callables.push { id, kind := .method, header := { name := name } } })

-- Moves a type to the package of the given name and returns that package. Nothing happens, and no
-- package is made, if there is no such type.
def relocate (graph : Graph) (type : TypeId) (package : String) : Option PackageId × Graph :=
  match graph.packageOf? type with
  | none => (none, graph)
  | some old =>
    let (new, graph) := graph.ensurePackage package
    if old = new then (some new, graph)
    else
      let graph := graph.updatePackage old fun p => { p with types := Distinct.remove p.types type }
      let graph := graph.updatePackage new fun p => { p with types := p.types ++ [type] }
      (some new, graph.updateType type fun t => { t with package := new })

end PackageCoupling.Graph
