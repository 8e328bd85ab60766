import PackageCoupling.Graph.Op
import PackageCoupling.Registry.Basic

namespace PackageCoupling.Registry

abbrev Action := EStateM Fault Registry

namespace Action

def edit {α} (edit : Graph.Edit α) : Action α := fun registry =>
  match edit registry.graph with
  | .ok a graph    => .ok a { registry with graph }
  | .error e graph => .error e { registry with graph }

def requireWritable (declaration : Declaration) (name : String) : Action Unit := do
  if (← get).isFinalized then
    throw (.finalized declaration name)

def buildPackage (name : String) : Action PackageId := do
  requireWritable .package name
  edit (modifyGet (·.ensurePackage name))

-- A function is always a new one, and never built in.
def buildFunction (name : String) : Action CallableId := do
  requireWritable .function name
  let split := QualifiedName.split (← get).config false name
  edit (modifyGet (·.newFunction split.localName split.package))

def buildMethod (name : String) : Action CallableId := do
  requireWritable .method name
  edit (modifyGet (·.newMethod name))

-- The placeholder of a class in the default package, in the older generation if there is one there.
def placeholder? (registry : Registry) (key : String) : Option TypeId :=
  let inPackage? (generation : Generation) :=
    generation.inPackage? .cls key registry.config.defaultPackage
  [registry.frozen, registry.active].findSome? fun generation =>
    (inPackage? generation).filter (· ∈ registry.placeholders)

-- Puts an interface in the place of the class that had been assumed in its stead.
def reconcile (key : String) (interface : TypeId) : Action Unit := do
  match placeholder? (← get) key with
  | none => return
  | some cls =>
    discard (edit (Graph.Edit.substitute cls interface))
    discard (edit (Graph.Edit.eraseType cls))
    modify fun r => { r with
      active := r.active.remove .cls key cls
      frozen := r.frozen.remove .cls key cls
      placeholders := Distinct.remove r.placeholders cls }

def buildType (kind : TypeKind) (name : String) : Action TypeId := do
  requireWritable (.type kind) name
  let split := (← get).split name
  let id ← modifyGet fun r =>
    let (id, _, r) := r.resolve kind split
    (id, { r with placeholders := Distinct.remove r.placeholders id })
  if kind = .interface then
    reconcile split.key id
  return id

end Action

inductive Op where
  | build (declaration : Declaration) (name : String)
  | seek (sought : Sought) (name : String)
  | finalize
  | edit (op : Graph.Op)
deriving DecidableEq, Repr

namespace Op

def run : Op → Action Graph.Outcome
  | build .package name     => return .node (← Action.buildPackage name).ref
  | build (.type kind) name => return .node (← Action.buildType kind name).ref
  | build .function name    => return .node (← Action.buildFunction name).ref
  | build .method name      => return .node (← Action.buildMethod name).ref
  | seek sought name        => return .node (← modifyGet (·.seek sought name)).ref
  | finalize                => do modify Registry.finalize; return .done
  | edit op                 => Action.edit op.run

end Op
end PackageCoupling.Registry
