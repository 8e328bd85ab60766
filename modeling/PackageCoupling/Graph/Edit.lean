import PackageCoupling.Fault
import PackageCoupling.Graph.Basic

namespace PackageCoupling.Graph

-- A dependency between two types is noted at both ends.

def insertEdge (graph : Graph) (source target : TypeId) : Graph :=
  let graph := graph.updateType source fun t => { t with dependencies := t.dependencies ++ [target] }
  graph.updateType target fun t => { t with children := Distinct.add t.children source }

def eraseEdge (graph : Graph) (source target : TypeId) : Graph :=
  let graph := graph.updateType source fun t =>
    { t with dependencies := Distinct.remove t.dependencies target }
  graph.updateType target fun t => { t with children := Distinct.remove t.children source }

-- Whatever an edit did before it was refused stays done.
abbrev Edit := EStateM Fault Graph

namespace Edit

def require {α} (node : NodeRef) (find? : Graph → Option α) : Edit α := do
  match find? (← get) with
  | some a => return a
  | none   => throw (.unknownNode node)

def requireType (id : TypeId) : Edit TypeDecl :=
  require id.ref (·.type? id)

def requireCallable (id : CallableId) : Edit Callable :=
  require id.ref (·.callable? id)

def requireTarget : Option TypeId → Edit Unit
  | none    => return
  | some id => discard (requireType id)

-- Makes a method belong to a type, and no longer to the type that it belonged to before. A function
-- may be attached too, and goes on to belong to its package.
def attachMethod (owner : TypeId) (method : CallableId) : Edit Unit := do
  discard (requireType owner)
  let callable ← requireCallable method
  modify fun g =>
    let g := g.updateCallable method fun c => { c with owner := some owner }
    let g := match callable.owner with
      | none          => g
      | some previous =>
        if previous = owner then g
        else g.updateType previous fun t => { t with methods := Distinct.remove t.methods method }
    g.updateType owner fun t => { t with methods := Distinct.add t.methods method }

-- A new parameter, property or constant takes the next id. If there is nothing to add it to, the id is
-- used up all the same.

def newParameter (callable : CallableId) (name : String) (type : Option TypeId) : Edit ParameterId := do
  requireTarget type
  match (← get).callable? callable with
  | none =>
    modify fun g => { g with parameters := g.parameters.reserve }
    throw (.unknownNode callable.ref)
  | some owner =>
    modifyGet fun g =>
      let id := g.parameters.next
      let position := owner.parameters.length
      let g := g.updateCallable callable fun c => { c with parameters := c.parameters ++ [id] }
      (id, { g with parameters := g.parameters.push { id, header := { name := name }, callable, position, type } })

def newProperty (owner : TypeId) (name : String) (type : Option TypeId) : Edit PropertyId := do
  requireTarget type
  match (← get).type? owner with
  | none =>
    modify fun g => { g with properties := g.properties.reserve }
    throw (.unknownNode owner.ref)
  | some _ =>
    modifyGet fun g =>
      let id := g.properties.next
      let g := g.updateType owner fun t => { t with properties := t.properties ++ [id] }
      (id, { g with properties := g.properties.push { id, header := { name := name }, owner, type } })

def newConstant (owner : TypeId) (name : String) : Edit ConstantId := do
  match (← get).type? owner with
  | none =>
    modify fun g => { g with constants := g.constants.reserve }
    throw (.unknownNode owner.ref)
  | some _ =>
    modifyGet fun g =>
      let id := g.constants.next
      let g := g.updateType owner fun t => { t with constants := t.constants ++ [id] }
      (id, { g with constants := g.constants.push { id, header := { name := name }, owner } })

def setConstantTarget (constant : ConstantId) (target : TypeId) : Edit Unit := do
  discard (requireType target)
  discard (require constant.ref (·.constant? constant))
  modify (·.updateConstant constant fun c => { c with target := some target })

def setTypeModifiers (type : TypeId) (modifiers : Modifiers) : Edit Unit := do
  discard (requireType type)
  modify (·.updateType type fun t => { t with modifiers })

def setCallableModifiers (callable : CallableId) (modifiers : Modifiers) : Edit Unit := do
  discard (requireCallable callable)
  modify (·.updateCallable callable fun c => { c with modifiers })

def setPropertyModifiers (property : PropertyId) (modifiers : Modifiers) : Edit Unit := do
  discard (require property.ref (·.property? property))
  modify (·.updateProperty property fun p => { p with modifiers })

def setLocation (node : NodeRef) (location : Location) : Edit Unit := do
  discard (require node (·.header? node))
  modify (·.updateHeader (fun h => { h with location := some location }) node)

-- A type does not depend on itself. Returns whether the dependency is new.
def connect (source target : TypeId) : Edit Bool := do
  discard (requireType target)
  let decl ← requireType source
  if source = target ∨ target ∈ decl.dependencies then
    return false
  else
    modify (·.insertEdge source target)
    return true

def disconnect (source target : TypeId) : Edit Bool := do
  discard (requireType target)
  let decl ← requireType source
  modify (·.eraseEdge source target)
  return target ∈ decl.dependencies

-- Sets the parent of a type and makes the type depend on it. The dependency on the previous parent goes,
-- unless the previous parent is also an interface of the type.
def setParent (type parent : TypeId) : Edit Unit := do
  discard (requireType parent)
  let decl ← requireType type
  modify fun g =>
    let g := g.updateType type fun t => { t with parent := some parent }
    match decl.parent with
    | none          => g
    | some previous =>
      if previous ≠ parent ∧ previous ∉ decl.interfaces ∧ g.types.contains previous then
        g.eraseEdge type previous
      else g
  discard (connect type parent)

def addInterface (type interface : TypeId) : Edit Unit := do
  discard (requireType interface)
  discard (requireType type)
  modify (·.updateType type fun t => { t with interfaces := Distinct.add t.interfaces interface })
  discard (connect type interface)

def addUse (callable : CallableId) (target : TypeId) : Edit Bool := do
  discard (requireType target)
  let node ← requireCallable callable
  if target ∈ node.dependencies then
    return false
  else
    modify (·.updateCallable callable fun c => { c with dependencies := c.dependencies ++ [target] })
    return true

def addException (callable : CallableId) (target : TypeId) : Edit Bool := do
  discard (requireType target)
  let node ← requireCallable callable
  if target ∈ node.exceptions then
    return false
  else
    modify (·.updateCallable callable fun c => { c with exceptions := c.exceptions ++ [target] })
    return true

def setReturnType (callable : CallableId) (target : Option TypeId) : Edit Unit := do
  requireTarget target
  discard (requireCallable callable)
  modify (·.updateCallable callable fun c => { c with returnType := target })

end Edit
end PackageCoupling.Graph
