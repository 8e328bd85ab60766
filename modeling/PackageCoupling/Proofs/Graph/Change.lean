import Mathlib.Logic.Relation
import PackageCoupling.Graph.Op
import PackageCoupling.Proofs.Arena

namespace PackageCoupling

-- The state in which an action ends, whether it is refused or not.
def after {ε σ α : Type} (action : EStateM ε σ α) (s : σ) : σ :=
  match action s with
  | .ok _ s    => s
  | .error _ s => s

-- Frames are what nodes are without what they say about themselves: where they are declared, with which
-- modifiers, and which types they mention. Dependencies between types belong to the frame.

def Header.frame (header : Header) : Header :=
  { header with location := none }

def Package.frame (package : Package) : Package :=
  { package with header := package.header.frame }

def TypeDecl.frame (type : TypeDecl) : TypeDecl :=
  { type with header := type.header.frame, modifiers := {}, parent := none, interfaces := [] }

def Callable.frame (callable : Callable) : Callable :=
  { callable with
    header := callable.header.frame
    modifiers := {}
    dependencies := []
    exceptions := []
    returnType := none }

def Parameter.frame (parameter : Parameter) : Parameter :=
  { parameter with header := parameter.header.frame, type := none }

def Property.frame (property : Property) : Property :=
  { property with header := property.header.frame, modifiers := {}, type := none }

def Constant.frame (constant : Constant) : Constant :=
  { constant with header := constant.header.frame, target := none }

-- The types that nodes hold the ids of.

def TypeDecl.ids (type : TypeDecl) : List TypeId :=
  type.parent.toList ++ type.interfaces ++ type.dependencies ++ type.children

def Callable.ids (callable : Callable) : List TypeId :=
  callable.owner.toList ++ callable.dependencies ++ callable.exceptions ++ callable.returnType.toList

def Property.ids (property : Property) : List TypeId :=
  property.owner :: property.type.toList

def Constant.ids (constant : Constant) : List TypeId :=
  constant.owner :: constant.target.toList

namespace Graph

def frame (graph : Graph) : Graph where
  packages := graph.packages.map Package.frame
  types := graph.types.map TypeDecl.frame
  callables := graph.callables.map Callable.frame
  parameters := graph.parameters.map Parameter.frame
  properties := graph.properties.map Property.frame
  constants := graph.constants.map Constant.frame
  packageIndex := graph.packageIndex

-- Every id of a type that is stored anywhere in the graph has a property.
structure MentionsOnly (graph : Graph) (P : TypeId → Prop) : Prop where
  packages : graph.packages.All fun p => ∀ t ∈ p.types, P t
  types : graph.types.All fun t => ∀ u ∈ t.ids, P u
  callables : graph.callables.All fun c => ∀ t ∈ c.ids, P t
  parameters : graph.parameters.All fun p => ∀ t ∈ p.type, P t
  properties : graph.properties.All fun p => ∀ t ∈ p.ids, P t
  constants : graph.constants.All fun c => ∀ t ∈ c.ids, P t

-- No type is listed twice by a node that mentions it.
structure MentionsOnce (graph : Graph) : Prop where
  interfaces : graph.types.All (·.interfaces.Nodup)
  uses : graph.callables.All (·.dependencies.Nodup)
  exceptions : graph.callables.All (·.exceptions.Nodup)

-- A package is known under some name.
def HasPackage (graph : Graph) (id : PackageId) : Prop :=
  ∃ name, graph.packageIndex.lookup name = some id

def addPackage (graph : Graph) (name : String) : Graph :=
  { graph with
    packages := graph.packages.push { id := graph.packages.next, header := { name := name } }
    packageIndex := (name, graph.packages.next) :: graph.packageIndex }

def addType (graph : Graph) (kind : TypeKind) (name : String) (package : PackageId) : Graph :=
  let id := graph.types.next
  { graph.updatePackage package fun p => { p with types := p.types ++ [id] } with
    types := graph.types.push { id, kind, header := { name := name }, package } }

def addFunction (graph : Graph) (name : String) (package : PackageId) : Graph :=
  let id := graph.callables.next
  { graph.updatePackage package fun p => { p with functions := p.functions ++ [id] } with
    callables := graph.callables.push
      { id, kind := .function, header := { name := name }, package := some package } }

def addMethod (graph : Graph) (name : String) : Graph :=
  { graph with
    callables := graph.callables.push { id := graph.callables.next, kind := .method, header := { name := name } } }

def moveType (graph : Graph) (type : TypeId) (old new : PackageId) : Graph :=
  let graph := graph.updatePackage old fun p => { p with types := Distinct.remove p.types type }
  let graph := graph.updatePackage new fun p => { p with types := p.types ++ [type] }
  graph.updateType type fun t => { t with package := new }

def attach (graph : Graph) (owner : TypeId) (method : CallableId) (previous : Option TypeId) : Graph :=
  let graph := graph.updateCallable method fun c => { c with owner := some owner }
  let graph := match previous with
    | none          => graph
    | some previous =>
      if previous = owner then graph
      else graph.updateType previous fun t => { t with methods := Distinct.remove t.methods method }
  graph.updateType owner fun t => { t with methods := Distinct.add t.methods method }

def addParameter (graph : Graph) (callable : CallableId) (name : String) (position : Nat)
    (type : Option TypeId) : Graph :=
  let id := graph.parameters.next
  { graph.updateCallable callable fun c => { c with parameters := c.parameters ++ [id] } with
    parameters := graph.parameters.push { id, header := { name := name }, callable, position, type } }

def addProperty (graph : Graph) (owner : TypeId) (name : String) (type : Option TypeId) : Graph :=
  let id := graph.properties.next
  { graph.updateType owner fun t => { t with properties := t.properties ++ [id] } with
    properties := graph.properties.push { id, header := { name := name }, owner, type } }

def addConstant (graph : Graph) (owner : TypeId) (name : String) : Graph :=
  let id := graph.constants.next
  { graph.updateType owner fun t => { t with constants := t.constants ++ [id] } with
    constants := graph.constants.push { id, header := { name := name }, owner } }

def removeType (graph : Graph) (type : TypeId) (package : PackageId) : Graph :=
  { graph.updatePackage package fun p => { p with types := Distinct.remove p.types type } with
    types := graph.types.erase type }

theorem moveMembers_eq (graph : Graph) (decl : TypeDecl) (old new : TypeId) :
    graph.moveMembers decl old new = { graph with
      callables := decl.methods.foldl (fun a m => a.modify m fun c => { c with owner := some new }) graph.callables
      properties := decl.properties.foldl (fun a p => a.modify p fun n => { n with owner := new }) graph.properties
      constants := decl.constants.foldl (fun a c => a.modify c fun n => { n with owner := new }) graph.constants
      types := (graph.types.modify old fun t => { t with methods := [], properties := [], constants := [] }).modify
        new fun t => { t with
          methods := decl.methods.foldl Distinct.add t.methods
          properties := t.properties ++ decl.properties
          constants := t.constants ++ decl.constants } } := by
  have hm (g : Graph) (ms : List CallableId) (f : Callable → Callable) :
      ms.foldl (fun g m => g.updateCallable m f) g
        = { g with callables := ms.foldl (fun a m => a.modify m f) g.callables } := by
    induction ms generalizing g
    case nil          => rfl
    case cons m ms hi => rw [List.foldl_cons, hi]; rfl
  have hp (g : Graph) (ps : List PropertyId) (f : Property → Property) :
      ps.foldl (fun g p => g.updateProperty p f) g
        = { g with properties := ps.foldl (fun a p => a.modify p f) g.properties } := by
    induction ps generalizing g
    case nil          => rfl
    case cons p ps hi => rw [List.foldl_cons, hi]; rfl
  have hc (g : Graph) (cs : List ConstantId) (f : Constant → Constant) :
      cs.foldl (fun g c => g.updateConstant c f) g
        = { g with constants := cs.foldl (fun a c => a.modify c f) g.constants } := by
    induction cs generalizing g
    case nil          => rfl
    case cons c cs hi => rw [List.foldl_cons, hi]; rfl
  rw [moveMembers, hm, hp, hc]
  rfl

theorem attach_eq {graph : Graph} {owner : TypeId} {method : CallableId} {previous : Option TypeId} :
    graph.attach owner method previous = { graph with
      callables := graph.callables.modify method fun c => { c with owner := some owner }
      types := (graph.attach owner method previous).types } := by
  cases previous
  case none => rfl
  case some =>
    simp only [attach]
    split <;> rfl

theorem nextType_attach {graph : Graph} {owner : TypeId} {method : CallableId} {previous : Option TypeId} :
    (graph.attach owner method previous).types.next = graph.types.next := by
  cases previous
  case none => simp [attach, updateType, updateCallable]
  case some =>
    simp only [attach]
    split <;> simp [updateType, updateCallable]

theorem type?_attach {graph : Graph} {owner id : TypeId} {method : CallableId} {previous : Option TypeId} :
    (graph.attach owner method previous).type? id = (graph.type? id).map fun t => { t with
      methods :=
        if id = owner then Distinct.add t.methods method
        else if previous = some id then Distinct.remove t.methods method
        else t.methods } := by
  have hu (g : Graph) (i : TypeId) (f : TypeDecl → TypeDecl) :
      (g.updateType i f).type? id = (g.type? id).map fun t => if i = id then f t else t :=
    Arena.get?_modify_eq_map
  have hc (g : Graph) (i : CallableId) (f : Callable → Callable) : (g.updateCallable i f).type? id = g.type? id := rfl
  cases previous
  case none =>
    simp only [attach, hu, hc]
    congr 1
    funext t
    by_cases ho : owner = id <;> simp [ho, eq_comm (a := id)]
  case some previous =>
    simp only [attach]
    split
    case isTrue hp =>
      simp only [hu, hc]
      congr 1
      funext t
      by_cases ho : owner = id <;> simp [hp, ho, eq_comm (a := id)]
    case isFalse hp =>
      simp only [hu, hc, Option.map_map]
      congr 1
      funext t
      by_cases ho : owner = id
      case pos =>
        subst ho
        simp [hp]
      case neg => by_cases hi : previous = id <;> simp [hi, ho, eq_comm (a := id)]

theorem type?_moveMembers {graph : Graph} {decl : TypeDecl} {old new id : TypeId} :
    (graph.moveMembers decl old new).type? id = (graph.type? id).map fun t =>
      let t := if id = old then { t with methods := [], properties := [], constants := [] } else t
      if id = new then { t with
        methods := decl.methods.foldl Distinct.add t.methods
        properties := t.properties ++ decl.properties
        constants := t.constants ++ decl.constants }
      else t := by
  rw [moveMembers_eq, type?, Arena.get?_modify_eq_map, Arena.get?_modify_eq_map, Option.map_map, type?]
  congr 1
  funext t
  simp only [Function.comp_apply, eq_comm]

theorem callable?_moveMembers {graph : Graph} {decl : TypeDecl} {old new : TypeId} {id : CallableId} :
    (graph.moveMembers decl old new).callable? id = (graph.callable? id).map fun c =>
      if id ∈ decl.methods then { c with owner := some new } else c := by
  rw [moveMembers_eq, callable?, callable?, Arena.get?_foldl_modify (by simp)]
  split <;> simp

theorem property?_moveMembers {graph : Graph} {decl : TypeDecl} {old new : TypeId} {id : PropertyId} :
    (graph.moveMembers decl old new).property? id = (graph.property? id).map fun p =>
      if id ∈ decl.properties then { p with owner := new } else p := by
  rw [moveMembers_eq, property?, property?, Arena.get?_foldl_modify (by simp)]
  split <;> simp

theorem constant?_moveMembers {graph : Graph} {decl : TypeDecl} {old new : TypeId} {id : ConstantId} :
    (graph.moveMembers decl old new).constant? id = (graph.constant? id).map fun c =>
      if id ∈ decl.constants then { c with owner := new } else c := by
  rw [moveMembers_eq, constant?, constant?, Arena.get?_foldl_modify (by simp)]
  split <;> simp

-- Of the types that are there, only those of which `gone` holds may go, and only those of which `moved` holds may
-- move to another package.
inductive Transition (gone moved : TypeId → Prop) : Graph → Graph → Prop
  | package {g name} (hn : g.packageIndex.lookup name = none) : Transition gone moved g (g.addPackage name)
  | type {g} kind name {package} (hp : g.HasPackage package) : Transition gone moved g (g.addType kind name package)
  | function {g} name {package} (hp : g.HasPackage package) : Transition gone moved g (g.addFunction name package)
  | method {g} name : Transition gone moved g (g.addMethod name)
  | relocate {g type old new} (hm : moved type) (ht : g.packageOf? type = some old) (hp : g.HasPackage new)
    (hn : old ≠ new) :
    Transition gone moved g (g.moveType type old new)
  | attach {g owner method callable} (ho : g.types.contains owner) (hm : g.callable? method = some callable) :
    Transition gone moved g (g.attach owner method callable.owner)
  | parameter {g callable} name {node type} (hc : g.callable? callable = some node)
    (ht : ∀ t ∈ type, g.types.contains t) :
    Transition gone moved g (g.addParameter callable name node.parameters.length type)
  | property {g owner} name {type} (ho : g.types.contains owner) (ht : ∀ t ∈ type, g.types.contains t) :
    Transition gone moved g (g.addProperty owner name type)
  | constant {g owner} name (ho : g.types.contains owner) : Transition gone moved g (g.addConstant owner name)
  -- Ids may be used up without a node.
  | skipParameter {g : Graph} : Transition gone moved g { g with parameters := g.parameters.reserve }
  | skipProperty {g : Graph} : Transition gone moved g { g with properties := g.properties.reserve }
  | skipConstant {g : Graph} : Transition gone moved g { g with constants := g.constants.reserve }
  -- Nodes say something else about themselves. Then they mention what was mentioned before or is there,
  -- and still do not list anything twice.
  | revise {g g' : Graph} (hf : g'.frame = g.frame)
    (hm : ∀ {P}, g.MentionsOnly P → (∀ t, g.types.contains t → P t) → g'.MentionsOnly P)
    (ho : g.MentionsOnce → g'.MentionsOnce) :
    Transition gone moved g g'
  | link {g source target decl} (hs : g.type? source = some decl) (ht : g.types.contains target)
    (hn : source ≠ target) (hd : target ∉ decl.dependencies) :
    Transition gone moved g (g.insertEdge source target)
  | unlink {g source target} (hs : g.types.contains source) (ht : g.types.contains target) :
    Transition gone moved g (g.eraseEdge source target)
  | inherit {g old new decl} (ho : g.type? old = some decl) (hn : g.types.contains new) :
    Transition gone moved g (g.moveMembers decl old new)
  | remove {g type decl} (hg : gone type) (ht : g.type? type = some decl) (hd : decl.dependencies = [])
    (hc : decl.children = []) :
    Transition gone moved g (g.removeType type decl.package)

abbrev Transitions (gone moved : TypeId → Prop) : Graph → Graph → Prop :=
  Relation.ReflTransGen (Transition gone moved)

theorem Transition.mono {gone gone' moved moved' : TypeId → Prop} {graph graph' : Graph}
    (h : Transition gone moved graph graph') (hg : ∀ t, gone t → gone' t) (hm : ∀ t, moved t → moved' t) :
    Transition gone' moved' graph graph' := by
  cases h
  case package hn           => exact .package hn
  case type hp              => exact .type _ _ hp
  case function hp          => exact .function _ hp
  case method               => exact .method _
  case relocate hr ht hp hn => exact .relocate (hm _ hr) ht hp hn
  case attach ho hc         => exact .attach ho hc
  case parameter hc ht      => exact .parameter _ hc ht
  case property ho ht       => exact .property _ ho ht
  case constant ho          => exact .constant _ ho
  case skipParameter        => exact .skipParameter
  case skipProperty         => exact .skipProperty
  case skipConstant         => exact .skipConstant
  case revise hf hr ho      => exact .revise hf hr ho
  case link hs ht hn hd     => exact .link hs ht hn hd
  case unlink hs ht         => exact .unlink hs ht
  case inherit ho hn        => exact .inherit ho hn
  case remove hr ht hd hc   => exact .remove (hg _ hr) ht hd hc

theorem Transitions.mono {gone gone' moved moved' : TypeId → Prop} {graph graph' : Graph}
    (h : Transitions gone moved graph graph') (hg : ∀ t, gone t → gone' t) (hm : ∀ t, moved t → moved' t) :
    Transitions gone' moved' graph graph' := by
  induction h
  case refl         => exact .refl
  case tail _ hs hi => exact hi.tail (hs.mono hg hm)

abbrev Change (gone : TypeId → Prop) : Graph → Graph → Prop :=
  Transition gone fun _ => True

abbrev Changes (gone : TypeId → Prop) : Graph → Graph → Prop :=
  Transitions gone fun _ => True

theorem Transitions.preserve {gone moved : TypeId → Prop} {P : Graph → Prop} {graph graph' : Graph}
    (h : Transitions gone moved graph graph')
    (hc : ∀ {g g'}, Transition gone moved g g' → P g → P g') (hg : P graph) : P graph' := by
  induction h
  case refl         => exact hg
  case tail _ hs hi => exact hc hs hi

end Graph
end PackageCoupling
