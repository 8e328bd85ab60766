import PackageCoupling.Proofs.Graph.Mentions
import PackageCoupling.Proofs.Graph.Ownership
import PackageCoupling.Proofs.Graph.Substitute
import PackageCoupling.Proofs.Registry.Run

namespace PackageCoupling

variable {old new : TypeId}

def rename (old new type : TypeId) : TypeId :=
  if type = old then new else type

theorem rename_eq_iff {a b : TypeId} : rename old new a = b ↔ a = old ∧ b = new ∨ a ≠ old ∧ b = a := by
  rw [rename]
  grind

theorem substituteSlot_eq_map {slot : Option TypeId} : substituteSlot old new slot = slot.map (rename old new) := by
  cases slot
  case none      => rfl
  case some type => by_cases h : type = old <;> simp [substituteSlot, rename, h]

-- The members of the one list, each of them once, are what becomes of those of the other.
def IsImage (f : TypeId → TypeId) (types types' : List TypeId) : Prop :=
  types'.Nodup ∧ ∀ t, t ∈ types' ↔ ∃ s ∈ types, f s = t

theorem Distinct.isImage_substitute {types : List TypeId} (hd : types.Nodup) (hne : old ≠ new) :
    IsImage (rename old new) types (Distinct.substitute old new types) := by
  refine ⟨nodup_substitute hd, fun t => ?_⟩
  simp only [mem_substitute hd hne, rename_eq_iff]
  grind

-- What a type has once the members of `old` have moved to `new`.
def inherited {α : Type} (old new id : TypeId) (own others : List α) : List α :=
  if id = old then [] else if id = new then own ++ others else own

theorem inherited_eq {α : Type} {id : TypeId} {own others : List α} (hne : old ≠ new) :
    inherited old new id own others = (if id = old then [] else own) ++ (if id = new then others else []) := by
  rw [inherited]
  grind

-- What becomes of a type once `new` has taken the place of `old`, which was `decl`. Its dependencies are left open.
structure TypeDecl.Renamed (old new : TypeId) (decl : TypeDecl) (id : TypeId) (type type' : TypeDecl) : Prop where
  interfaces : IsImage (rename old new) type.interfaces type'.interfaces
  eq : type' = { type with
    parent := type.parent.map (rename old new)
    interfaces := type'.interfaces
    constants := inherited old new id type.constants decl.constants
    properties := inherited old new id type.properties decl.properties
    methods := inherited old new id type.methods decl.methods
    dependencies := type'.dependencies
    children := type'.children }

structure Callable.Renamed (old new : TypeId) (callable callable' : Callable) : Prop where
  dependencies : IsImage (rename old new) callable.dependencies callable'.dependencies
  exceptions : IsImage (rename old new) callable.exceptions callable'.exceptions
  eq : callable' = { callable with
    owner := callable.owner.map (rename old new)
    dependencies := callable'.dependencies
    exceptions := callable'.exceptions
    returnType := callable.returnType.map (rename old new) }

namespace Graph

-- All types that are mentioned in a graph, as often as they are, not counting the dependencies between types.
def mentioned (graph : Graph) : List TypeId :=
  graph.callables.toList.flatMap (fun c => c.dependencies ++ c.exceptions ++ c.returnType.toList)
    ++ graph.parameters.toList.flatMap (·.type.toList)
    ++ graph.properties.toList.flatMap (·.type.toList)
    ++ graph.constants.toList.flatMap (·.target.toList)
    ++ graph.types.toList.flatMap (fun t => t.parent.toList ++ t.interfaces)

-- What becomes of a graph once `new` has taken the place of `old`, which was `decl`.
structure Renamed (graph : Graph) (old new : TypeId) (decl : TypeDecl) (graph' : Graph) : Prop where
  packages : graph'.packages = graph.packages
  packageIndex : graph'.packageIndex = graph.packageIndex
  types : ∀ id, Option.Rel (TypeDecl.Renamed old new decl id) (graph.type? id) (graph'.type? id)
  callables : ∀ id, Option.Rel (Callable.Renamed old new) (graph.callable? id) (graph'.callable? id)
  parameters : ∀ id, graph'.parameter? id
    = (graph.parameter? id).map fun p => { p with type := p.type.map (rename old new) }
  properties : ∀ id, graph'.property? id = (graph.property? id).map fun p =>
    { p with owner := rename old new p.owner, type := p.type.map (rename old new) }
  constants : ∀ id, graph'.constant? id = (graph.constant? id).map fun c =>
    { c with owner := rename old new c.owner, target := c.target.map (rename old new) }
  -- Dependencies of a type on itself are dropped.
  depends : ∀ a b, graph'.Depends a b
    ↔ a ≠ b ∧ ∃ x y, graph.Depends x y ∧ rename old new x = a ∧ rename old new y = b
  reciprocal : graph'.Reciprocal
  emptied : ∃ t', graph'.type? old = some t' ∧ t'.dependencies = [] ∧ t'.children = [] ∧ t'.methods = []
    ∧ t'.properties = [] ∧ t'.constants = []
  nextType : graph'.types.next = graph.types.next
  nextCallable : graph'.callables.next = graph.callables.next
  nextParameter : graph'.parameters.next = graph.parameters.next
  nextProperty : graph'.properties.next = graph.properties.next
  nextConstant : graph'.constants.next = graph.constants.next

variable {graph graph' g : Graph} {decl : TypeDecl}

-- In a list without duplicates it makes no difference whether lists or their entries are counted.

theorem placesIn_eq_count {types : List TypeId} (h : types.Nodup) : placesIn old types = types.count old := by
  rw [placesIn, h.count]

theorem placesInSlot_eq_count {slot : Option TypeId} : placesInSlot old slot = slot.toList.count old := by
  cases slot
  case none      => rfl
  case some type => by_cases h : type = old <;> simp [placesInSlot, h]

theorem placesAmong_eq_count {kind : NodeKind} {α : Type} {nodes : Arena kind α} {places : α → Nat}
    {types : α → List TypeId} (h : nodes.All fun a => places a = (types a).count old) :
    placesAmong nodes places = (nodes.toList.flatMap types).count old := by
  have hl (as : List α) (ha : ∀ a ∈ as, places a = (types a).count old) (n : Nat) :
      as.foldl (fun total a => total + places a) n = n + (as.flatMap types).count old := by
    induction as generalizing n
    case nil          => rfl
    case cons a as hi =>
      rw [List.forall_mem_cons] at ha
      rw [List.foldl_cons, hi ha.right, List.flatMap_cons, List.count_append, ha.left, Nat.add_assoc]
  rw [placesAmong, hl _ fun a ha => ?all, Nat.zero_add]
  case all =>
    obtain ⟨i, hi⟩ := Arena.mem_toList_iff.mp ha
    exact h i a hi

theorem MentionsOnce.places_eq (h : graph.MentionsOnce) : graph.places old = graph.mentioned.count old := by
  have hs {slot : Option TypeId} : placesInSlot old slot = slot.toList.count old := placesInSlot_eq_count
  have hc : graph.callables.All fun c =>
      c.places old = (c.dependencies ++ c.exceptions ++ c.returnType.toList).count old := by
    intro i c hc
    rw [Callable.places, placesIn_eq_count (h.uses i c hc), placesIn_eq_count (h.exceptions i c hc), hs,
      List.count_append, List.count_append]
  have ht : graph.types.All fun t => t.places old = (t.parent.toList ++ t.interfaces).count old := by
    intro i t ht
    rw [TypeDecl.places, hs, placesIn_eq_count (h.interfaces i t ht), List.count_append]
  simp only [places, mentioned, List.count_append]
  rw [placesAmong_eq_count hc, placesAmong_eq_count fun _ _ _ => hs, placesAmong_eq_count fun _ _ _ => hs,
    placesAmong_eq_count fun _ _ _ => hs, placesAmong_eq_count ht]

-- No type depends on itself, so what is handed over is the renamed relation without its loops.
theorem Reciprocal.handover_iff {a b : TypeId} (h : graph.Reciprocal) :
    graph.Handover old new a b
      ↔ a ≠ b ∧ ∃ x y, graph.Depends x y ∧ rename old new x = a ∧ rename old new y = b := by
  have hl (t : TypeId) : ¬ graph.Depends t t := by
    rintro ⟨_, ht, hd⟩
    exact h.dependency_ne ht hd
  simp only [Handover, rename_eq_iff]
  grind

section

variable (hne : old ≠ new) (hg : Rewires (graph.substitutePlaces old new) g) (ho : graph.type? old = some decl)

include hne hg ho

theorem Ownership.exists_type?_moveMembers {id : TypeId} {t : TypeDecl} (hw : g.Ownership)
    (ht : graph.type? id = some t) :
    ∃ t', (g.moveMembers decl old new).type? id = some t' ∧ t' = { t.substitute old new with
      constants := inherited old new id t.constants decl.constants
      properties := inherited old new id t.properties decl.properties
      methods := inherited old new id t.methods decl.methods
      dependencies := t'.dependencies
      children := t'.children } := by
  obtain ⟨d, hd, hb⟩ := hg.type?_eq (type?_substitutePlaces ho)
  obtain ⟨t₁, ht₁, hb₁⟩ := hg.type?_eq (type?_substitutePlaces ht)
  rw [moveMembers_congr hb]
  have hm : (g.moveMembers d old new).type? id = _ := type?_moveMembers
  rw [ht₁, Option.map_some] at hm
  obtain ⟨_, ht₂, _, hms, hps, hcs⟩ := hw.members_moveMembers hd hm
  cases ht₁.symm.trans ht₂
  refine ⟨_, hm, ?_⟩
  generalize hs : ite (id = new) _ _ = t' at hms hps hcs ⊢
  have hf : t' = { t₁ with constants := t'.constants, properties := t'.properties, methods := t'.methods } := by
    subst hs
    split <;> split <;> rfl
  simp only [TypeDecl.bare, TypeDecl.substitute, TypeDecl.mk.injEq] at hb hb₁
  simp only [inherited_eq hne, TypeDecl.substitute]
  rw [hf, hms, hps, hcs]
  simp [hb, hb₁]

theorem Ownership.renamed_type? (hw : g.Ownership) (hm : graph.MentionsOnce) (id : TypeId) :
    Option.Rel (TypeDecl.Renamed old new decl id) (graph.type? id) ((g.moveMembers decl old new).type? id) := by
  cases ht : graph.type? id
  case none =>
    have hn : (graph.substitutePlaces old new).type? id = none := by
      rw [type?] at ht
      simp [type?, substitutePlaces, ht]
    rw [type?_moveMembers, hg.type?_eq_none hn]
    exact .none
  case some t =>
    obtain ⟨t', ht', he⟩ := hw.exists_type?_moveMembers hne hg ho ht
    have hi : t'.interfaces = Distinct.substitute old new t.interfaces := congrArg TypeDecl.interfaces he
    rw [ht']
    refine .some ⟨hi ▸ Distinct.isImage_substitute (hm.interfaces id t ht) hne, ?_⟩
    simpa only [TypeDecl.substitute, substituteSlot_eq_map, ← hi] using he

theorem Ownership.renamed_callable? (hw : graph.Ownership) (hm : graph.MentionsOnce) (id : CallableId) :
    Option.Rel (Callable.Renamed old new) (graph.callable? id) ((g.moveMembers decl old new).callable? id) := by
  rw [callable?_of_substitute hg]
  cases hc : graph.callable? id
  case none   => exact .none
  case some c =>
    have hi : id ∈ decl.methods ↔ c.owner = some old := by
      rw [hw.methods.mem_iff ho, ← callable?, hc, Option.bind_some]
    have he : (if id ∈ decl.methods then some new else c.owner) = c.owner.map (rename old new) := by
      rw [← substituteSlot_eq_map, substituteSlot]
      simp only [hi]
    refine .some ⟨Distinct.isImage_substitute (hm.uses id c hc) hne,
      Distinct.isImage_substitute (hm.exceptions id c hc) hne, ?_⟩
    simp only [Callable.substitute, he, substituteSlot_eq_map]

theorem Renamed.of_rewires (hc : Changes (fun _ => True) ∅ graph) (hn : graph.types.contains new)
    (hd : ∀ a b, g.Depends a b ↔ graph.Handover old new a b) (hr : (g.moveMembers decl old new).Reciprocal) :
    graph.Renamed old new decl (g.moveMembers decl old new) := by
  have hm : graph.MentionsOnce := hc.mentionsOnce
  have hw : graph.Ownership := hc.ownership
  have hp : Change (fun _ => True) graph (graph.substitutePlaces old new) := .substitutePlaces hn
  have hwg : g.Ownership := Transitions.ownership (hc.trans (.head hp hg.changes))
  have hdr (a b : TypeId) : (g.moveMembers decl old new).Depends a b
      ↔ a ≠ b ∧ ∃ x y, graph.Depends x y ∧ rename old new x = a ∧ rename old new y = b := by
    rw [depends_moveMembers, hd, hc.reciprocal.handover_iff]
  constructor
  case types      => exact hwg.renamed_type? hne hg ho hm
  case callables  => exact hw.renamed_callable? hne hg ho hm
  case depends    => exact hdr
  case reciprocal => exact hr
  case packages =>
    rw [moveMembers_eq]
    exact congrArg (·.packages) hg.bare
  case packageIndex =>
    rw [moveMembers_eq]
    exact congrArg (·.packageIndex) hg.bare
  case parameters =>
    intro id
    simp only [parameter?_of_substitute hg, substituteSlot_eq_map]
  case properties =>
    intro id
    rw [property?_of_substitute hg]
    refine Option.map_congr fun p hp => ?_
    have hi : id ∈ decl.properties ↔ p.owner = old := by
      rw [hw.properties.mem_iff ho, ← property?, hp, Option.bind_some, Option.some_inj]
    simp only [substituteSlot_eq_map, hi, rename]
  case constants =>
    intro id
    rw [constant?_of_substitute hg]
    refine Option.map_congr fun c hc => ?_
    have hi : id ∈ decl.constants ↔ c.owner = old := by
      rw [hw.constants.mem_iff ho, ← constant?, hc, Option.bind_some, Option.some_inj]
    simp only [substituteSlot_eq_map, hi, rename]
  case emptied =>
    obtain ⟨t', ht', he⟩ := hwg.exists_type?_moveMembers hne hg ho ho
    obtain ⟨hs, hch⟩ : t'.dependencies = [] ∧ t'.children = [] := by
      refine hr.isolated ht' (fun b hb => ?_) fun b hb => ?_
      all_goals
        rw [hdr] at hb
        simp only [rename_eq_iff] at hb
        grind
    refine ⟨t', ht', hs, hch, ?_⟩
    rw [he]
    simp [inherited]
  case nextType => simp only [moveMembers_eq, Arena.next_modify, hg.next_eq, substitutePlaces, Arena.next_map]
  case nextCallable =>
    rw [moveMembers_eq, Arena.next_foldl_modify]
    exact (congrArg (·.callables.next) hg.bare).trans Arena.next_map
  case nextParameter =>
    rw [moveMembers_eq]
    exact (congrArg (·.parameters.next) hg.bare).trans Arena.next_map
  case nextProperty =>
    rw [moveMembers_eq, Arena.next_foldl_modify]
    exact (congrArg (·.properties.next) hg.bare).trans Arena.next_map
  case nextConstant =>
    rw [moveMembers_eq, Arena.next_foldl_modify]
    exact (congrArg (·.constants.next) hg.bare).trans Arena.next_map

end

end Graph

-- In every graph that operations can bring about, be it by itself or as the graph of a registry, a type can be put in
-- the place of any other one. The number of places that is returned then counts every mention of the other one.
theorem substitution_renames_everywhere {graph : Graph} {decl : TypeDecl}
    (h : graph.Reachable ∨ ∃ registry : Registry, registry.Reachable (fun _ => True) ∧ registry.graph = graph)
    (ho : graph.type? old = some decl) (hn : graph.types.contains new) (hne : old ≠ new) :
    ∃ graph', Graph.Edit.substitute old new graph
        = .ok (graph.mentioned.count old + decl.dependencies.length + decl.children.length
          + decl.methods.length + decl.properties.length + decl.constants.length) graph'
      ∧ graph.Renamed old new decl graph' := by
  have hc : Graph.Changes (fun _ => True) ∅ graph := by
    cases h
    case inl h => exact h.changes
    case inr h =>
      obtain ⟨registry, hr, rfl⟩ := h
      exact hr.graph
  obtain ⟨g, hs, hg, hd⟩ := Graph.Edit.substitute_ok hc.reciprocal ho hn hne
  have hc' : Graph.Changes (fun _ => True) ∅ (g.moveMembers decl old new) :=
    hc.trans ((Graph.Edit.substitute_changing old new).of_ok hs)
  rw [hc.mentionsOnce.places_eq] at hs
  exact ⟨_, hs, .of_rewires hne hg ho hc hn hd hc'.reciprocal⟩

-- Both types depend on each other, and a method of the one uses both of them.
theorem substitution_renames_everywhere_mutual :
    let ops : List Registry.Op := [
      .build (.type .cls) "Shape", .build (.type .interface) "Drawable", .build (.type .cls) "Circle",
      .edit (.connect ⟨0⟩ ⟨1⟩), .edit (.connect ⟨1⟩ ⟨0⟩), .edit (.connect ⟨0⟩ ⟨2⟩), .edit (.setParent ⟨2⟩ ⟨0⟩),
      .edit (.newMethod "draw"), .edit (.attachMethod ⟨0⟩ ⟨0⟩), .edit (.addUse ⟨0⟩ ⟨0⟩), .edit (.addUse ⟨0⟩ ⟨1⟩),
      .edit (.newProperty ⟨0⟩ "origin" (some ⟨0⟩))]
    let graph := ((Registry.ofConfig {}).perform ops).graph
    ∃ decl graph', graph.type? ⟨0⟩ = some decl ∧ graph.Depends ⟨0⟩ ⟨1⟩ ∧ graph.Depends ⟨1⟩ ⟨0⟩
      ∧ Graph.Edit.substitute ⟨0⟩ ⟨1⟩ graph = .ok 9 graph' ∧ graph.Renamed ⟨0⟩ ⟨1⟩ decl graph' := by
  intro ops graph
  have h : ∃ registry : Registry, registry.Reachable (fun _ => True) ∧ registry.graph = graph :=
    ⟨_, ⟨{}, Registry.ofConfig {}, rfl, .perform fun _ _ => trivial⟩, rfl⟩
  obtain ⟨decl, ho, hd, hc, hn, hs⟩ : ∃ decl ∈ graph.type? ⟨0⟩, ⟨1⟩ ∈ decl.dependencies ∧ ⟨1⟩ ∈ decl.children
      ∧ graph.types.contains ⟨1⟩ ∧ graph.mentioned.count ⟨0⟩ + decl.dependencies.length + decl.children.length
        + decl.methods.length + decl.properties.length + decl.constants.length = 9 := by
    decide +kernel
  obtain ⟨graph', he, hr⟩ := substitution_renames_everywhere (.inr h) ho hn (by decide)
  have hb : graph.Reciprocal := by
    obtain ⟨registry, hr, hg⟩ := h
    exact hg ▸ hr.graph.reciprocal
  exact ⟨decl, graph', ho, (Graph.depends_iff ho).mpr hd, (hb.mem_children ho).mp hc, hs ▸ he, hr⟩

end PackageCoupling
