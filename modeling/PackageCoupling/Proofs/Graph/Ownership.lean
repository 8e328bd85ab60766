import PackageCoupling.Proofs.Graph.Run

namespace PackageCoupling

-- The parts of nodes that say what belongs to what.

def Package.ties (package : Package) : PackageId × String × List TypeId × List CallableId :=
  (package.id, package.header.name, package.types, package.functions)

def TypeDecl.ties (type : TypeDecl) :
    TypeId × PackageId × List CallableId × List PropertyId × List ConstantId :=
  (type.id, type.package, type.methods, type.properties, type.constants)

def Callable.ties (callable : Callable) : Option TypeId × Option PackageId × List ParameterId :=
  (callable.owner, callable.package, callable.parameters)

namespace Graph

-- Both sides agree. Packages and types are under the ids that they hold, and packages never go and are found by their
-- names.
structure Ownership (graph : Graph) : Prop where
  types : graph.packages.Owns (·.types) graph.types (some ·.package)
  functions : graph.packages.Owns (·.functions) graph.callables (·.package)
  methods : graph.types.Owns (·.methods) graph.callables (·.owner)
  properties : graph.types.Owns (·.properties) graph.properties (some ·.owner)
  constants : graph.types.Owns (·.constants) graph.constants (some ·.owner)
  parameters : graph.callables.Owns (·.parameters) graph.parameters (some ·.callable)
  packageIds : graph.packages.Labelled (·.id)
  typeIds : graph.types.Labelled (·.id)
  packagesFull : graph.packages.Full
  packageIndex : graph.packages.Indexed (·.header.name) graph.packageIndex

variable {graph graph' : Graph}

-- Everything that says what belongs to what in a graph.
structure Ties where
  packages : PackageId → Option (PackageId × String × List TypeId × List CallableId)
  types : TypeId → Option (TypeId × PackageId × List CallableId × List PropertyId × List ConstantId)
  callables : CallableId → Option (Option TypeId × Option PackageId × List ParameterId)
  parameters : ParameterId → Option CallableId
  properties : PropertyId → Option TypeId
  constants : ConstantId → Option TypeId
  nextPackage : PackageId
  nextType : TypeId
  nextCallable : CallableId
  packageIndex : List (String × PackageId)

def ties (graph : Graph) : Ties where
  packages id   := (graph.packages.get? id).map Package.ties
  types id      := (graph.types.get? id).map TypeDecl.ties
  callables id  := (graph.callables.get? id).map Callable.ties
  parameters id := (graph.parameters.get? id).map (·.callable)
  properties id := (graph.properties.get? id).map (·.owner)
  constants id  := (graph.constants.get? id).map (·.owner)
  nextPackage   := graph.packages.next
  nextType      := graph.types.next
  nextCallable  := graph.callables.next
  packageIndex  := graph.packageIndex

theorem ties_frame : graph.frame.ties = graph.ties := by
  simp only [ties, frame, Arena.get?_map, Option.map_map, Arena.next_map]
  rfl

theorem ties_bare : graph.bare.ties = graph.ties := by
  simp only [ties, bare, Arena.get?_map, Option.map_map, Arena.next_map]
  rfl

namespace Ownership

theorem congr (h : graph.Ownership) (he : graph'.ties = graph.ties) : graph'.Ownership := by
  -- Owners list the same, and what is owned names the same owner.
  have hl {α β γ : Type} {o o' : Option α} {f : α → β} (g : β → γ) (ho : o'.map f = o.map f) (a' : α)
      (ha : o' = some a') : ∃ a, o = some a ∧ g (f a') = g (f a) := by
    rw [ha] at ho
    have ⟨a, ha, hf⟩ := Option.map_eq_some_iff.mp ho.symm
    exact ⟨a, ha, hf ▸ rfl⟩
  have hn {α β γ : Type} {o o' : Option α} {f : α → β} (g : β → Option γ) (ho : o'.map f = o.map f) :
      o'.bind (fun a => g (f a)) = o.bind fun a => g (f a) := by
    cases o <;> cases o' <;> simp_all
  have hp i := congrFun (congrArg Ties.packages he) i
  have ht i := congrFun (congrArg Ties.types he) i
  have hc i := congrFun (congrArg Ties.callables he) i
  have hnp : graph'.packages.next = graph.packages.next := congrArg Ties.nextPackage he
  have hnt : graph'.types.next = graph.types.next := congrArg Ties.nextType he
  have hnc : graph'.callables.next = graph.callables.next := congrArg Ties.nextCallable he
  constructor
  case types =>
    exact h.types.congr (hnp ▸ Nat.le_refl _) (fun i => hl (·.2.2.1) (hp i)) fun j => hn (some ·.2.1) (ht j)
  case functions =>
    exact h.functions.congr (hnp ▸ Nat.le_refl _) (fun i => hl (·.2.2.2) (hp i)) fun j => hn (·.2.1) (hc j)
  case methods =>
    exact h.methods.congr (hnt ▸ Nat.le_refl _) (fun i => hl (·.2.2.1) (ht i)) fun j => hn (·.1) (hc j)
  case properties =>
    refine h.properties.congr (hnt ▸ Nat.le_refl _) (fun i => hl (·.2.2.2.1) (ht i)) fun j => ?_
    exact hn some (congrFun (congrArg Ties.properties he) j)
  case constants =>
    refine h.constants.congr (hnt ▸ Nat.le_refl _) (fun i => hl (·.2.2.2.2) (ht i)) fun j => ?_
    exact hn some (congrFun (congrArg Ties.constants he) j)
  case parameters =>
    refine h.parameters.congr (hnc ▸ Nat.le_refl _) (fun i => hl (·.2.2) (hc i)) fun j => ?_
    exact hn some (congrFun (congrArg Ties.parameters he) j)
  case packageIds =>
    intro i p' hp'
    have ⟨p, hp, hi⟩ := hl (·.1) (hp i) p' hp'
    exact hi.trans (h.packageIds i p hp)
  case typeIds =>
    intro i t' ht'
    have ⟨t, ht, hi⟩ := hl (·.1) (ht i) t' ht'
    exact hi.trans (h.typeIds i t ht)
  case packagesFull =>
    intro i hi
    have ⟨p, hp'⟩ := h.packagesFull i (hnp ▸ hi)
    have ⟨p', hp', _⟩ := hl id (hp i).symm p hp'
    exact ⟨p', hp'⟩
  case packageIndex =>
    have hx : graph'.packageIndex = graph.packageIndex := congrArg Ties.packageIndex he
    rw [hx]
    refine h.packageIndex.congr fun i => ?_
    have hi := congrArg (Option.map (·.2.1)) (hp i)
    simp only [ties, Option.map_map] at hi
    exact hi

theorem empty : (∅ : Graph).Ownership where
  types        := .empty
  functions    := .empty
  methods      := .empty
  properties   := .empty
  constants    := .empty
  parameters   := .empty
  packageIds   := .empty
  typeIds      := .empty
  packagesFull := fun i hi => absurd hi (by simp [EmptyCollection.emptyCollection, Arena.next])
  packageIndex := .empty

theorem contains_package {package : PackageId} (h : graph.Ownership) (hp : graph.HasPackage package) :
    graph.packages.contains package := by
  obtain ⟨name, hn⟩ := hp
  obtain ⟨p, hp, _⟩ := h.packageIndex.exists_get? hn
  exact Arena.contains_of_get? hp

theorem addPackage {name : String} (h : graph.Ownership) (hn : graph.packageIndex.lookup name = none) :
    (graph.addPackage name).Ownership :=
  { h with
    types        := h.types.push_owner rfl
    functions    := h.functions.push_owner rfl
    packageIds   := h.packageIds.push rfl
    packagesFull := h.packagesFull.push
    packageIndex := h.packageIndex.push hn }

theorem addType {kind : TypeKind} {name : String} {package : PackageId} (h : graph.Ownership)
    (hp : graph.packages.contains package) : (graph.addType kind name package).Ownership :=
  { h with
    types        := h.types.push_owned hp (fun _ => rfl) rfl
    functions    := h.functions.modify_owner fun _ => rfl
    methods      := h.methods.push_owner rfl
    properties   := h.properties.push_owner rfl
    constants    := h.constants.push_owner rfl
    packageIds   := h.packageIds.modify fun _ => rfl
    typeIds      := h.typeIds.push rfl
    packagesFull := h.packagesFull.modify
    packageIndex := h.packageIndex.modify fun _ => rfl }

theorem addFunction {name : String} {package : PackageId} (h : graph.Ownership)
    (hp : graph.packages.contains package) : (graph.addFunction name package).Ownership :=
  { h with
    types        := h.types.modify_owner fun _ => rfl
    functions    := h.functions.push_owned hp (fun _ => rfl) rfl
    methods      := h.methods.push_stray rfl
    parameters   := h.parameters.push_owner rfl
    packageIds   := h.packageIds.modify fun _ => rfl
    packagesFull := h.packagesFull.modify
    packageIndex := h.packageIndex.modify fun _ => rfl }

theorem addMethod {name : String} (h : graph.Ownership) : (graph.addMethod name).Ownership :=
  { h with
    functions  := h.functions.push_stray rfl
    methods    := h.methods.push_stray rfl
    parameters := h.parameters.push_owner rfl }

theorem addParameter {callable : CallableId} {name : String} {position : Nat} {type : Option TypeId}
    (h : graph.Ownership) (hc : graph.callables.contains callable) :
    (graph.addParameter callable name position type).Ownership :=
  { h with
    functions  := h.functions.modify_owned fun _ => rfl
    methods    := h.methods.modify_owned fun _ => rfl
    parameters := h.parameters.push_owned hc (fun _ => rfl) rfl }

theorem addProperty {owner : TypeId} {name : String} {type : Option TypeId} (h : graph.Ownership)
    (ho : graph.types.contains owner) : (graph.addProperty owner name type).Ownership :=
  { h with
    types      := h.types.modify_owned fun _ => rfl
    methods    := h.methods.modify_owner fun _ => rfl
    properties := h.properties.push_owned ho (fun _ => rfl) rfl
    constants  := h.constants.modify_owner fun _ => rfl
    typeIds    := h.typeIds.modify fun _ => rfl }

theorem addConstant {owner : TypeId} {name : String} (h : graph.Ownership) (ho : graph.types.contains owner) :
    (graph.addConstant owner name).Ownership :=
  { h with
    types      := h.types.modify_owned fun _ => rfl
    methods    := h.methods.modify_owner fun _ => rfl
    properties := h.properties.modify_owner fun _ => rfl
    constants  := h.constants.push_owned ho (fun _ => rfl) rfl
    typeIds    := h.typeIds.modify fun _ => rfl }

-- A type is not in the package that it moves to yet, so that it is not listed twice there.
theorem moveType {type : TypeId} {old new : PackageId} (h : graph.Ownership) (ht : graph.packageOf? type = some old)
    (hp : graph.packages.contains new) (hn : old ≠ new) : (graph.moveType type old new).Ownership := by
  constructor
  case types =>
    have hc : graph.types.contains type := by
      obtain ⟨t, ht, _⟩ := Option.map_eq_some_iff.mp ht
      exact Arena.contains_of_get? ht
    have ho : (graph.types.get? type).bind (some ·.package) = some old := by
      rw [packageOf?, type?, Option.map_eq_bind] at ht
      exact ht
    refine h.types.give hp hc (fun _ => rfl) (by simp [Graph.moveType, updatePackage, updateType]) ?_
    intro i p' hi
    simp only [Graph.moveType, updatePackage, updateType, Arena.get?_modify_eq_map, Option.map_map] at hi
    obtain ⟨p, hp, he⟩ := Option.map_eq_some_iff.mp hi
    refine ⟨p, hp, ?_⟩
    rw [← he, ho]
    have hm := @h.types.mem_iff i p type hp
    rw [ho] at hm
    by_cases hi : i = new
    case pos =>
      have hm : type ∉ p.types := by simp [hm, hi, hn]
      simp [hi, hn, hm, Distinct.add]
    case neg => by_cases hi' : i = old <;> simp [hi, hi', hn, Ne.symm hi, Ne.symm hn, eq_comm (a := old)]
  case functions    => exact .modify_owner (.modify_owner h.functions fun _ => rfl) fun _ => rfl
  case methods      => exact h.methods.modify_owner fun _ => rfl
  case properties   => exact h.properties.modify_owner fun _ => rfl
  case constants    => exact h.constants.modify_owner fun _ => rfl
  case parameters   => exact h.parameters
  case packageIds   => exact .modify (.modify h.packageIds fun _ => rfl) fun _ => rfl
  case typeIds      => exact h.typeIds.modify fun _ => rfl
  case packagesFull => exact h.packagesFull.modify.modify
  case packageIndex => exact .modify (.modify h.packageIndex fun _ => rfl) fun _ => rfl

theorem attach {owner : TypeId} {method : CallableId} {callable : Callable} (h : graph.Ownership)
    (ho : graph.types.contains owner) (hm : graph.callable? method = some callable) :
    (graph.attach owner method callable.owner).Ownership := by
  have ht (id : TypeId) := @type?_attach graph owner id method callable.owner
  have hn := @nextType_attach graph owner method callable.owner
  simp only [type?] at ht
  rw [attach_eq]
  generalize (graph.attach owner method callable.owner).types = types at ht hn ⊢
  -- Types keep everything but their methods.
  have hk {id : TypeId} {t' : TypeDecl} (hi : types.get? id = some t') :
      ∃ t, graph.types.get? id = some t ∧ t'.id = t.id ∧ t'.package = t.package ∧ t'.properties = t.properties
        ∧ t'.constants = t.constants := by
    obtain ⟨t, hi, he⟩ := Option.map_eq_some_iff.mp (ht id ▸ hi)
    exact ⟨t, hi, he ▸ ⟨rfl, rfl, rfl, rfl⟩⟩
  constructor
  case types =>
    refine h.types.congr (Nat.le_refl _) (fun _ p hp => ⟨p, hp, rfl⟩) fun j => ?_
    simp only [ht]
    cases graph.types.get? j <;> rfl
  case functions => exact h.functions.modify_owned fun _ => rfl
  case methods =>
    refine h.methods.give ho (Arena.contains_of_get? hm) (fun _ => rfl) (by simp [hn]) ?_
    intro i t' hi
    obtain ⟨t, hi, he⟩ := Option.map_eq_some_iff.mp (ht i ▸ hi)
    rw [callable?] at hm
    exact ⟨t, hi, he ▸ by simp [hm]⟩
  case properties =>
    refine h.properties.congr (by simp [hn]) (fun i t' hi => ?_) fun _ => rfl
    obtain ⟨t, ht, _, _, hp, _⟩ := hk hi
    exact ⟨t, ht, hp⟩
  case constants =>
    refine h.constants.congr (by simp [hn]) (fun i t' hi => ?_) fun _ => rfl
    obtain ⟨t, ht, _, _, _, hc⟩ := hk hi
    exact ⟨t, ht, hc⟩
  case parameters => exact h.parameters.modify_owner fun _ => rfl
  case packageIds => exact h.packageIds
  case typeIds =>
    intro i t' hi
    obtain ⟨t, ht, hd, _⟩ := hk hi
    exact hd.trans (h.typeIds i t ht)
  case packagesFull => exact h.packagesFull
  case packageIndex => exact h.packageIndex

theorem removeType {type : TypeId} {decl : TypeDecl} (h : graph.Ownership) (ht : graph.type? type = some decl) :
    (graph.removeType type decl.package).Ownership := by
  constructor
  case types =>
    refine h.types.erase_owned (by simp [Graph.removeType, updatePackage]) ?_
    intro i p' hi
    simp only [Graph.removeType, updatePackage, Arena.get?_modify_eq_map] at hi
    obtain ⟨p, hp, he⟩ := Option.map_eq_some_iff.mp hi
    rw [type?] at ht
    refine ⟨p, hp, ?_⟩
    rw [← he, ht]
    by_cases hi : decl.package = i <;> simp [hi]
  case functions    => exact h.functions.modify_owner fun _ => rfl
  case methods      => exact h.methods.erase_owner
  case properties   => exact h.properties.erase_owner
  case constants    => exact h.constants.erase_owner
  case parameters   => exact h.parameters
  case packageIds   => exact h.packageIds.modify fun _ => rfl
  case typeIds      => exact h.typeIds.erase
  case packagesFull => exact h.packagesFull.modify
  case packageIndex => exact h.packageIndex.modify fun _ => rfl

-- What belongs to a type after members have moved. No method belongs to both types, so none is left out.
theorem members_moveMembers {old new id : TypeId} {decl t' : TypeDecl} (h : graph.Ownership)
    (ho : graph.type? old = some decl) (hi : (graph.moveMembers decl old new).type? id = some t') :
    ∃ t, graph.type? id = some t ∧ t'.id = t.id
      ∧ t'.methods = (if id = old then [] else t.methods) ++ (if id = new then decl.methods else [])
      ∧ t'.properties = (if id = old then [] else t.properties) ++ (if id = new then decl.properties else [])
      ∧ t'.constants = (if id = old then [] else t.constants) ++ (if id = new then decl.constants else []) := by
  rw [type?_moveMembers] at hi
  obtain ⟨t, hi, he⟩ := Option.map_eq_some_iff.mp hi
  have hm (hne : id ≠ old) : decl.methods.foldl Distinct.add t.methods = t.methods ++ decl.methods := by
    refine Distinct.foldl_add (List.nodup_append.mpr ⟨h.methods.nodup hi, h.methods.nodup ho, ?_⟩)
    rintro m hm _ hd rfl
    have := (h.methods.mem_iff hi).mp hm
    have := (h.methods.mem_iff ho).mp hd
    simp_all
  have hnil : decl.methods.foldl Distinct.add [] = decl.methods :=
    Distinct.foldl_add (by simpa using h.methods.nodup ho)
  refine ⟨t, hi, ?_⟩
  rw [← he]
  by_cases hio : id = old <;> by_cases hin : id = new <;> simp_all

theorem moveMembers {old new : TypeId} {decl : TypeDecl} (h : graph.Ownership) (ho : graph.type? old = some decl)
    (hn : graph.types.contains new) : (graph.moveMembers decl old new).Ownership := by
  have hnt : (graph.moveMembers decl old new).types.next = graph.types.next := by simp [moveMembers_eq]
  have hnc : (graph.moveMembers decl old new).callables.next = graph.callables.next := by simp [moveMembers_eq]
  have hp : (graph.moveMembers decl old new).packages = graph.packages := by simp [moveMembers_eq]
  have hx : (graph.moveMembers decl old new).packageIndex = graph.packageIndex := by rw [moveMembers_eq]
  have hpa : (graph.moveMembers decl old new).parameters = graph.parameters := by simp [moveMembers_eq]
  constructor
  case types =>
    refine h.types.congr (by simp [hp]) (fun _ p hi => ⟨p, hp ▸ hi, rfl⟩) fun j => ?_
    have hj := @type?_moveMembers graph decl old new j
    rw [type?] at hj
    rw [hj, type?]
    cases graph.types.get? j
    case none   => rfl
    case some t =>
      simp only [Option.map_some, Option.bind_some]
      split <;> split <;> rfl
  case functions =>
    refine h.functions.congr (by simp [hp]) (fun _ p hi => ⟨p, hp ▸ hi, rfl⟩) fun j => ?_
    have hj := @callable?_moveMembers graph decl old new j
    rw [callable?] at hj
    rw [hj, callable?]
    cases graph.callables.get? j
    case none   => rfl
    case some c =>
      simp only [Option.map_some, Option.bind_some]
      split <;> rfl
  case packageIds   => exact hp ▸ h.packageIds
  case packagesFull => exact hp ▸ h.packagesFull
  case packageIndex => exact hx ▸ hp ▸ h.packageIndex
  case typeIds =>
    intro i t' hi
    obtain ⟨t, hi, hd, _⟩ := h.members_moveMembers ho hi
    exact hd.trans (h.typeIds i t hi)
  case methods =>
    refine h.methods.inherit ho hn (by simp [hnt]) (fun _ => rfl) (fun _ => callable?_moveMembers) fun i t' hi => ?_
    obtain ⟨t, hi, _, hm, _⟩ := h.members_moveMembers ho hi
    exact ⟨t, hi, hm⟩
  case properties =>
    refine h.properties.inherit ho hn (by simp [hnt]) (fun _ => rfl) (fun _ => property?_moveMembers) fun i t' hi => ?_
    obtain ⟨t, hi, _, _, hm, _⟩ := h.members_moveMembers ho hi
    exact ⟨t, hi, hm⟩
  case constants =>
    refine h.constants.inherit ho hn (by simp [hnt]) (fun _ => rfl) (fun _ => constant?_moveMembers) fun i t' hi => ?_
    obtain ⟨t, hi, _, _, _, hm⟩ := h.members_moveMembers ho hi
    exact ⟨t, hi, hm⟩
  case parameters =>
    refine h.parameters.congr (by simp [hnc]) (fun i c' hi => ?_) fun _ => by rw [hpa]
    have hc := @callable?_moveMembers graph decl old new i
    rw [callable?] at hc
    obtain ⟨c, hc, he⟩ := Option.map_eq_some_iff.mp (hc.symm.trans hi)
    refine ⟨c, hc, ?_⟩
    rw [← he]
    split <;> rfl

end Ownership

theorem Transition.ownership {gone moved : TypeId → Prop} (hc : Transition gone moved graph graph')
    (h : graph.Ownership) : graph'.Ownership := by
  cases hc
  case package hn          => exact h.addPackage hn
  case type hp             => exact h.addType (h.contains_package hp)
  case function hp         => exact h.addFunction (h.contains_package hp)
  case method              => exact h.addMethod
  case relocate ht hp hn   => exact h.moveType ht (h.contains_package hp) hn
  case attach ho hm        => exact h.attach ho hm
  case parameter hc ht     => exact h.addParameter (Arena.contains_of_get? hc)
  case property ho ht      => exact h.addProperty ho
  case constant ho         => exact h.addConstant ho
  case skipParameter       => exact { h with parameters := h.parameters.reserve_owned }
  case skipProperty        => exact { h with properties := h.properties.reserve_owned }
  case skipConstant        => exact { h with constants := h.constants.reserve_owned }
  case revise hf _ _       => exact h.congr (by rw [← ties_frame, hf, ties_frame])
  case link hs ht hn hd    => exact h.congr (by rw [← ties_bare, bare_insertEdge, ties_bare])
  case unlink hs ht        => exact h.congr (by rw [← ties_bare, bare_eraseEdge, ties_bare])
  case inherit ho hn       => exact h.moveMembers ho hn
  case remove _ ht _ _     => exact h.removeType ht

theorem Transitions.ownership {gone moved : TypeId → Prop} (h : Transitions gone moved ∅ graph) : graph.Ownership :=
  h.preserve Transition.ownership .empty

end Graph
end PackageCoupling
