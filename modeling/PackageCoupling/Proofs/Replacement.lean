import PackageCoupling.Proofs.Coupling
import PackageCoupling.Proofs.Graph.Description
import PackageCoupling.Proofs.Graph.Mentions

namespace PackageCoupling

theorem NodeId.ref_inj {kind : NodeKind} {a b : NodeId kind} (h : a.ref = b.ref) : a = b := by
  simpa [NodeId.ref] using h

namespace Graph

variable {graph graph' : Graph} {node : NodeRef} {p q : PackageId} {t target : TypeId}

namespace Ties

variable (ties : Ties)

def packageOf? (type : TypeId) : Option PackageId :=
  (ties.types type).map (·.2.1)

def callableVoice? (callable : CallableId) : Option PackageId :=
  (ties.callables callable).bind fun c =>
    match c.1 with
    | some owner => ties.packageOf? owner
    | none       => c.2.1

-- The package that a node speaks for, which is all a matter of what belongs to what.
def voice? : NodeRef → Option PackageId
  | ⟨.package, _⟩    => none
  | ⟨.type, id⟩      => ties.packageOf? id
  | ⟨.callable, id⟩  => ties.callableVoice? id
  | ⟨.parameter, id⟩ => (ties.parameters id).bind ties.callableVoice?
  | ⟨.property, id⟩  => (ties.properties id).bind ties.packageOf?
  | ⟨.constant, id⟩  => (ties.constants id).bind ties.packageOf?

end Ties

theorem packageOf?_ties : graph.ties.packageOf? t = graph.packageOf? t := by
  simp only [Ties.packageOf?, ties, packageOf?, type?, Option.map_map]
  rfl

theorem callableVoice?_ties {callable : CallableId} :
    graph.ties.callableVoice? callable = (graph.callable? callable).bind fun c =>
      match c.owner with
      | some owner => graph.packageOf? owner
      | none       => c.package := by
  simp only [Ties.callableVoice?, packageOf?_ties]
  exact Option.bind_map

theorem voice?_ties : graph.ties.voice? node = match node with
    | ⟨.package, _⟩    => none
    | ⟨.type, id⟩      => graph.packageOf? id
    | ⟨.callable, id⟩  => graph.ties.callableVoice? id
    | ⟨.parameter, id⟩ => (graph.parameter? id).bind fun n => graph.ties.callableVoice? n.callable
    | ⟨.property, id⟩  => (graph.property? id).bind fun n => graph.packageOf? n.owner
    | ⟨.constant, id⟩  => (graph.constant? id).bind fun n => graph.packageOf? n.owner := by
  obtain ⟨kind, id⟩ := node
  cases kind <;> simp only [Ties.voice?, ← packageOf?_ties]
  case parameter | property | constant => exact Option.bind_map

theorem packageOf?_eq_some : graph.packageOf? t = some p ↔ ∃ n, graph.type? t = some n ∧ n.package = p :=
  Option.map_eq_some_iff

theorem callableVoice?_eq_some {id : CallableId} :
    graph.ties.callableVoice? id = some p ↔ ∃ type, graph.Speaks id.ref type p := by
  simp only [callableVoice?_ties, speaks_callable, Option.bind_eq_some_iff]
  constructor
  case mp =>
    rintro ⟨c, hc, hp⟩
    cases h : c.owner <;> rw [h] at hp
    case some owner =>
      obtain ⟨n, hn, hp⟩ := packageOf?_eq_some.mp hp
      exact ⟨some owner, c, hc, by simpa [callableSource?, h] using typeSource?_eq_some.mpr ⟨rfl, n, hn, hp⟩⟩
    case none => exact ⟨none, c, hc, by simp [callableSource?, h, hp]⟩
  case mpr =>
    rintro ⟨type, c, hc, hs⟩
    refine ⟨c, hc, ?_⟩
    cases h : c.owner
    case some owner =>
      rw [callableSource?, h] at hs
      obtain ⟨_, n, hn, hp⟩ := typeSource?_eq_some.mp hs
      exact packageOf?_eq_some.mpr ⟨n, hn, hp⟩
    case none =>
      rw [callableSource?, h] at hs
      obtain ⟨p, hp, he⟩ := Option.map_eq_some_iff.mp hs
      simp only [hp]
      exact congrArg (fun s => some s.package) he

theorem voice?_eq_some : graph.ties.voice? node = some p ↔ ∃ type, graph.Speaks node type p := by
  rw [voice?_ties]
  constructor
  case mp =>
    intro hv
    obtain ⟨kind, id⟩ := node
    cases kind
    case package  => simp at hv
    case callable => exact callableVoice?_eq_some.mp hv
    case type =>
      obtain ⟨n, hn, hp⟩ := packageOf?_eq_some.mp hv
      exact ⟨some id, hp ▸ .type hn⟩
    case parameter =>
      obtain ⟨n, hn, hv⟩ := Option.bind_eq_some_iff.mp hv
      obtain ⟨type, hs⟩ := callableVoice?_eq_some.mp hv
      exact ⟨type, .parameter hn hs⟩
    case property =>
      obtain ⟨n, hn, hv⟩ := Option.bind_eq_some_iff.mp hv
      obtain ⟨t, ht, hp⟩ := packageOf?_eq_some.mp hv
      exact ⟨some n.owner, hp ▸ .property hn ht⟩
    case constant =>
      obtain ⟨n, hn, hv⟩ := Option.bind_eq_some_iff.mp hv
      obtain ⟨t, ht, hp⟩ := packageOf?_eq_some.mp hv
      exact ⟨some n.owner, hp ▸ .constant hn ht⟩
  case mpr =>
    rintro ⟨type, hs⟩
    cases hs
    case type n ht                => exact packageOf?_eq_some.mpr ⟨n, ht, rfl⟩
    case property n owner hp ht   => exact Option.bind_eq_some_iff.mpr ⟨n, hp, packageOf?_eq_some.mpr ⟨owner, ht, rfl⟩⟩
    case constant n owner hp ht   => exact Option.bind_eq_some_iff.mpr ⟨n, hp, packageOf?_eq_some.mpr ⟨owner, ht, rfl⟩⟩
    case method n t owner hc' h ht => exact callableVoice?_eq_some.mpr ⟨some t, .method hc' h ht⟩
    case function n hc' h hp      => exact callableVoice?_eq_some.mpr ⟨none, .function hc' h hp⟩
    case parameter n hp hs        => exact Option.bind_eq_some_iff.mpr ⟨n, hp, callableVoice?_eq_some.mpr ⟨type, hs⟩⟩

def references (graph : Graph) (node : NodeRef) : List TypeId :=
  ((graph.visit? node).map Visit.references).getD []

theorem mem_references : t ∈ graph.references node ↔ graph.Mentions node t := by
  rw [references, mentions_iff]
  cases graph.visit? node <;> simp

theorem packageDepends_iff : graph.PackageDepends p q ↔ p ≠ q ∧ ∃ node target,
    graph.ties.voice? node = some p ∧ target ∈ graph.references node ∧ graph.packageOf? target = some q := by
  simp only [PackageDepends, voice?_eq_some, mem_references]
  grind

theorem ties_retype {type : TypeId} {kind : TypeKind} : (graph.retype type kind).ties = graph.ties := by
  have ht (id : TypeId) : ((graph.retype type kind).types.get? id).map TypeDecl.ties
      = (graph.types.get? id).map TypeDecl.ties := by
    have hi := @type?_retype type id kind graph
    rw [type?] at hi
    rw [hi, Option.map_map, type?]
    congr 1
    funext t
    simp only [Function.comp_apply]
    split <;> rfl
  simp only [ties, ht]
  simp [retype, updateType]

theorem references_retype {type : TypeId} {kind : TypeKind} :
    (graph.retype type kind).references node = graph.references node := by
  obtain ⟨k, id⟩ := node
  cases k
  case type =>
    simp only [references, visit?, type?_retype, Option.map_map]
    congr 2
    funext t
    simp only [Function.comp_apply]
    split <;> rfl
  all_goals rfl

theorem packageOf?_congr (h : graph'.ties = graph.ties) : graph'.packageOf? t = graph.packageOf? t := by
  rw [← packageOf?_ties, h, packageOf?_ties]

theorem packageDepends_retype {type : TypeId} {kind : TypeKind} :
    (graph.retype type kind).PackageDepends p q ↔ graph.PackageDepends p q := by
  simp only [packageDepends_iff, references_retype, ties_retype, packageOf?_congr ties_retype]

structure OwnsNothing (graph : Graph) (type : TypeId) : Prop where
  methods : ∀ {i c}, graph.callable? i = some c → c.owner ≠ some type
  properties : ∀ {i n}, graph.property? i = some n → n.owner ≠ type
  constants : ∀ {i n}, graph.constant? i = some n → n.owner ≠ type

theorem OwnsNothing.voice?_eq {type : TypeId} (h : graph.OwnsNothing type) (hc : graph'.callables = graph.callables)
    (hm : graph'.parameters = graph.parameters) (hp : graph'.properties = graph.properties)
    (hk : graph'.constants = graph.constants) (ht : ∀ t, t ≠ type → graph'.packageOf? t = graph.packageOf? t)
    (hn : node ≠ type.ref) : graph'.ties.voice? node = graph.ties.voice? node := by
  have hv (c : CallableId) : graph'.ties.callableVoice? c = graph.ties.callableVoice? c := by
    rw [callableVoice?_ties, callableVoice?_ties, callable?, hc]
    refine Option.bind_congr fun c hc => ?_
    cases ho : c.owner
    case none       => rfl
    case some owner => exact ht owner fun he => h.methods hc (he ▸ ho)
  rw [voice?_ties, voice?_ties]
  obtain ⟨kind, id⟩ := node
  cases kind
  case package   => rfl
  case callable  => exact hv id
  case parameter => simp only [parameter?, hm, hv]
  case type      => exact ht id fun he => hn (he ▸ rfl)
  case property =>
    simp only [property?, hp]
    exact Option.bind_congr fun n hn => ht n.owner (h.properties hn)
  case constant =>
    simp only [constant?, hk]
    exact Option.bind_congr fun n hn => ht n.owner (h.constants hn)

theorem MentionsOnly.of_mem_references {P : TypeId → Prop} (h : graph.MentionsOnly P) (ht : t ∈ graph.references node) :
    P t := by
  cases mem_references.mp ht
  case parent n hn hm     => exact h.types _ n hn t (by simp [TypeDecl.ids, hm])
  case interface n hn hm  => exact h.types _ n hn t (by simp [TypeDecl.ids, hm])
  case dependency n hn hm => exact h.types _ n hn t (by simp [TypeDecl.ids, hm])
  case use n hn hm        => exact h.callables _ n hn t (by simp [Callable.ids, hm])
  case exception n hn hm  => exact h.callables _ n hn t (by simp [Callable.ids, hm])
  case result n hn hm     => exact h.callables _ n hn t (by simp [Callable.ids, hm])
  case parameter n hn hm  => exact h.parameters _ n hn t hm
  case property n hn hm   => exact h.properties _ n hn t (by simp [Property.ids, hm])
  case constant n hn hm   => exact h.constants _ n hn t (by simp [Constant.ids, hm])

section

variable {kind : TypeKind} {name : String} {package : PackageId}

theorem packageOf?_addType : (graph.addType kind name package).packageOf? t =
    if t = graph.types.next then some package else graph.packageOf? t := by
  simp only [packageOf?, type?, addType, Arena.get?_push]
  split <;> rfl

theorem references_addType : (graph.addType kind name package).references node = graph.references node := by
  obtain ⟨k, id⟩ := node
  cases k
  case package =>
    simp only [references, visit?, Option.map_map]
    cases (graph.addType kind name package).package? id <;> cases graph.package? id <;> rfl
  case type =>
    have ht : (graph.addType kind name package).type? id = _ := Arena.get?_push
    simp only [references, visit?, ht]
    split
    case isTrue hi =>
      have hn : graph.type? id = none := hi ▸ Arena.get?_next
      simp [hn, Visit.references, TypeDecl.references]
    case isFalse => rfl
  all_goals rfl

theorem packageDepends_addType (h : graph.MentionsOnly (·.val < graph.types.next.val)) :
    (graph.addType kind name package).PackageDepends p q ↔ graph.PackageDepends p q := by
  have hl {t : TypeId} (ht : t.val < graph.types.next.val) : t ≠ graph.types.next :=
    fun he => Nat.lt_irrefl _ (he ▸ ht)
  have ho : graph.OwnsNothing graph.types.next := {
    methods hc he := hl (h.callables _ _ hc _ (by simp [Callable.ids, he])) rfl
    properties hp := hl (h.properties _ _ hp _ (by simp [Property.ids]))
    constants hc  := hl (h.constants _ _ hc _ (by simp [Constant.ids])) }
  simp only [packageDepends_iff, references_addType]
  refine and_congr_right fun _ => exists_congr fun node => exists_congr fun target => ?_
  by_cases ht : target ∈ graph.references node
  case neg => simp [ht]
  case pos =>
    have hn : node ≠ graph.types.next.ref := by
      rintro rfl
      have hn : graph.type? graph.types.next = none := Arena.get?_next
      simp [references, visit?, NodeId.ref, hn] at ht
    have hp (t : TypeId) (ht : t ≠ graph.types.next) :
        (graph.addType kind name package).packageOf? t = graph.packageOf? t := by
      rw [packageOf?_addType, if_neg ht]
    have hv : (graph.addType kind name package).ties.voice? node = graph.ties.voice? node :=
      ho.voice?_eq rfl rfl rfl rfl hp hn
    rw [hv, hp target (hl (h.of_mem_references ht))]

end

theorem mem_references_iff :
    t ∈ graph.references node ↔ t ∈ graph.bare.references node ∨ ∃ a : TypeId, node = a.ref ∧ graph.Depends a t := by
  obtain ⟨kind, id⟩ := node
  cases kind
  case type =>
    have hd : (∃ a : TypeId, (⟨.type, id⟩ : NodeRef) = a.ref ∧ graph.Depends a t) ↔ graph.Depends id t := by
      simp [NodeId.ref]
    have hb : graph.bare.type? id = (graph.type? id).map TypeDecl.bare := Arena.get?_map
    rw [hd]
    simp only [references, visit?, hb, Depends]
    cases graph.type? id
    case none   => simp
    case some n => simp [Visit.references, TypeDecl.references, TypeDecl.bare, or_assoc]
  all_goals simp [NodeId.ref, references, visit?, bare, package?, callable?, parameter?, property?, constant?]

variable {old new : TypeId}

theorem mem_substituteSlot {slot : Option TypeId} :
    substituteSlot old new slot = some t ↔ slot = some t ∧ t ≠ old ∨ slot = some old ∧ t = new := by
  rw [substituteSlot]
  grind

theorem mem_references_substitutePlaces (h : graph.MentionsOnce) (hne : old ≠ new) :
    t ∈ (graph.substitutePlaces old new).bare.references node ↔
      t ∈ graph.bare.references node ∧ t ≠ old ∨ old ∈ graph.bare.references node ∧ t = new := by
  obtain ⟨kind, id⟩ := node
  cases kind
  case package =>
    simp only [references, visit?, Option.map_map]
    cases (graph.substitutePlaces old new).bare.package? id <;> cases graph.bare.package? id <;> simp [Visit.references]
  case type =>
    have hs : (graph.substitutePlaces old new).bare.type? id
        = (graph.type? id).map fun n => (n.substitute old new).bare := by
      simp only [type?, bare, substitutePlaces, Arena.get?_map, Option.map_map]
      rfl
    have hb : graph.bare.type? id = (graph.type? id).map TypeDecl.bare := Arena.get?_map
    simp only [references, visit?, hs, hb]
    cases hn : graph.type? id
    case none   => simp
    case some n =>
      have hi := h.interfaces id n hn
      simp only [Option.map_some, Option.getD_some, Visit.references, TypeDecl.references, TypeDecl.substitute,
        TypeDecl.bare, List.mem_eraseDups, List.mem_append, Option.mem_toList, List.not_mem_nil, or_false,
        Distinct.mem_substitute hi hne, mem_substituteSlot]
      grind
  case callable =>
    have hs : (graph.substitutePlaces old new).bare.callable? id = (graph.callable? id).map (·.substitute old new) :=
      Arena.get?_map
    have hb : graph.bare.callable? id = graph.callable? id := rfl
    simp only [references, visit?, hs, hb]
    cases hn : graph.callable? id
    case none   => simp
    case some n =>
      have hu := h.uses id n hn
      have he := h.exceptions id n hn
      simp only [Option.map_some, Option.getD_some, Visit.references, Callable.references, Callable.substitute,
        List.mem_eraseDups, List.mem_append, Option.mem_toList,
        Distinct.mem_substitute hu hne, Distinct.mem_substitute he hne, mem_substituteSlot]
      grind
  case parameter =>
    have hs : (graph.substitutePlaces old new).bare.parameter? id
        = (graph.parameter? id).map fun p => { p with type := substituteSlot old new p.type } := Arena.get?_map
    have hb : graph.bare.parameter? id = graph.parameter? id := rfl
    simp only [references, visit?, hs, hb]
    cases graph.parameter? id <;> simp [Visit.references, Parameter.references, mem_substituteSlot]
  case property =>
    have hs : (graph.substitutePlaces old new).bare.property? id
        = (graph.property? id).map fun p => { p with type := substituteSlot old new p.type } := Arena.get?_map
    have hb : graph.bare.property? id = graph.property? id := rfl
    simp only [references, visit?, hs, hb]
    cases graph.property? id <;> simp [Visit.references, Property.references, mem_substituteSlot]
  case constant =>
    have hs : (graph.substitutePlaces old new).bare.constant? id
        = (graph.constant? id).map fun c => { c with target := substituteSlot old new c.target } := Arena.get?_map
    have hb : graph.bare.constant? id = graph.constant? id := rfl
    simp only [references, visit?, hs, hb]
    cases graph.constant? id <;> simp [Visit.references, Constant.references, mem_substituteSlot]

theorem references_moveMembers {decl : TypeDecl} :
    (graph.moveMembers decl old new).references node = graph.references node := by
  obtain ⟨kind, id⟩ := node
  cases kind
  case package | parameter => rw [moveMembers_eq]; rfl
  case type =>
    simp only [references, visit?, type?_moveMembers, Option.map_map]
    congr 2
    funext n
    simp only [Function.comp_apply]
    split <;> split <;> rfl
  all_goals
    simp only [references, visit?, callable?_moveMembers, property?_moveMembers, constant?_moveMembers, Option.map_map]
    congr 2
    funext n
    simp only [Function.comp_apply]
    split <;> rfl

theorem packageOf?_moveMembers {decl : TypeDecl} :
    (graph.moveMembers decl old new).packageOf? t = graph.packageOf? t := by
  rw [packageOf?, type?_moveMembers, Option.map_map, packageOf?]
  congr 1
  funext n
  simp only [Function.comp_apply]
  split <;> split <;> rfl

theorem voice?_moveMembers {decl : TypeDecl} (h : graph.Ownership) (ho : graph.type? old = some decl)
    (hp : graph.packageOf? new = graph.packageOf? old) :
    (graph.moveMembers decl old new).ties.voice? node = graph.ties.voice? node := by
  have hv (id : CallableId) :
      (graph.moveMembers decl old new).ties.callableVoice? id = graph.ties.callableVoice? id := by
    rw [callableVoice?_ties, callableVoice?_ties, callable?_moveMembers, Option.bind_map]
    refine Option.bind_congr fun c hc => ?_
    by_cases hm : id ∈ decl.methods
    case neg => simp [hm, packageOf?_moveMembers]
    case pos =>
      have hb := (h.methods.mem_iff ho).mp hm
      have hb : c.owner = some old := by simpa [show graph.callables.get? id = some c from hc] using hb
      simp [hm, hb, hp, packageOf?_moveMembers]
  rw [voice?_ties, voice?_ties]
  obtain ⟨kind, id⟩ := node
  cases kind
  case package   => rfl
  case callable  => exact hv id
  case parameter =>
    have hq : (graph.moveMembers decl old new).parameter? id = graph.parameter? id := by rw [moveMembers_eq]; rfl
    simp only [hq, hv]
  case type      => exact packageOf?_moveMembers
  case property =>
    simp only [property?_moveMembers, Option.bind_map, packageOf?_moveMembers]
    refine Option.bind_congr fun n hn => ?_
    simp only [Function.comp_apply]
    split
    case isFalse => rfl
    case isTrue hm =>
      have hb := (h.properties.mem_iff ho).mp hm
      have hb : n.owner = old := by simpa [show graph.properties.get? id = some n from hn] using hb
      rw [hb, hp]
  case constant =>
    simp only [constant?_moveMembers, Option.bind_map, packageOf?_moveMembers]
    refine Option.bind_congr fun n hn => ?_
    simp only [Function.comp_apply]
    split
    case isFalse => rfl
    case isTrue hm =>
      have hb := (h.constants.mem_iff ho).mp hm
      have hb : n.owner = old := by simpa [show graph.constants.get? id = some n from hn] using hb
      rw [hb, hp]

theorem Ownership.ownsNothing {type : TypeId} {decl : TypeDecl} (h : graph.Ownership)
    (ht : graph.type? type = some decl) (hm : decl.methods = []) (hp : decl.properties = [])
    (hc : decl.constants = []) : graph.OwnsNothing type where
  methods {i c} hi he := by
    have hb : i ∈ decl.methods :=
      (h.methods.mem_iff ht).mpr (by simp [show graph.callables.get? i = some c from hi, he])
    simp [hm] at hb
  properties {i n} hi he := by
    have hb : i ∈ decl.properties :=
      (h.properties.mem_iff ht).mpr (by simp [show graph.properties.get? i = some n from hi, he])
    simp [hp] at hb
  constants {i n} hi he := by
    have hb : i ∈ decl.constants :=
      (h.constants.mem_iff ht).mpr (by simp [show graph.constants.get? i = some n from hi, he])
    simp [hc] at hb

theorem packageOf?_removeType {type : TypeId} {package : PackageId} :
    (graph.removeType type package).packageOf? t = if type = t then none else graph.packageOf? t := by
  simp only [packageOf?, type?, removeType, Arena.get?_erase]
  split <;> rfl

theorem references_removeType {type : TypeId} {package : PackageId} :
    (graph.removeType type package).references node = if node = type.ref then [] else graph.references node := by
  obtain ⟨kind, id⟩ := node
  cases kind
  case package =>
    simp only [references, visit?, Option.map_map, NodeId.ref]
    cases (graph.removeType type package).package? id <;> cases graph.package? id <;> simp [Visit.references]
  case type =>
    have ht : (graph.removeType type package).type? id = _ := Arena.get?_erase
    have hr : (⟨.type, id⟩ : NodeRef) = type.ref ↔ id = type := by simp [NodeId.ref]
    simp only [references, visit?, ht, hr]
    by_cases hi : type = id
    case pos => simp [hi]
    case neg =>
      rw [if_neg hi, if_neg (Ne.symm hi)]
      rfl
  all_goals simp [NodeId.ref]; rfl

-- A type has been put in the place of another one, and the latter has been erased.
structure Supplants (old new : TypeId) (graph graph' : Graph) : Prop where
  packageOf?_eq : ∀ t, graph'.packageOf? t = if old = t then none else graph.packageOf? t
  voice?_eq : ∀ node, node ≠ old.ref → graph'.ties.voice? node = graph.ties.voice? node
  mem_references : ∀ node t, t ∈ graph'.references node ↔ node ≠ old.ref ∧
    ((t ∈ graph.bare.references node ∧ t ≠ old ∨ old ∈ graph.bare.references node ∧ t = new)
      ∨ ∃ a : TypeId, node = a.ref ∧ graph.Handover old new a t)

theorem replace_supplants {g : Graph} {decl : TypeDecl} (h : graph.Ownership) (hm : graph.MentionsOnce)
    (ho : graph.type? old = some decl) (hp : graph.packageOf? new = graph.packageOf? old)
    (hn : graph.types.contains new) (hne : old ≠ new) (hg : Rewires (graph.substitutePlaces old new) g)
    (hd : ∀ a b, g.Depends a b ↔ graph.Handover old new a b) :
    Supplants old new graph ((g.moveMembers decl old new).removeType old decl.package) := by
  have ht : g.ties = graph.ties := by
    rw [← ties_bare, hg.bare, ties_bare, ← ties_frame, frame_substitutePlaces, ties_frame]
  obtain ⟨d, hd', hb⟩ := hg.type?_eq (type?_substitutePlaces ho)
  have hl : g.types.contains new := hg.contains (by rwa [contains_substitutePlaces])
  have hw : g.Ownership := h.congr ht
  have hv (node : NodeRef) : (g.moveMembers decl old new).ties.voice? node = graph.ties.voice? node := by
    rw [moveMembers_congr hb, voice?_moveMembers hw hd', ht]
    rw [packageOf?_congr ht, packageOf?_congr ht, hp]
  have hq (t : TypeId) : (g.moveMembers decl old new).packageOf? t = graph.packageOf? t := by
    rw [packageOf?_moveMembers, packageOf?_congr ht]
  constructor
  case packageOf?_eq =>
    intro t
    rw [packageOf?_removeType, hq]
  case voice?_eq =>
    intro node hn
    rw [← hv node]
    have hm : (g.moveMembers decl old new).type? old
        = some { d with methods := [], properties := [], constants := [] } := by
      rw [type?_moveMembers, hd']
      simp [hne]
    have hw : (g.moveMembers decl old new).Ownership := moveMembers_congr hb ▸ hw.moveMembers hd' hl
    refine (hw.ownsNothing hm rfl rfl rfl).voice?_eq rfl rfl rfl rfl (fun t ht => ?_) hn
    rw [packageOf?_removeType, if_neg (Ne.symm ht)]
  case mem_references =>
    intro node t
    rw [references_removeType]
    by_cases hn : node = old.ref
    case pos => simp [hn]
    case neg =>
      rw [if_neg hn, references_moveMembers, mem_references_iff, hg.bare, mem_references_substitutePlaces hm hne]
      simp only [hd, ne_eq, hn, not_false_eq_true, true_and]

theorem voice?_type : graph.ties.voice? t.ref = graph.packageOf? t :=
  voice?_ties

theorem mem_bare_references {decl : TypeDecl} (ht : graph.type? t = some decl) :
    target ∈ graph.bare.references t.ref ↔ target ∈ decl.bases := by
  have hb : graph.bare.type? t = (graph.type? t).map TypeDecl.bare := Arena.get?_map
  simp [references, visit?, NodeId.ref, hb, ht, Visit.references, TypeDecl.references, TypeDecl.bases, TypeDecl.bare]

-- The new type speaks for the same package as the old one did, so packages depend on nothing new.
theorem Supplants.packageDepends_of {package : PackageId} (h : Supplants old new graph graph')
    (ho : graph.packageOf? old = some package) (hn : graph.packageOf? new = some package)
    (hd : graph'.PackageDepends p q) : graph.PackageDepends p q := by
  rw [packageDepends_iff] at hd ⊢
  obtain ⟨hpq, node, t, hs, hm, hq⟩ := hd
  obtain ⟨hno, hm⟩ := (h.mem_references node t).mp hm
  refine ⟨hpq, ?_⟩
  rw [h.voice?_eq node hno] at hs
  rw [h.packageOf?_eq] at hq
  split at hq
  case isTrue => simp at hq
  case isFalse =>
    obtain (hm | ⟨hm, rfl⟩) | ⟨a, rfl, hm | ⟨rfl, hm, _⟩ | ⟨rfl, hm, _⟩⟩ := hm
    case inl.inl => exact ⟨node, t, hs, mem_references_iff.mpr (.inl hm.left), hq⟩
    case inl.inr => exact ⟨node, old, hs, mem_references_iff.mpr (.inl hm), by rw [ho, ← hn, hq]⟩
    case inr.inl => exact ⟨a.ref, t, hs, mem_references_iff.mpr (.inr ⟨a, rfl, hm.left⟩), hq⟩
    case inr.inr.inl =>
      rw [voice?_type, hn, ← ho, ← voice?_type] at hs
      exact ⟨old.ref, t, hs, mem_references_iff.mpr (.inr ⟨old, rfl, hm⟩), hq⟩
    case inr.inr.inr =>
      exact ⟨a.ref, old, hs, mem_references_iff.mpr (.inr ⟨a, rfl, hm⟩), by rw [ho, ← hn, hq]⟩

-- What the old type inherited from is not inherited by the new one, which depends on it all the same.
theorem Supplants.packageDepends {package : PackageId} (h : Supplants old new graph graph')
    (ho : graph.Resides old package) (hn : graph.packageOf? new = some package) (hne : old ≠ new) :
    graph'.PackageDepends p q ↔ graph.PackageDepends p q := by
  obtain ⟨decl, ht, hp, hb⟩ := ho
  have ho : graph.packageOf? old = some package := packageOf?_eq_some.mpr ⟨decl, ht, hp⟩
  refine ⟨h.packageDepends_of ho hn, fun hd => ?_⟩
  rw [packageDepends_iff] at hd ⊢
  obtain ⟨hpq, node, t, hs, hm, hq⟩ := hd
  refine ⟨hpq, ?_⟩
  have hf {node : NodeRef} {t : TypeId} (hno : node ≠ old.ref) (hs : graph.ties.voice? node = some p)
      (hm : (t ∈ graph.bare.references node ∧ t ≠ old ∨ old ∈ graph.bare.references node ∧ t = new)
        ∨ ∃ a : TypeId, node = a.ref ∧ graph.Handover old new a t)
      (hto : t ≠ old) (hq : graph.packageOf? t = some q) : ∃ node target, graph'.ties.voice? node = some p
        ∧ target ∈ graph'.references node ∧ graph'.packageOf? target = some q := by
    refine ⟨node, t, (h.voice?_eq node hno).trans hs, (h.mem_references node t).mpr ⟨hno, hm⟩, ?_⟩
    rw [h.packageOf?_eq, if_neg hto.symm, hq]
  -- The types of one package do not make it depend on itself.
  have hpp (hp : some package = some p) (hq : some package = some q) : False :=
    hpq (Option.some.inj (hp.symm.trans hq))
  by_cases hno : node = old.ref
  case pos =>
    subst hno
    rw [voice?_type, ho] at hs
    have hd : t = old ∨ graph.Depends old t := by
      cases mem_references_iff.mp hm
      case inl hm => exact (hb t ((mem_bare_references ht).mp hm)).imp_right (depends_iff ht).mpr
      case inr hm =>
        obtain ⟨a, ha, hd⟩ := hm
        exact .inr (NodeId.ref_inj ha ▸ hd)
    cases hd
    case inl hd => exact (hpp hs (ho ▸ hd ▸ hq)).elim
    case inr hd =>
      have htn : t ≠ new := fun he => hpp hs (hn ▸ he ▸ hq)
      have hto : t ≠ old := fun he => hpp hs (ho ▸ he ▸ hq)
      refine hf (fun he => hne (NodeId.ref_inj he).symm) ?_ (.inr ⟨new, rfl, .inr (.inl ⟨rfl, hd, htn⟩)⟩) hto hq
      rw [voice?_type, hn, hs]
  case neg =>
    by_cases hto : t = old
    case pos =>
      subst hto
      refine hf hno hs ?_ hne.symm (hn.trans (ho ▸ hq))
      cases mem_references_iff.mp hm
      case inl hm => exact .inl (.inr ⟨hm, rfl⟩)
      case inr hm =>
        obtain ⟨a, rfl, hd⟩ := hm
        refine .inr ⟨a, rfl, .inr (.inr ⟨rfl, hd, fun ha => ?_⟩)⟩
        rw [ha, voice?_type, hn] at hs
        exact hpp hs (ho ▸ hq)
    case neg =>
      refine hf hno hs ?_ hto hq
      cases mem_references_iff.mp hm
      case inl hm => exact .inl (.inl ⟨hm, hto⟩)
      case inr hm =>
        obtain ⟨a, rfl, hd⟩ := hm
        exact .inr ⟨a, rfl, .inl ⟨hd, fun ha => hno (ha ▸ rfl), hto⟩⟩

end Graph
end PackageCoupling
