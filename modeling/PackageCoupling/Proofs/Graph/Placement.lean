import PackageCoupling.Proofs.Graph.Ownership
import PackageCoupling.Proofs.Graph.Lifetime
import PackageCoupling.Text.Lowercase

namespace PackageCoupling

namespace TypeDecl

def identity (type : TypeDecl) : TypeKind × String × PackageId :=
  (type.kind, type.header.name, type.package)

-- A type is still known by the same, except for its package if it may have moved.
structure Remains (mayMove : Prop) (type type' : TypeDecl) : Prop where
  kind : type'.kind = type.kind
  name : type'.header.name = type.header.name
  package : ¬ mayMove → type'.package = type.package

namespace Remains

variable {mayMove : Prop} {type type' type'' : TypeDecl}

theorem refl : Remains mayMove type type :=
  ⟨rfl, rfl, fun _ => rfl⟩

theorem trans (h : Remains mayMove type type') (h' : Remains mayMove type' type'') : Remains mayMove type type'' where
  kind       := h'.kind.trans h.kind
  name       := h'.name.trans h.name
  package hm := (h'.package hm).trans (h.package hm)

theorem of_identity (h : type.identity = type'.identity) : Remains mayMove type type' := by
  simp only [identity, Prod.mk.injEq] at h
  exact ⟨h.left.symm, h.right.left.symm, fun _ => h.right.right.symm⟩

end Remains
end TypeDecl

namespace Graph

variable {graph graph' : Graph} {gone moved : TypeId → Prop} {id : TypeId} {kind : TypeKind} {key package : String}

-- A type of the given kind is there, under a name that is the given key in lowercase, and belongs to a package of
-- the given name.
def Houses (graph : Graph) (id : TypeId) (kind : TypeKind) (key package : String) : Prop :=
  ∃ type owner, graph.type? id = some type ∧ graph.package? type.package = some owner
    ∧ type.kind = kind ∧ Text.lowercase type.header.name = key ∧ owner.header.name = package

theorem Houses.contains (h : graph.Houses id kind key package) : graph.types.contains id := by
  have ⟨_, _, ht, _⟩ := h
  exact Arena.contains_of_get? ht

theorem Houses.unique {kind' : TypeKind} {key' package' : String} (h : graph.Houses id kind key package)
    (h' : graph.Houses id kind' key' package') : kind = kind' ∧ key = key' ∧ package = package' := by
  obtain ⟨type, owner, ht, hp, rfl, rfl, rfl⟩ := h
  obtain ⟨type', owner', ht', hp', rfl, rfl, rfl⟩ := h'
  cases ht.symm.trans ht'
  cases hp.symm.trans hp'
  exact ⟨rfl, rfl, rfl⟩

theorem Ownership.exists_houses {i : PackageId} {owner : Package} (hw : graph.Ownership)
    (hp : graph.package? i = some owner) (ht : id ∈ owner.types) :
    ∃ kind key, graph.Houses id kind key owner.header.name := by
  obtain ⟨type, ht, hi⟩ := Option.bind_eq_some_iff.mp ((hw.types.mem_iff hp).mp ht)
  have hi : type.package = i := Option.some.inj hi
  exact ⟨type.kind, Text.lowercase type.header.name, type, owner, ht, hi ▸ hp, rfl, rfl, rfl⟩

theorem Transition.remains {type' : TypeDecl} (h : Transition gone moved graph graph')
    (hn : id.val < graph.types.next.val) (ht : graph'.type? id = some type') :
    ∃ type, graph.type? id = some type ∧ type.Remains (moved id) type' := by
  -- Most transitions do not even touch what types are known by.
  have hk (he : (graph'.type? id).map TypeDecl.identity = (graph.type? id).map TypeDecl.identity) :
      ∃ type, graph.type? id = some type ∧ type.Remains (moved id) type' := by
    rw [ht] at he
    obtain ⟨type, ht, hi⟩ := Option.map_eq_some_iff.mp he.symm
    exact ⟨type, ht, .of_identity hi⟩
  cases h
  case type =>
    have hn : id ≠ graph.types.next := fun he => Nat.ne_of_lt hn (congrArg NodeId.val he)
    simp only [addType, type?, Arena.get?_push, hn, if_false] at ht
    exact ⟨type', ht, .refl⟩
  case remove =>
    simp only [removeType, type?, Arena.get?_erase] at ht
    split at ht
    case isTrue  => simp at ht
    case isFalse => exact ⟨type', ht, .refl⟩
  case relocate type old new hm _ _ _ =>
    simp only [moveType, type?_updateType] at ht
    obtain ⟨decl, ht, he⟩ := Option.map_eq_some_iff.mp ht
    refine ⟨decl, ht, ?_⟩
    subst he
    split
    case isTrue hi  => exact ⟨rfl, rfl, fun hn => absurd (hi ▸ hm) hn⟩
    case isFalse hi => exact .refl
  case revise hf _ _ =>
    apply hk
    have hi := congrArg (fun g : Graph => (g.type? id).map TypeDecl.identity) hf
    simp only [type?, frame, Arena.get?_map, Option.map_map] at hi
    exact hi
  case link =>
    apply hk
    simp only [type?, insertEdge, updateType]
    rw [Arena.map_get?_modify, Arena.map_get?_modify] <;> exact fun _ => rfl
  case unlink =>
    apply hk
    simp only [type?, eraseEdge, updateType]
    rw [Arena.map_get?_modify, Arena.map_get?_modify] <;> exact fun _ => rfl
  case inherit =>
    apply hk
    rw [type?_moveMembers, Option.map_map]
    congr 1
    funext t
    simp only [Function.comp_apply]
    split <;> split <;> rfl
  case attach =>
    apply hk
    rw [type?_attach, Option.map_map]
    rfl
  case property => exact hk (Arena.map_get?_modify fun _ => rfl)
  case constant => exact hk (Arena.map_get?_modify fun _ => rfl)
  all_goals exact hk rfl

theorem Transitions.remains {type' : TypeDecl} (h : Transitions gone moved graph graph')
    (hn : id.val < graph.types.next.val) (ht : graph'.type? id = some type') :
    ∃ type, graph.type? id = some type ∧ type.Remains (moved id) type' := by
  induction h generalizing type'
  case refl          => exact ⟨type', ht, .refl⟩
  case tail hr hs hi =>
    have hn' := Nat.lt_of_lt_of_le hn (Transitions.lifetime hr).issued
    obtain ⟨type₁, ht₁, hm₁⟩ := hs.remains hn' ht
    obtain ⟨type, ht, hm⟩ := hi ht₁
    exact ⟨type, ht, hm.trans hm₁⟩

theorem Transitions.packageOf? (h : Transitions gone moved graph graph') (hn : id.val < graph.types.next.val)
    (hg : ¬ gone id) (hm : ¬ moved id) : graph'.packageOf? id = graph.packageOf? id := by
  rw [Graph.packageOf?, Graph.packageOf?]
  cases ht' : graph'.type? id
  case some type' =>
    obtain ⟨type, ht, hr⟩ := h.remains hn ht'
    rw [ht, Option.map_some, Option.map_some, hr.package hm]
  case none =>
    cases ht : graph.type? id
    case none      => rfl
    case some type =>
      obtain ⟨_, hs⟩ := Arena.contains_iff.mp (h.lifetime.stays (Arena.contains_of_get? ht) hg)
      rw [type?, hs] at ht'
      cases ht'

theorem Transition.package? {id : PackageId} {owner : Package} (h : Transition gone moved graph graph')
    (hp : graph.package? id = some owner) :
    ∃ owner', graph'.package? id = some owner' ∧ owner'.header.name = owner.header.name := by
  have hk (he : (graph'.package? id).map (·.header.name) = (graph.package? id).map (·.header.name)) :
      ∃ owner', graph'.package? id = some owner' ∧ owner'.header.name = owner.header.name := by
    rw [hp] at he
    exact Option.map_eq_some_iff.mp he
  cases h
  case package =>
    have : id ≠ graph.packages.next := fun he => by simp [Graph.package?, he, Arena.get?_next] at hp
    refine ⟨owner, ?_, rfl⟩
    rw [Graph.package?] at hp
    simp [Graph.package?, addPackage, Arena.get?_push, this, hp]
  case type     => exact hk (Arena.map_get?_modify fun _ => rfl)
  case function => exact hk (Arena.map_get?_modify fun _ => rfl)
  case remove   => exact hk (Arena.map_get?_modify fun _ => rfl)
  case relocate =>
    apply hk
    simp only [Graph.package?, moveType, updatePackage, updateType]
    rw [Arena.map_get?_modify, Arena.map_get?_modify] <;> exact fun _ => rfl
  case attach   => rw [attach_eq]; exact ⟨owner, hp, rfl⟩
  case inherit  => rw [moveMembers_eq]; exact ⟨owner, hp, rfl⟩
  case revise hf _ _ =>
    apply hk
    have hi := congrArg (fun g : Graph => (g.package? id).map (·.header.name)) hf
    simp only [Graph.package?, frame, Arena.get?_map, Option.map_map] at hi
    exact hi
  all_goals exact ⟨owner, hp, rfl⟩

theorem Transitions.package? {id : PackageId} {owner : Package} (h : Transitions gone moved graph graph')
    (hp : graph.package? id = some owner) :
    ∃ owner', graph'.package? id = some owner' ∧ owner'.header.name = owner.header.name := by
  induction h
  case refl         => exact ⟨owner, hp, rfl⟩
  case tail _ hs hi =>
    have ⟨_, hp₁, hn₁⟩ := hi
    have ⟨owner', hp', hn'⟩ := hs.package? hp₁
    exact ⟨owner', hp', hn'.trans hn₁⟩

theorem Houses.persists (hh : graph.Houses id kind key package) (h : Transitions gone moved graph graph')
    (hm : ¬ moved id) (hl : graph'.types.contains id) : graph'.Houses id kind key package := by
  have ⟨type, owner, ht, hp, hk, hy, hn⟩ := hh
  have ⟨type', ht'⟩ := Arena.contains_iff.mp hl
  have ⟨_, hs, hr⟩ := h.remains (Arena.lt_next ht) ht'
  cases ht.symm.trans hs
  have ⟨owner', ho', hn'⟩ := h.package? (hr.package hm ▸ hp)
  exact ⟨type', owner', ht', ho', hr.kind.trans hk, hr.name ▸ hy, hn'.trans hn⟩

theorem ensurePackage_named (hw : graph.Ownership) (name : String) :
    ∃ owner, (graph.ensurePackage name).2.package? (graph.ensurePackage name).1 = some owner
      ∧ owner.header.name = name := by
  rw [ensurePackage]
  cases hp : graph.packageIndex.lookup name
  case some => exact hw.packageIndex.exists_get? hp
  case none => exact ⟨_, Arena.get?_push.trans (if_pos rfl), rfl⟩

theorem newType_houses (hw : graph.Ownership) (kind : TypeKind) (name package : String) :
    (graph.newType kind name package).2.Houses graph.types.next kind (Text.lowercase name) package := by
  have ⟨owner, ho, hn⟩ := graph.ensurePackage_named hw package
  rw [newType_eq]
  have ht := @types_ensurePackage graph package
  generalize graph.ensurePackage package = ensured at ho ht ⊢
  have hi : (ensured.2.addType kind name ensured.1).type? graph.types.next
      = some { id := graph.types.next, kind, header := { name := name }, package := ensured.1 } := by
    rw [type?, addType, ht, Arena.get?_push, if_pos rfl]
  have hp : (ensured.2.addType kind name ensured.1).package? ensured.1
      = some { owner with types := owner.types ++ [graph.types.next] } := by
    rw [Graph.package?] at ho
    simp [Graph.package?, addType, updatePackage, Arena.get?_modify, ho, ht]
  exact ⟨_, _, hi, hp, rfl, rfl, hn⟩

theorem Houses.relocate {package' : String} (h : graph.Houses id kind key package) (hw : graph.Ownership) :
    (graph.relocate id package').2.Houses id kind key package' := by
  have ⟨type, _, ht, _, hk, hy, _⟩ := h
  have ⟨owner, ho, hn⟩ := graph.ensurePackage_named hw package'
  have hi : (graph.ensurePackage package').2.type? id = some type := by
    rw [type?, types_ensurePackage]
    exact ht
  rw [relocate_eq (by rw [packageOf?, ht, Option.map_some])]
  generalize graph.ensurePackage package' = ensured at ho hi ⊢
  split
  case isTrue he => exact ⟨type, owner, hi, he ▸ ho, hk, hy, hn⟩
  case isFalse he =>
    refine ⟨{ type with package := ensured.1 }, { owner with types := owner.types ++ [id] }, ?_, ?_, hk, hy, hn⟩
    case refine_1 =>
      rw [type?] at hi
      simp [type?, moveType, updateType, updatePackage, Arena.get?_modify, hi]
    case refine_2 =>
      rw [Graph.package?] at ho
      simp [Graph.package?, moveType, updateType, updatePackage, Arena.get?_modify, ho, he]

end Graph
end PackageCoupling
