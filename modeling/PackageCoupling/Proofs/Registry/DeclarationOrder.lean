import PackageCoupling.Proofs.Census
import PackageCoupling.Proofs.Registry.Integrity
import PackageCoupling.Proofs.Registry.Resolution

namespace PackageCoupling

namespace Graph

variable {graph graph' : Graph} {id : TypeId} {package : String}

-- What a declaration adds to a graph, if it is not there yet: a package and a type.
structure Adds (graph : Graph) (package : String) (id : TypeId) (graph' : Graph) : Prop where
  mem_names_iff : ∀ p, p ∈ graph'.names ↔ p ∈ graph.names ∨ p = package
  contains_iff : ∀ t, graph'.types.contains t ↔ graph.types.contains t ∨ t = id
  callables : graph'.callables = graph.callables

theorem callables_ensurePackage (name : String) : (graph.ensurePackage name).2.callables = graph.callables := by
  rw [ensurePackage]
  cases graph.packageIndex.lookup name <;> rfl

theorem newType_adds (hw : graph.Ownership) (kind : TypeKind) (name package : String) :
    graph.Adds package graph.types.next (graph.newType kind name package).2 := by
  have ht := @types_ensurePackage graph package
  have hc := @callables_ensurePackage graph package
  have hn (p : String) := @mem_names_ensurePackage graph package p hw
  rw [newType_eq]
  generalize graph.ensurePackage package = ensured at ht hc hn
  have hu : (ensured.2.addType kind name ensured.1).names = ensured.2.names := names_updatePackage fun _ => rfl
  refine ⟨fun p => by rw [hu, hn p], fun t => ?_, hc⟩
  simp only [addType, ht, Arena.contains, Arena.get?_push]
  split
  case isTrue he  => simp [he]
  case isFalse he => simp [he]

theorem relocate_adds (hw : graph.Ownership) (hl : graph.types.contains id) (package : String) :
    graph.Adds package id (graph.relocate id package).2 := by
  have ⟨type, hi⟩ := Arena.contains_iff.mp hl
  have ht := @types_ensurePackage graph package
  have hc := @callables_ensurePackage graph package
  have hn (p : String) := @mem_names_ensurePackage graph package p hw
  have hs (t : TypeId) : graph.types.contains t ↔ graph.types.contains t ∨ t = id :=
    (or_iff_left_of_imp fun he => he ▸ hl).symm
  rw [relocate_eq (by rw [packageOf?, type?, hi, Option.map_some])]
  generalize graph.ensurePackage package = ensured at ht hc hn
  split
  case isTrue  => exact ⟨hn, fun t => ht ▸ hs t, hc⟩
  case isFalse =>
    refine ⟨fun p => by rw [names_moveType, hn p], fun t => ?_, hc⟩
    rw [moveType, updateType, Arena.contains_modify, updatePackage, updatePackage, ht]
    exact hs t

theorem Adds.refl (hp : package ∈ graph.names) (hl : graph.types.contains id) :
    graph.Adds package id graph where
  mem_names_iff _ := (or_iff_left_of_imp fun he => he ▸ hp).symm
  contains_iff _  := (or_iff_left_of_imp fun he => he ▸ hl).symm
  callables       := rfl

end Graph

namespace Registry

section

variable {default package : String} {declared packages : List String}

-- How the packages in which there is a type of some kind and name change when it is declared in a package.
def settle (default : String) (packages : List String) (package : String) : List String :=
  if package ∈ packages then packages
  else if packages = [] ∨ packages = [default] then [package]
  else if package = default then packages
  else packages ++ [package]

theorem settle_of_mem (hp : package ∈ packages) : settle default packages package = packages :=
  if_pos hp

theorem settle_default (hn : packages ≠ []) (hd : default ∉ packages) : settle default packages default = packages := by
  have hs : packages ≠ [default] := fun he => hd (he ▸ List.mem_singleton_self default)
  rw [settle, if_neg hd, if_neg (not_or.mpr ⟨hn, hs⟩), if_pos rfl]

theorem settle_singleton (hp : package ≠ default) : settle default [default] package = [package] := by
  simp [settle, hp]

theorem settle_new (hp : package ∉ packages) (hd : package = default → packages = []) (hs : packages ≠ [default]) :
    settle default packages package = packages ++ [package] := by
  rw [settle, if_neg hp]
  split
  case isTrue he  => rw [he.resolve_right hs, List.nil_append]
  case isFalse he => rw [if_neg fun hp => he (.inl (hd hp))]

-- Of the packages in which a type has been declared, those in which there is one in the end. The default package only
-- counts if it is the only one.
structure Settled (default : String) (declared packages : List String) : Prop where
  nodup : packages.Nodup
  mem_iff : ∀ p ≠ default, p ∈ packages ↔ p ∈ declared
  default_mem_iff : default ∈ packages ↔ declared ≠ [] ∧ ∀ p ∈ declared, p = default

namespace Settled

theorem nil : Settled default [] [] := by
  constructor <;> simp

theorem of_mem (h : Settled default declared packages) (hp : package ∈ packages) : package ∈ declared := by
  by_cases hd : package = default
  case neg => exact (h.mem_iff package hd).mp hp
  case pos =>
    have ⟨hn, ha⟩ := h.default_mem_iff.mp (hd ▸ hp)
    have ⟨p, hp⟩ := List.exists_mem_of_ne_nil declared hn
    exact hd ▸ ha p hp ▸ hp

theorem eq_singleton (h : Settled default declared packages) (hd : default ∈ packages) : packages = [default] := by
  have ⟨_, ha⟩ := h.default_mem_iff.mp hd
  refine List.perm_singleton.mp ((List.perm_ext_iff_of_nodup h.nodup (List.nodup_singleton default)).mpr fun p => ?_)
  rw [List.mem_singleton]
  exact ⟨fun hp => ha p (h.of_mem hp), fun hp => hp ▸ hd⟩

theorem mem_packages_iff (h : Settled default declared packages) : package ∈ packages ↔
    package ∈ declared ∧ (package = default → ∀ p ∈ declared, p = default) := by
  by_cases hd : package = default
  case neg => rw [h.mem_iff package hd, and_iff_left fun he => absurd he hd]
  case pos =>
    subst hd
    refine ⟨fun hp => ⟨h.of_mem hp, fun _ => (h.default_mem_iff.mp hp).right⟩, fun hp => ?_⟩
    exact h.default_mem_iff.mpr ⟨List.ne_nil_of_mem hp.left, hp.right rfl⟩

theorem eq_default_of_nil (h : Settled default declared []) : ∀ p ∈ declared, p = default := by
  intro p hp
  by_contra hd
  exact List.not_mem_nil ((h.mem_iff p hd).mpr hp)

theorem again (h : Settled default declared packages) (hp : package ∈ packages) :
    Settled default (declared ++ [package]) packages := by
  have hs (p : String) : p ∈ declared ++ [package] ↔ p ∈ declared := by
    rw [List.mem_append, List.mem_singleton, or_iff_left_iff_imp]
    exact fun he => he ▸ h.of_mem hp
  refine ⟨h.nodup, fun p hd => (h.mem_iff p hd).trans (hs p).symm, h.default_mem_iff.trans ?_⟩
  simp only [hs, ne_eq, List.ne_nil_of_mem (h.of_mem hp), List.append_ne_nil_of_left_ne_nil, not_false_eq_true]

theorem replace (ha : ∀ p ∈ declared, p = default) : Settled default (declared ++ [package]) [package] := by
  refine ⟨List.nodup_singleton package, fun p hd => ?_, ?_⟩
  case refine_1 =>
    rw [List.mem_append, List.mem_singleton]
    exact ⟨.inr, fun hp => hp.resolve_left fun hp => hd (ha p hp)⟩
  case refine_2 =>
    rw [List.mem_singleton, List.forall_mem_append, List.forall_mem_singleton]
    exact ⟨fun hd => ⟨by simp, ha, hd.symm⟩, fun hd => hd.right.right.symm⟩

theorem ignore (h : Settled default declared packages) (hn : packages ≠ []) (hd : default ∉ packages) :
    Settled default (declared ++ [default]) packages := by
  have ⟨q, hq⟩ := List.exists_mem_of_ne_nil packages hn
  refine ⟨h.nodup, fun p hp => ?_, iff_of_false hd fun ha => ?_⟩
  case refine_1 => rw [h.mem_iff p hp, List.mem_append, List.mem_singleton, or_iff_left hp]
  case refine_2 => exact hd (ha.right q (List.mem_append_left _ (h.of_mem hq)) ▸ hq)

theorem append (h : Settled default declared packages) (hd : default ∉ packages) (hp : package ∉ packages)
    (hne : package ≠ default) : Settled default (declared ++ [package]) (packages ++ [package]) := by
  refine ⟨List.concat_eq_append ▸ h.nodup.concat hp, fun p hd => ?_, iff_of_false (fun hm => ?_) fun ha => ?_⟩
  case refine_1 => rw [List.mem_append, List.mem_append, h.mem_iff p hd]
  case refine_2 => exact (List.mem_append.mp hm).elim hd fun hm => hne (List.mem_singleton.mp hm).symm
  case refine_3 => exact hne (ha.right package (List.mem_append_right _ (List.mem_singleton_self package)))

theorem settle (h : Settled default declared packages) (package : String) :
    Settled default (declared ++ [package]) (settle default packages package) := by
  rw [Registry.settle]
  split
  case isTrue hp => exact h.again hp
  case isFalse hp =>
    split
    case isTrue he =>
      refine replace ?_
      cases he
      case inl he => exact (he ▸ h).eq_default_of_nil
      case inr he => exact (h.default_mem_iff.mp (he ▸ List.mem_singleton_self default)).right
    case isFalse he =>
      have ⟨hn, hs⟩ := not_or.mp he
      have hd : default ∉ packages := fun hd => hs (h.eq_singleton hd)
      split
      case isTrue hp   => exact hp ▸ h.ignore hn hd
      case isFalse hne => exact h.append hd hp hne

end Settled
end

variable {registry registry' : Registry} {kind kind' : TypeKind} {name : QualifiedName} {key package : String}
variable {id : TypeId}

def packagesOf (registry : Registry) (kind : TypeKind) (key : String) : List String :=
  (registry.active.named kind key).map (·.package)

theorem inPackage?_eq_none :
    registry.active.inPackage? kind key package = none ↔ package ∉ registry.packagesOf kind key := by
  simp [Generation.inPackage?, packagesOf]

theorem packagesOf_eq_nil : registry.active.first? kind key = none ↔ registry.packagesOf kind key = [] := by
  simp [Generation.first?, packagesOf]

theorem only?_of_packagesOf (h : registry.packagesOf kind key = [package]) :
    ∃ e ∈ registry.active.entries, registry.active.only? kind key package = some e.id := by
  obtain ⟨e, he, hp⟩ := List.map_eq_singleton_iff.mp h
  have ⟨hm, _⟩ := Generation.mem_named.mp (he ▸ List.mem_singleton_self e)
  exact ⟨e, hm, Generation.only?_eq_some.mpr ⟨e, he, hp, rfl⟩⟩

theorem Resolved.packagesOf {resolution : Resolution} (hr : Resolved registry kind name (id, resolution, registry'))
    (h : registry.Indexed) : registry'.packagesOf kind name.key
      = settle registry.config.defaultPackage (registry.packagesOf kind name.key) name.package := by
  cases hr
  case reused hf =>
    cases Generation.find?_eq_some.mp hf
    case inl hi =>
      refine (settle_of_mem ?_).symm
      by_contra hn
      simp [inPackage?_eq_none.mpr hn] at hi
    case inr hi =>
      obtain ⟨hi, hd, hf⟩ := hi
      have he : registry.packagesOf kind name.key ≠ [] := fun he => by simp [packagesOf_eq_nil.mpr he] at hf
      rw [hd] at hi ⊢
      exact (settle_default he (inPackage?_eq_none.mp hi)).symm
  case promoted hf hp ho hl =>
    obtain ⟨e, he, hd, rfl⟩ := Generation.only?_eq_some.mp ho
    obtain ⟨_, hk, hy⟩ := Generation.mem_named.mp (he ▸ List.mem_singleton_self e)
    have he' : registry.packagesOf kind name.key = [registry.config.defaultPackage] := by
      rw [Registry.packagesOf, he, List.map_singleton, hd]
    rw [he', settle_singleton hp, Registry.packagesOf, Registry.promote, Generation.named_relocate, he]
    simp [hk, hy]
  case created hn =>
    obtain ⟨hi, hf⟩ := Generation.find?_eq_none.mp hn.unknown
    have hm := inPackage?_eq_none.mp hi
    -- A type that is only known in the default package would have moved.
    have hs : registry.packagesOf kind name.key ≠ [registry.config.defaultPackage] := by
      intro he
      obtain ⟨e, he', ho⟩ := only?_of_packagesOf he
      have hp : name.package ≠ registry.config.defaultPackage := fun hd => hm (he ▸ hd ▸ List.mem_singleton_self _)
      exact hn.unclaimed hp e.id ho (h.live e he')
    rw [settle_new hm (fun hd => packagesOf_eq_nil.mp (hf hd)) hs]
    rw [Registry.packagesOf, newType_eq, Generation.named_insert, if_pos ⟨rfl, rfl⟩, List.map_append]
    rfl

theorem packagesOf_declared (h : registry.Indexed) (kind : TypeKind) (name : QualifiedName) (kind' : TypeKind)
    (key : String) : (Action.declared registry kind name).packagesOf kind' key = if kind' = kind ∧ key = name.key
      then settle registry.config.defaultPackage (registry.packagesOf kind' key) name.package
      else registry.packagesOf kind' key := by
  have hr : Resolved registry kind name (registry.resolve kind name) := resolve_resolved
  split
  case isTrue hk  =>
    obtain ⟨rfl, rfl⟩ := hk
    exact hr.packagesOf h
  case isFalse hk => exact congrArg (List.map (·.package)) (hr.named_of_ne hk)

def declaredPackages (declared : List (TypeKind × QualifiedName)) (kind : TypeKind) (key : String) : List String :=
  (declared.filter fun d => d.1 = kind ∧ d.2.key = key).map (·.2.package)

-- A registry in which just the given declarations have been made.
structure Reflects (registry : Registry) (declared : List (TypeKind × QualifiedName)) : Prop where
  accurate : registry.Accurate
  unfrozen : registry.isFrozen = false
  writable : registry.isFinalized = false
  complete : ∀ t, registry.graph.types.contains t → ∃ e ∈ registry.active.entries, e.id = t
  settled : ∀ kind key,
    Settled registry.config.defaultPackage (declaredPackages declared kind key) (registry.packagesOf kind key)
  named_iff : ∀ p, p ∈ registry.graph.names ↔ p = registry.config.defaultPackage ∨ ∃ d ∈ declared, d.2.package = p
  default : ∃ p, registry.graph.package? registry.defaultPackage = some p
    ∧ p.header.name = registry.config.defaultPackage
  functions : ∀ c, registry.graph.callable? c = none

variable {declared : List (TypeKind × QualifiedName)}

theorem mem_declaredPackages : package ∈ declaredPackages declared kind key ↔
    ∃ name, (kind, name) ∈ declared ∧ name.key = key ∧ name.package = package := by
  simp only [declaredPackages, List.mem_map, List.mem_filter, decide_eq_true_eq]
  constructor
  case mp =>
    rintro ⟨⟨_, name⟩, ⟨hm, rfl, hk⟩, hp⟩
    exact ⟨name, hm, hk, hp⟩
  case mpr =>
    rintro ⟨name, hm, hk, hp⟩
    exact ⟨(kind, name), ⟨hm, rfl, hk⟩, hp⟩

theorem declaredPackages_append :
    declaredPackages (declared ++ [(kind, name)]) kind' key = declaredPackages declared kind' key
      ++ if kind' = kind ∧ key = name.key then [name.package] else [] := by
  rw [declaredPackages, List.filter_append, List.map_append, declaredPackages]
  congr 1
  split
  case isTrue hk  => simp [hk]
  case isFalse hk =>
    have hk' : ¬(kind = kind' ∧ name.key = key) := fun he => hk ⟨he.left.symm, he.right.symm⟩
    simp [hk']

theorem Resolved.exists_entry {resolution : Resolution} {e : Entry}
    (hr : Resolved registry kind name (id, resolution, registry')) (he : e ∈ registry.active.entries) :
    ∃ e' ∈ registry'.active.entries, e'.id = e.id := by
  cases hr
  case reused   => exact ⟨e, he, rfl⟩
  case created  => exact ⟨e, List.mem_append_left _ he, rfl⟩
  case promoted =>
    refine ⟨_, List.mem_map_of_mem he, ?_⟩
    split <;> rfl

namespace Reflects

theorem ofConfig (config : Config) : (Registry.ofConfig config).Reflects [] where
  accurate      := .ofConfig config
  unfrozen      := rfl
  writable      := rfl
  complete t ht := by
    have hc : (Registry.ofConfig config).graph.types = ∅ := @Graph.types_ensurePackage ∅ config.defaultPackage
    simp [hc, Arena.contains] at ht
  settled _ _   := .nil
  named_iff p   := by
    have hn : p ∈ (Registry.ofConfig config).graph.names ↔ p ∈ [] ∨ p = config.defaultPackage :=
      @Graph.mem_names_ensurePackage ∅ config.defaultPackage p .empty
    exact hn.trans (by simp [Registry.ofConfig])
  default       := @Graph.ensurePackage_named ∅ .empty config.defaultPackage
  functions c   := by
    have hc : (Registry.ofConfig config).graph.callables = ∅ := @Graph.callables_ensurePackage ∅ config.defaultPackage
    rw [Graph.callable?, hc]
    rfl

theorem named_of_houses {id : TypeId} (hh : registry.graph.Houses id kind key package) :
    package ∈ registry.graph.names := by
  obtain ⟨_, owner, _, hp, _, _, rfl⟩ := hh
  exact List.mem_map_of_mem (Arena.mem_toList_iff.mpr ⟨_, hp⟩)

theorem adds {resolution : Resolution} (h : registry.Reflects declared)
    (hr : Resolved registry kind name (id, resolution, registry')) :
    registry.graph.Adds name.package id registry'.graph := by
  cases hr
  case promoted hl => exact Graph.relocate_adds h.accurate.ownership hl name.package
  case created     =>
    rw [newType_eq]
    exact Graph.newType_adds h.accurate.ownership kind name.localName name.package
  case reused hf =>
    obtain ⟨e, he, rfl, hp⟩ := Generation.exists_entry_of_find? hf
    have hh := h.accurate.active e (Generation.mem_named.mp he).left
    refine .refl ?_ hh.contains
    by_cases hd : name.package = registry.config.defaultPackage
    case pos => exact (h.named_iff name.package).mpr (.inl hd)
    case neg => exact hp hd ▸ named_of_houses hh

theorem declare (h : registry.Reflects declared) (kind : TypeKind) (hk : name.key = Text.lowercase name.localName) :
    (Action.declared registry kind name).Reflects (declared ++ [(kind, name)]) := by
  have hr : Resolved registry kind name (registry.resolve kind name) := resolve_resolved
  have ha : registry.graph.Adds name.package (registry.resolve kind name).1
    (Action.declared registry kind name).graph := (h.adds hr :)
  have hc : Transitions (fun _ => False) (fun _ => False) registry (Action.declared registry kind name) :=
    Action.declared_changes kind hk
  constructor
  case accurate => exact hc.accurate h.accurate
  case unfrozen => exact Action.isFrozen_declared.trans h.unfrozen
  case writable => exact (congrArg (·.isFinalized) hr.frame).trans h.writable
  case complete =>
    intro t ht
    cases (ha.contains_iff t).mp ht
    case inl ht =>
      obtain ⟨e, he, rfl⟩ := h.complete t ht
      exact hr.exists_entry he
    case inr ht =>
      obtain ⟨e, he, hi, _⟩ := Generation.exists_entry_of_find? (@Action.find?_declared registry kind name)
      exact ⟨e, (Generation.mem_named.mp he).left, hi.trans ht.symm⟩
  case settled =>
    intro kind' key
    rw [packagesOf_declared h.accurate.indexed, declaredPackages_append, hc.config_eq]
    split
    case isTrue  => exact (h.settled kind' key).settle name.package
    case isFalse => exact (List.append_nil _).symm ▸ h.settled kind' key
  case named_iff =>
    intro p
    rw [ha.mem_names_iff, h.named_iff, hc.config_eq]
    simp [or_and_right, exists_or, or_assoc, eq_comm]
  case default =>
    obtain ⟨p, hp, hn⟩ := h.default
    obtain ⟨p', hp', hn'⟩ := hr.graph_changes.package? hp
    have hd : (Action.declared registry kind name).defaultPackage = registry.defaultPackage :=
      congrArg (·.defaultPackage) hr.frame
    exact ⟨p', hd ▸ hp', hc.config_eq ▸ hn'.trans hn⟩
  case functions =>
    intro c
    rw [Graph.callable?, ha.callables]
    exact h.functions c

-- There is nothing that an interface could replace before a type has been asked for.
theorem build (h : registry.Reflects declared) (kind : TypeKind) (name : String) :
    after (Op.run (.build (.type kind) name)) registry = Action.declared registry kind (registry.split name) := by
  have hd := h.declare kind (@split_key registry name)
  have ⟨_, hn⟩ := hd.accurate.indexed.unfrozen hd.unfrozen
  have hp : Action.placeholder? (Action.declared registry kind (registry.split name)) (registry.split name).key
      = none := by
    rw [Option.eq_none_iff_forall_ne_some]
    intro cls hp
    have ⟨hm, _⟩ := placeholder?_eq_some hp
    simp [hn] at hm
  have hb : Action.buildType kind name registry = .ok (registry.resolve kind (registry.split name)).1
      (Action.declared registry kind (registry.split name)) := by
    rw [Action.buildType_apply, if_neg (by simp [h.writable])]
    simp only [Action.reconcile_apply, hp]
    split <;> rfl
  rw [Op.run, after_returns, after, hb]

end Reflects

def declareAll (registry : Registry) (calls : List (TypeKind × String)) : Registry :=
  registry.perform (calls.map fun c => .build (.type c.1) c.2)

theorem Reflects.declareAll (h : registry.Reflects declared) (calls : List (TypeKind × String)) :
    (registry.declareAll calls).Reflects (declared ++ calls.map fun c => (c.1, registry.split c.2)) := by
  induction calls generalizing registry declared
  case nil => exact (List.append_nil declared).symm ▸ h
  case cons c calls hi =>
    have hc : Transitions (fun _ => False) (fun _ => False) registry
      (Action.declared registry c.1 (registry.split c.2)) := Action.declared_changes c.1 (split_key c.2)
    have hd := hi (h.declare c.1 (@split_key registry c.2))
    have he : registry.declareAll (c :: calls) = (Action.declared registry c.1 (registry.split c.2)).declareAll calls :=
      congrArg (perform · _) (h.build c.1 c.2)
    rw [List.append_assoc] at hd
    simp only [hc.split_eq] at hd
    exact he ▸ hd

def Has (registry : Registry) (kind : TypeKind) (key package : String) : Prop :=
  ∃ id, registry.graph.Houses id kind key package

namespace Reflects

theorem exists_entry {id : TypeId} (h : registry.Reflects declared) (hh : registry.graph.Houses id kind key package) :
    ∃ e ∈ registry.active.named kind key, e.id = id ∧ e.package = package := by
  obtain ⟨e, he, rfl⟩ := h.complete id hh.contains
  obtain ⟨hk, hy, hp⟩ := (h.accurate.active e he).unique hh
  exact ⟨e, Generation.mem_named.mpr ⟨he, hk, hy⟩, rfl, hp⟩

theorem has_iff (h : registry.Reflects declared) :
    registry.Has kind key package ↔ package ∈ registry.packagesOf kind key := by
  rw [packagesOf, List.mem_map]
  constructor
  case mp =>
    rintro ⟨id, hh⟩
    obtain ⟨e, he, _, hp⟩ := h.exists_entry hh
    exact ⟨e, he, hp⟩
  case mpr =>
    rintro ⟨e, he, rfl⟩
    obtain ⟨hm, rfl, rfl⟩ := Generation.mem_named.mp he
    exact ⟨e.id, h.accurate.active e hm⟩

theorem unique {id id' : TypeId} (h : registry.Reflects declared) (hh : registry.graph.Houses id kind key package)
    (hh' : registry.graph.Houses id' kind key package) : id = id' := by
  obtain ⟨e, he, rfl, hp⟩ := h.exists_entry hh
  obtain ⟨e', he', rfl, hp'⟩ := h.exists_entry hh'
  exact congrArg Entry.id (List.inj_on_of_nodup_map (h.settled kind key).nodup he he' (hp.trans hp'.symm))

theorem name_ne_default {p : Package} (h : registry.Reflects declared) (hm : p ∈ registry.graph.packages.toList)
    (hn : p.id ≠ registry.defaultPackage) : p.header.name ≠ registry.config.defaultPackage := by
  intro he
  obtain ⟨i, hi⟩ := Arena.mem_toList_iff.mp hm
  obtain ⟨d, hd, hd'⟩ := h.default
  have hw := h.accurate.ownership
  exact hn ((hw.packageIds i p hi).trans (hw.eq_of_name_eq hi hd (he.trans hd'.symm)))

theorem functions_eq_nil {i : PackageId} {p : Package} (h : registry.Reflects declared)
    (hp : registry.graph.package? i = some p) : p.functions = [] := by
  refine List.eq_nil_iff_forall_not_mem.mpr fun f hf => ?_
  obtain ⟨c, hc, _⟩ := Option.bind_eq_some_iff.mp ((h.accurate.ownership.functions.mem_iff hp).mp hf)
  exact absurd (hc.symm.trans (h.functions f)) (Option.some_ne_none c)

theorem mem_packages_iff (h : registry.Reflects declared) :
    package ∈ registry.packages.map (·.header.name) ↔ ∃ kind key, registry.Has kind key package := by
  have hw := h.accurate.ownership
  simp only [packages, List.mem_map, List.mem_filter]
  constructor
  case mpr =>
    rintro ⟨kind, key, id, type, owner, ht, hp, _, _, rfl⟩
    obtain ⟨p, hp', _, hm⟩ := hw.package_of_type ht
    cases hp.symm.trans hp'
    have he : owner.types ≠ [] := List.ne_nil_of_mem hm
    exact ⟨owner, ⟨Arena.mem_toList_iff.mpr ⟨_, hp⟩, by simp [Package.isEmpty, he]⟩, rfl⟩
  case mp =>
    rintro ⟨p, ⟨hm, hv⟩, rfl⟩
    obtain ⟨i, hp⟩ := Arena.mem_toList_iff.mp hm
    by_cases ht : p.types = []
    case neg =>
      obtain ⟨t, ht⟩ := List.exists_mem_of_ne_nil p.types ht
      obtain ⟨kind, key, hh⟩ := hw.exists_houses hp ht
      exact ⟨kind, key, t, hh⟩
    case pos =>
      -- A package without types is not the default package, and so it has been named by a declaration.
      have hd := h.name_ne_default hm (by simpa [Package.isEmpty, ht, h.functions_eq_nil hp] using hv)
      have hm : p.header.name ∈ registry.graph.names := List.mem_map_of_mem hm
      obtain ⟨d, hm, he⟩ := ((h.named_iff p.header.name).mp hm).resolve_left hd
      refine ⟨d.1, d.2.key, h.has_iff.mpr (((h.settled d.1 d.2.key).mem_iff p.header.name hd).mpr ?_)⟩
      exact mem_declaredPackages.mpr ⟨d.2, hm, rfl, he⟩

end Reflects

def DeclaredIn (registry : Registry) (calls : List (TypeKind × String)) (kind : TypeKind) (key package : String) :
    Prop :=
  ∃ name, (kind, name) ∈ calls ∧ (registry.split name).key = key ∧ (registry.split name).package = package

theorem declaredIn_iff {calls : List (TypeKind × String)} : registry.DeclaredIn calls kind key package ↔
    package ∈ declaredPackages (calls.map fun c => (c.1, registry.split c.2)) kind key := by
  rw [mem_declaredPackages, DeclaredIn]
  constructor
  case mp =>
    rintro ⟨name, hm, hk, hp⟩
    exact ⟨registry.split name, List.mem_map_of_mem hm, hk, hp⟩
  case mpr =>
    rintro ⟨_, hm, hk, hp⟩
    obtain ⟨c, hc, he⟩ := List.mem_map.mp hm
    cases he
    exact ⟨c.2, hc, hk, hp⟩

theorem config_declareAll (calls : List (TypeKind × String)) :
    (registry.declareAll calls).config = registry.config := by
  have hs : Steps (fun _ => True) registry (registry.declareAll calls) := .perform fun _ _ => trivial
  have hc : Changes (fun _ => True) registry (registry.declareAll calls) := hs.changes fun _ _ => trivial
  exact hc.config_eq

theorem Reflects.has_declareAll_iff {calls : List (TypeKind × String)} (h : registry.Reflects []) :
    (registry.declareAll calls).Has kind key package ↔ registry.DeclaredIn calls kind key package
      ∧ (package = registry.config.defaultPackage →
        ∀ p, registry.DeclaredIn calls kind key p → p = registry.config.defaultPackage) := by
  have hd := h.declareAll calls
  simp only [declaredIn_iff]
  rw [hd.has_iff, (hd.settled kind key).mem_packages_iff, config_declareAll, List.nil_append]

-- Whatever the order in which types are declared before any of them is asked for, the same types are there in the
-- end: of each kind and name one in each package in which it has been declared, or one in the default package if it
-- has been declared nowhere else. The packages are the same, too.
theorem declaration_order_is_immaterial {config : Config} {start : Registry} (hc : create config = .ok start)
    (calls : List (TypeKind × String)) :
    (∀ kind key package, (start.declareAll calls).Has kind key package ↔ start.DeclaredIn calls kind key package
      ∧ (package = config.defaultPackage → ∀ p, start.DeclaredIn calls kind key p → p = config.defaultPackage))
    ∧ (∀ id id' kind key package, (start.declareAll calls).graph.Houses id kind key package →
      (start.declareAll calls).graph.Houses id' kind key package → id = id')
    ∧ ∀ calls', calls'.Perm calls →
      (∀ kind key package,
        (start.declareAll calls').Has kind key package ↔ (start.declareAll calls).Has kind key package)
      ∧ (∀ package, package ∈ (start.declareAll calls').graph.packages.toList.map (·.header.name) ↔
        package ∈ (start.declareAll calls).graph.packages.toList.map (·.header.name))
      ∧ ∀ package, package ∈ (start.declareAll calls').packages.map (·.header.name) ↔
        package ∈ (start.declareAll calls).packages.map (·.header.name) := by
  obtain rfl := create_eq_ok hc
  have hs := Reflects.ofConfig config
  have hn {calls package} : package ∈ ((ofConfig config).declareAll calls).graph.packages.toList.map (·.header.name) ↔
      package = config.defaultPackage ∨ ∃ c ∈ calls, ((ofConfig config).split c.2).package = package := by
    have hn := (hs.declareAll calls).named_iff package
    rw [Graph.names, config_declareAll] at hn
    exact hn.trans (by simp [ofConfig])
  refine ⟨fun kind key package => hs.has_declareAll_iff, ?unique, fun calls' hp => ?permuted⟩
  case unique   => exact fun id id' kind key package => (hs.declareAll calls).unique
  case permuted =>
    have hd (kind : TypeKind) (key package : String) : (ofConfig config).DeclaredIn calls' kind key package ↔
        (ofConfig config).DeclaredIn calls kind key package := by
      simp only [DeclaredIn, hp.mem_iff]
    have hh (kind : TypeKind) (key package : String) : ((ofConfig config).declareAll calls').Has kind key package ↔
        ((ofConfig config).declareAll calls).Has kind key package := by
      simp only [hs.has_declareAll_iff, hd]
    refine ⟨hh, fun package => ?_, fun package => ?_⟩
    case refine_1 => simp only [hn, hp.mem_iff]
    case refine_2 => simp only [(hs.declareAll _).mem_packages_iff, hh]

-- A class that is declared with and without a package, and an interface of the same name.
theorem declaration_order_is_immaterial_moved :
    let calls := [(.cls, "Shape"), (.cls, "a.Shape"), (.interface, "Shape"), (.cls, "B.SHAPE")]
    ∃ start, create {} = .ok start ∧ (start.declareAll calls).Has .cls "shape" "a"
      ∧ ¬ (start.declareAll calls).Has .cls "shape" "+global"
      ∧ ∀ kind key package,
        (start.declareAll calls.reverse).Has kind key package ↔ (start.declareAll calls).Has kind key package := by
  intro calls
  have hc : create {} = .ok (ofConfig {}) := rfl
  obtain ⟨hh, _, hp⟩ := declaration_order_is_immaterial hc calls
  have hd : (ofConfig {}).DeclaredIn calls .cls "shape" "a" :=
    ⟨"a.Shape", by decide, by decide +kernel, by decide +kernel⟩
  refine ⟨ofConfig {}, hc, (hh .cls "shape" "a").mpr ⟨hd, nofun⟩, fun hg => ?_, (hp _ calls.reverse_perm).left⟩
  exact absurd (((hh .cls "shape" "+global").mp hg).right rfl "a" hd) (by decide)

end Registry
end PackageCoupling
