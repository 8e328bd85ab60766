import PackageCoupling.Proofs.Census
import PackageCoupling.Proofs.Registry.Names
import PackageCoupling.Proofs.Replacement

namespace PackageCoupling

variable {graph : Graph} {old : TypeId} {package : PackageId} {name : String}

-- An interface takes the place of a type of its package, and the report is the same as if that type had been an
-- interface from the start.
theorem Registry.summary_replace (hc : Graph.Changes (fun _ => True) ∅ graph) (hr : graph.Resides old package) :
    ∃ count g₁ erased g₂,
      Graph.Edit.substitute old graph.types.next (graph.addType .interface name package) = .ok count g₁
      ∧ Graph.Edit.eraseType old g₁ = .ok erased g₂
      ∧ ∀ {registry registry' : Registry}, registry.graph = graph.retype old .interface → registry'.graph = g₂ →
        registry'.defaultPackage = registry.defaultPackage →
        (({} : Analyzer).analyze registry).summary = (({} : Analyzer).analyze registry').summary := by
  obtain ⟨decl, ht, rfl, hb⟩ := hr
  have hw := hc.ownership
  obtain ⟨p, hp, _⟩ := hw.package_of_type ht
  have hne : old ≠ graph.types.next := fun he => by simp [Graph.type?, he, Arena.get?_next] at ht
  have hc' : Graph.Changes (fun _ => True) ∅ (graph.addType .interface name decl.package) :=
    hc.tail (.type _ _ ⟨p.header.name, hw.packageIndex.lookup_eq hp⟩)
  have ht' : (graph.addType .interface name decl.package).type? old = some decl :=
    Arena.get?_push.trans ((if_neg hne).trans ht)
  have hn : (graph.addType .interface name decl.package).packageOf? graph.types.next = some decl.package := by
    rw [Graph.packageOf?_addType, if_pos rfl]
  have ho : (graph.addType .interface name decl.package).packageOf? old = some decl.package := by
    rw [Graph.packageOf?, ht', Option.map_some]
  have hl : (graph.addType .interface name decl.package).types.contains graph.types.next :=
    Arena.contains_of_get? (Arena.get?_push.trans (if_pos rfl))
  obtain ⟨count, g, erased, hs, he, hg, hd⟩ := Graph.Edit.replace_ok hc'.reciprocal ht' hl hne
  refine ⟨count, _, erased, _, hs, he, ?_⟩
  intro registry registry' hr hr' hd'
  have hu := Graph.replace_supplants hc'.ownership hc'.mentionsOnce ht' (hn.trans ho.symm) hl hne hg hd
  refine summary_congr ?_ ?_ ?_ (census_replace ht hg hr hr') fun p q => ?_
  case refine_1 =>
    rw [hr]
    exact hw.congr Graph.ties_retype
  case refine_2 =>
    have h₁ := (@Graph.Edit.substitute_changing (fun _ => True) (fun _ => True) old graph.types.next).of_ok hs
    have h₂ := (@Graph.Edit.eraseType_changing (fun _ => True) (fun _ => True) old trivial).of_ok he
    rw [hr']
    exact Graph.Transitions.ownership ((hc'.trans h₁).trans h₂)
  case refine_3 =>
    refine labels_replace hw ht hg ?_ hr' hd'
    rw [hr]
    rfl
  case refine_4 =>
    rw [hr, hr', Graph.packageDepends_retype, hu.packageDepends ⟨decl, ht', rfl, hb⟩ hn hne,
      Graph.packageDepends_addType hc.mentionsIssued]

-- The type need not have been an interface from the start as long as nothing but descriptions came in between.
theorem Registry.summary_described {described : Graph} {package : String} {ops : List Graph.Op}
    (hc : Graph.Changes (fun _ => True) ∅ graph) (hd : ∀ op ∈ ops, op.isDescription)
    (he : (graph.newType .cls name package).2.perform ops = described) :
    graph.types.next ≠ described.types.next ∧ ∃ count g₁ erased g₂,
      Graph.Edit.substitute graph.types.next described.types.next (described.newType .interface name package).2
        = .ok count g₁
      ∧ Graph.Edit.eraseType graph.types.next g₁ = .ok erased g₂
      ∧ ∀ {registry registry' : Registry}, registry.graph = (graph.newType .interface name package).2.perform ops →
        registry'.graph = g₂ → registry'.defaultPackage = registry.defaultPackage →
        (({} : Analyzer).analyze registry).summary = (({} : Analyzer).analyze registry').summary := by
  have hg : Graph.Changes (fun _ => True) (graph.newType .cls name package).2 described := he ▸ Graph.perform_changes hd
  have hr : described.Resides graph.types.next (graph.ensurePackage package).1 :=
    he ▸ Graph.perform_keeps hd _ (Graph.newType_resides name package)
  have hp : described.ensurePackage package = ((graph.ensurePackage package).1, described) := by
    refine Graph.ensurePackage_of_changes (.head ?_ hg)
    rw [Graph.newType_eq]
    exact .type _ _ (Graph.hasPackage_ensurePackage package)
  have hl : graph.types.next ≠ described.types.next := by
    have ⟨decl, ht, _⟩ := hr
    exact fun he => by simp [Graph.type?, he, Arena.get?_next] at ht
  have hi : (graph.newType .interface name package).2.perform ops = described.retype graph.types.next .interface := by
    rw [← he, ← Graph.perform_retype hd, ← Graph.newType_retype]
  rw [hi, Graph.newType_eq, hp]
  exact ⟨hl, summary_replace ((hc.trans (Graph.newType_changes _ _ _)).trans hg) hr⟩

namespace Registry

variable {registry registry' : Registry} {kind : TypeKind} {name : QualifiedName} {key : String} {id : TypeId}

-- A name of the default package under which no class or interface is known.
structure Unknown (registry : Registry) (name : QualifiedName) : Prop where
  default : name.package = registry.config.defaultPackage
  active : ∀ kind ∈ Sought.classOrInterface.kinds, registry.active.named kind name.key = []
  frozen : ∀ kind ∈ Sought.classOrInterface.kinds, registry.frozen.named kind name.key = []

theorem Unknown.freeze (h : registry.Unknown name) : registry.freeze.Unknown name := by
  rw [Registry.freeze]
  split
  case isTrue  => exact h
  case isFalse => exact ⟨h.default, fun _ _ => rfl, h.active⟩

theorem Unknown.lookup? (h : registry.Unknown name) (hk : kind ∈ Sought.classOrInterface.kinds) :
    registry.lookup? kind name = none := by
  simp [Registry.lookup?, Generation.find?, Generation.inPackage?, Generation.first?, h.active kind hk,
    h.frozen kind hk]

theorem resolve_of_named (hn : registry.active.named kind name.key = [])
    (hp : name.package = registry.config.defaultPackage) :
    registry.resolve kind name = (registry.graph.types.next, .created, (registry.newType kind name).2) := by
  simp [resolve, Generation.inPackage?, Generation.first?, hn, hp, newType_eq]

theorem seek_unknown {name : String} (h : registry.Unknown (registry.split name)) :
    registry.seek .classOrInterface name = (registry.graph.types.next, { registry.freeze with
      graph := (registry.graph.newType .cls (registry.split name).localName (registry.split name).package).2
      active := registry.freeze.active.insert .cls (registry.split name).key (registry.split name).package
        registry.graph.types.next
      placeholders := Distinct.add registry.freeze.placeholders registry.graph.types.next }) := by
  have hl : Sought.classOrInterface.kinds.findSome? (registry.freeze.lookup? · (registry.split name)) = none :=
    List.findSome?_eq_none_iff.mpr fun kind hk => h.freeze.lookup? hk
  have hr := resolve_of_named (h.freeze.active .cls (by decide)) h.freeze.default
  rw [seek]
  simp only [split_freeze, hl, Sought.assumed, hr, newType_eq, graph_freeze]

-- A registry in which a class has been made up under a name.
structure Assumes (registry assumed : Registry) (name : QualifiedName) : Prop where
  config : assumed.config = registry.config
  defaultPackage : assumed.defaultPackage = registry.defaultPackage
  isFinalized : assumed.isFinalized = registry.isFinalized
  cls : assumed.active.named .cls name.key = [⟨.cls, name.key, name.package, registry.graph.types.next⟩]
  interface : assumed.active.named .interface name.key = []
  frozen : assumed.frozen.named .cls name.key = []
  placeholder : registry.graph.types.next ∈ assumed.placeholders

theorem Unknown.assumes_seek {name : String} (h : registry.Unknown (registry.split name)) :
    registry.Assumes (registry.seek .classOrInterface name).2 (registry.split name) := by
  have hf : registry.freeze.config = registry.config ∧ registry.freeze.defaultPackage = registry.defaultPackage
      ∧ registry.freeze.isFinalized = registry.isFinalized := by
    rw [Registry.freeze]
    split <;> exact ⟨rfl, rfl, rfl⟩
  rw [seek_unknown h]
  constructor
  case config         => exact hf.left
  case defaultPackage => exact hf.right.left
  case isFinalized    => exact hf.right.right
  case cls            => simp [Generation.named_insert, h.freeze.active .cls (by decide)]
  case interface      => simp [Generation.named_insert, h.freeze.active .interface (by decide)]
  case frozen         => exact h.freeze.frozen .cls (by decide)
  case placeholder    => exact Distinct.mem_add.mpr (.inr rfl)

theorem perform_edit {ops : List Graph.Op} :
    registry.perform (ops.map .edit) = { registry with graph := registry.graph.perform ops } := by
  induction ops generalizing registry
  case nil => rfl
  case cons op ops hi =>
    have he : after (Op.edit op).run registry = { registry with graph := after op.run registry.graph } :=
      Action.after_edit
    exact (congrArg (·.perform (ops.map .edit)) he).trans hi

theorem Assumes.perform {assumed : Registry} {ops : List Graph.Op} (h : registry.Assumes assumed name) :
    registry.Assumes (assumed.perform (ops.map .edit)) name := by
  rw [perform_edit]
  exact ⟨h.config, h.defaultPackage, h.isFinalized, h.cls, h.interface, h.frozen, h.placeholder⟩

namespace Action

theorem declared_of_named (hn : registry.active.named kind name.key = [])
    (hp : name.package = registry.config.defaultPackage) :
    declared registry kind name = { (registry.newType kind name).2 with
      placeholders := Distinct.remove registry.placeholders registry.graph.types.next } := by
  rw [declared, resolve_of_named hn hp, newType_eq]

theorem reconcile_done {cls : TypeId} {count : Nat} {g₁ g₂ : Graph} {erased : TypeDecl}
    (hp : placeholder? registry key = some cls) (hs : Graph.Edit.substitute cls id registry.graph = .ok count g₁)
    (he : Graph.Edit.eraseType cls g₁ = .ok erased g₂) :
    reconcile key id registry = .ok ⟨⟩ { registry with
      graph := g₂
      active := registry.active.remove .cls key cls
      frozen := registry.frozen.remove .cls key cls
      placeholders := Distinct.remove registry.placeholders cls } := by
  simp only [reconcile_apply, hp, hs, he]

theorem buildType_of_named {name : String} (hf : registry.isFinalized = false)
    (hn : registry.active.named .interface (registry.split name).key = [])
    (hp : (registry.split name).package = registry.config.defaultPackage)
    (hr : reconcile (registry.split name).key registry.graph.types.next
      (declared registry .interface (registry.split name)) = .ok ⟨⟩ registry') :
    buildType .interface name registry = .ok registry.graph.types.next registry' := by
  simp only [buildType_apply, hf, resolve_of_named hn hp, hr]
  rfl

theorem buildType_unknown {name : String} (h : registry.Unknown (registry.split name))
    (hf : registry.isFinalized = false) :
    buildType .interface name registry
      = .ok registry.graph.types.next (declared registry .interface (registry.split name)) := by
  have hn := h.active .interface (by decide)
  have hp : placeholder? (declared registry .interface (registry.split name)) (registry.split name).key = none := by
    have ha := h.active .cls (by decide)
    have hf := h.frozen .cls (by decide)
    rw [declared_of_named hn h.default, newType_eq]
    simp [placeholder?, Generation.inPackage?, Generation.named_insert, ha, hf]
  exact buildType_of_named hf hn h.default (by rw [reconcile_apply, hp])

theorem buildType_assumed {assumed : Registry} {name : String} {count : Nat} {g₁ g₂ : Graph} {erased : TypeDecl}
    (h : registry.Assumes assumed (registry.split name)) (hf : registry.isFinalized = false)
    (hd : (registry.split name).package = registry.config.defaultPackage)
    (hl : registry.graph.types.next ≠ assumed.graph.types.next)
    (hs : Graph.Edit.substitute registry.graph.types.next assumed.graph.types.next
      (assumed.graph.newType .interface (registry.split name).localName (registry.split name).package).2 = .ok count g₁)
    (he : Graph.Edit.eraseType registry.graph.types.next g₁ = .ok erased g₂) :
    ∃ reconciled, buildType .interface name assumed = .ok assumed.graph.types.next reconciled
      ∧ reconciled.graph = g₂ ∧ reconciled.defaultPackage = registry.defaultPackage := by
  have hi : assumed.split name = registry.split name := by rw [split, split, h.config]
  rw [← hi] at h hs hd
  rw [← h.config] at hd
  have hr := declared_of_named h.interface hd
  rw [newType_eq] at hr
  have hp : placeholder? (declared assumed .interface (assumed.split name)) (assumed.split name).key
      = some registry.graph.types.next := by
    simp [hr, placeholder?, Generation.inPackage?, Generation.named_insert, h.cls, h.frozen, hd,
      Distinct.mem_remove, h.placeholder, hl]
  have hs' : Graph.Edit.substitute registry.graph.types.next assumed.graph.types.next
      (declared assumed .interface (assumed.split name)).graph = .ok count g₁ := by rwa [hr]
  refine ⟨_, buildType_of_named (h.isFinalized.trans hf) h.interface hd (reconcile_done hp hs' he), rfl, ?_⟩
  simp only [hr, h.defaultPackage]

end Action

-- An interface that is declared and then described, and one that is asked for, described while it is taken for a
-- class and declared only then, give the same report.
theorem forward_reference_makes_no_difference {name : String} {ops : TypeId → List Graph.Op}
    (h : registry.Reachable fun _ => True) (hf : registry.isFinalized = false)
    (hn : registry.Unknown (registry.split name)) (hd : ∀ id, ∀ op ∈ ops id, op.isDescription) :
    ∃ id declared id' reconciled,
      Action.buildType .interface name registry = .ok id declared
      ∧ Action.buildType .interface name ((registry.seek .classOrInterface name).2.perform
          ((ops (registry.seek .classOrInterface name).1).map .edit)) = .ok id' reconciled
      ∧ (({} : Analyzer).analyze (declared.perform ((ops id).map .edit))).summary
        = (({} : Analyzer).analyze reconciled).summary := by
  have hi : (registry.seek .classOrInterface name).1 = registry.graph.types.next := by rw [seek_unknown hn]
  have he : (registry.graph.newType .cls (registry.split name).localName (registry.split name).package).2.perform
      (ops registry.graph.types.next)
        = ((registry.seek .classOrInterface name).2.perform ((ops registry.graph.types.next).map .edit)).graph := by
    rw [perform_edit, seek_unknown hn]
  have ⟨hl, count, g₁, erased, g₂, hs, he, hm⟩ := summary_described h.graph (hd registry.graph.types.next) he
  have ⟨reconciled, hb, hg, hp⟩ := Action.buildType_assumed hn.assumes_seek.perform hf hn.default hl hs he
  refine ⟨_, _, _, reconciled, Action.buildType_unknown hn hf, hi ▸ hb, hm ?_ hg ?_⟩
  all_goals rw [perform_edit, Action.declared_of_named (hn.active .interface (by decide)) hn.default, newType_eq]
  exact hp

-- A type that is used by a function and inherits from another type before it is known to be an interface.
theorem forward_reference_makes_no_difference_used :
    let registry := (ofConfig { builtins := [] }).perform [.edit (.newType .trait "Base" "lib")]
    let ops (id : TypeId) : List Graph.Op := [.newFunction "main" "app", .addUse ⟨0⟩ id, .addInterface id ⟨0⟩,
      .newMethod "draw", .attachMethod id ⟨1⟩, .setReturnType ⟨1⟩ (some id)]
    ∃ id declared id' reconciled,
      Action.buildType .interface "Shape" registry = .ok id declared
      ∧ Action.buildType .interface "Shape" ((registry.seek .classOrInterface "Shape").2.perform
          ((ops (registry.seek .classOrInterface "Shape").1).map .edit)) = .ok id' reconciled
      ∧ (({} : Analyzer).analyze (declared.perform ((ops id).map .edit))).summary
        = (({} : Analyzer).analyze reconciled).summary := by
  intro registry ops
  have h : registry.Reachable fun _ => True := ⟨{ builtins := [] }, _, rfl, .perform fun _ _ => trivial⟩
  have hn : registry.Unknown (registry.split "Shape") := ⟨rfl, fun _ _ => rfl, fun _ _ => rfl⟩
  have hd : ∀ id, ∀ op ∈ ops id, op.isDescription := by simp [ops, Graph.Op.isDescription]
  exact forward_reference_makes_no_difference h rfl hn hd

end Registry
end PackageCoupling
