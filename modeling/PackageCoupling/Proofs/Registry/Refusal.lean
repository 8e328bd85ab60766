import PackageCoupling.Proofs.Registry.Liveness

namespace PackageCoupling.Registry

variable {registry registry' start : Registry} {kind : TypeKind} {name : QualifiedName} {key : String}
variable {cls interface : TypeId} {gone : TypeId → Prop} {declaration : Declaration} {text : String}

namespace Action

theorem declared_eq_self_iff : declared registry kind name = registry ↔
    ∃ id, registry.activeType? kind name = some id ∧ id ∉ registry.placeholders := by
  have hr : Resolved registry kind name (registry.resolve kind name) := resolve_resolved
  constructor
  case mp =>
    intro he
    have hf : (declared registry kind name).activeType? kind name = some (registry.resolve kind name).1 :=
      find?_declared kind name
    have hp : (registry.resolve kind name).1 ∉ (declared registry kind name).placeholders := by
      simp [mem_placeholders_declared]
    rw [he] at hf hp
    exact ⟨_, hf, hp⟩
  case mpr =>
    rintro ⟨id, hi, hp⟩
    rw [declared]
    generalize registry.resolve kind name = resolved at hr ⊢
    cases hr
    case promoted hk _ _ _ => exact absurd (hk.symm.trans hi) (by simp)
    case created hn        => exact absurd (hn.unknown.symm.trans hi) (by simp)
    case reused hk =>
      cases hk.symm.trans hi
      have hn : Distinct.remove registry.placeholders id = registry.placeholders := by
        rw [Distinct.remove, List.filter_eq_self]
        intro t ht
        simpa using fun he : t = id => hp (he ▸ ht)
      rw [hn]

theorem placeholder?_congr (hd : registry'.config = registry.config)
    (hf : registry'.frozen.named .cls key = registry.frozen.named .cls key)
    (ha : registry'.active.named .cls key = registry.active.named .cls key)
    (hp : ∀ e, e ∈ registry.frozen.named .cls key ∨ e ∈ registry.active.named .cls key →
      (e.id ∈ registry'.placeholders ↔ e.id ∈ registry.placeholders)) :
    placeholder? registry' key = placeholder? registry key := by
  have hg {generation : Generation} (hm : ∀ e ∈ generation.named .cls key,
      (e.id ∈ registry'.placeholders ↔ e.id ∈ registry.placeholders)) :
      (generation.inPackage? .cls key registry.config.defaultPackage).filter (· ∈ registry'.placeholders)
        = (generation.inPackage? .cls key registry.config.defaultPackage).filter (· ∈ registry.placeholders) := by
    rw [Generation.inPackage?]
    cases he : (generation.named .cls key).find? (·.package == registry.config.defaultPackage)
    case none   => rfl
    case some e => simp [Option.filter, hm e (List.mem_of_find?_eq_some he)]
  have hi {generation generation' : Generation} (hn : generation'.named .cls key = generation.named .cls key) :
      generation'.inPackage? .cls key = generation.inPackage? .cls key := by
    funext package
    rw [Generation.inPackage?, Generation.inPackage?, hn]
  simp only [placeholder?, List.findSome?_cons, List.findSome?_nil, hd, hi hf, hi ha]
  rw [hg fun e he => hp e (.inl he), hg fun e he => hp e (.inr he)]

-- Nothing is replaced half-way. Either both the interface and the class are there, or the graph does not change.

theorem reconcile_ok (h : registry.graph.Reciprocal)
    (hl : ∀ cls ∈ placeholder? registry key,
      registry.graph.types.contains interface ∧ registry.graph.types.contains cls) :
    ∃ r, reconcile key interface registry = .ok ⟨⟩ r := by
  rw [reconcile_apply]
  cases hp : placeholder? registry key
  case none => exact ⟨registry, rfl⟩
  case some cls =>
    obtain ⟨hi, hc⟩ := hl cls hp
    have hv := @Graph.Edit.substitute_verdict registry.graph (fun _ => True) h trivial cls interface
    obtain ⟨count, g, hs⟩ := hv.ok_of_contains (by simp [Graph.contains_typeRef, hi, hc])
    have hg : Graph.Changes (fun _ => False) registry.graph g := (Graph.Edit.substitute_changing cls interface).of_ok hs
    have hr : g.Reciprocal := hg.preserve Graph.Transition.reciprocal h
    obtain ⟨erased, g', he⟩ := Graph.Edit.eraseType_of_contains hr (hg.lifetime.stays hc fun h => h)
    simp only [hs, he]
    exact ⟨_, rfl⟩

theorem reconcile_error (h : registry.graph.Reciprocal) (hp : placeholder? registry key = some cls)
    (hl : ¬ (registry.graph.types.contains interface ∧ registry.graph.types.contains cls)) :
    ∃ fault, reconcile key interface registry = .error fault registry := by
  have hv := @Graph.Edit.substitute_verdict registry.graph (· = registry.graph) h rfl cls interface
  have hn : ∃ node ∈ [interface.ref, cls.ref], ¬ registry.graph.contains node := by
    simpa [Graph.contains_typeRef, imp_iff_or_not, or_comm] using hl
  obtain ⟨fault, g, hs⟩ := hv.error_iff.mpr hn
  obtain rfl := (hv.of_error hs).left
  rw [reconcile_apply, hp]
  simp only [hs]
  exact ⟨fault, rfl⟩

end Action

-- An interface is to take the place of a class, but once the name of the interface has been resolved, one of the two
-- turns out not to be there.
def Lacks (registry : Registry) (declaration : Declaration) (text : String) : Prop :=
  declaration = .type .interface ∧ ∃ cls, Action.placeholder? registry (registry.split text).key = some cls
    ∧ ¬ ((Action.declared registry .interface (registry.split text)).graph.types.contains
        (registry.resolve .interface (registry.split text)).1
      ∧ (Action.declared registry .interface (registry.split text)).graph.types.contains cls)

inductive Verdict (registry : Registry) (declaration : Declaration) (text : String) :
    EStateM.Result Fault Registry Graph.Outcome → Prop
  | closed (hf : registry.isFinalized) :
    Verdict registry declaration text (.error (.finalized declaration text) registry)
  | lacking {fault} (hf : registry.isFinalized = false) (hl : registry.Lacks declaration text) :
    Verdict registry declaration text (.error fault (Action.declared registry .interface (registry.split text)))
  | done {outcome r} (hf : registry.isFinalized = false) (hl : ¬ registry.Lacks declaration text) :
    Verdict registry declaration text (.ok outcome r)

-- No type goes by the same id as a class that may have to make way for it.
theorem Accounted.placeholder?_declared (h : registry.Accounted gone) (hk : name.key = Text.lowercase name.localName) :
    Action.placeholder? (Action.declared registry .interface name) key = Action.placeholder? registry key := by
  have hr : Resolved registry .interface name (registry.resolve .interface name) := resolve_resolved
  have hc : Changes gone registry (Action.declared registry .interface name) := Action.declared_changes .interface hk
  have hd := hc.accounted h
  have hf : (Action.declared registry .interface name).frozen = registry.frozen := congrArg (·.frozen) hr.frame
  have ha : (Action.declared registry .interface name).active.named .cls key = registry.active.named .cls key :=
    hr.named_of_ne (by simp)
  refine Action.placeholder?_congr hc.config_eq (hf ▸ rfl) ha fun e he => ?_
  rw [Action.mem_placeholders_declared, and_iff_left]
  obtain ⟨e', he', hi', _⟩ := Generation.exists_entry_of_find? (@Action.find?_declared registry .interface name)
  obtain ⟨hm', hk', _⟩ := Generation.mem_named.mp he'
  rw [← hi']
  cases he
  case inl he =>
    -- What is frozen is older.
    obtain ⟨date, hd⟩ := hd.divided
    have ho := hd.frozen e (hf ▸ (Generation.mem_named.mp he).left)
    exact fun hi => Nat.not_lt_of_le (hd.active e' hm').left (hi ▸ ho)
  case inr he =>
    obtain ⟨hm, hk, _⟩ := Generation.mem_named.mp (ha ▸ he)
    intro hi
    have := List.inj_on_of_nodup_map hd.distinct hm hm' hi
    simp [this, hk'] at hk

theorem Action.buildType_of_lacks (h : registry.Accounted gone) (hg : registry.graph.Reciprocal)
    (hf : registry.isFinalized = false) (hl : registry.Lacks (.type .interface) text) :
    ∃ fault, buildType .interface text registry
      = .error fault (declared registry .interface (registry.split text)) := by
  obtain ⟨_, cls, hp, hn⟩ := hl
  have hr : (declared registry .interface (registry.split text)).graph.Reciprocal :=
    declared_graph.preserve Graph.Transition.reciprocal hg
  obtain ⟨fault, he⟩ := reconcile_error hr ((h.placeholder?_declared (split_key text)).trans hp) hn
  refine ⟨fault, ?_⟩
  rw [buildType_apply, if_neg (by simp [hf])]
  simp only [if_true, he]

theorem Action.buildType_of_not_lacks (h : registry.Accounted gone) (hg : registry.graph.Reciprocal)
    (hf : registry.isFinalized = false) (hl : ¬ registry.Lacks (.type kind) text) :
    ∃ id r, buildType kind text registry = .ok id r := by
  rw [buildType_apply, if_neg (by simp [hf])]
  by_cases hk : kind = .interface
  case neg =>
    simp only [if_neg hk]
    exact ⟨_, _, rfl⟩
  case pos =>
    subst hk
    have hr : (declared registry .interface (registry.split text)).graph.Reciprocal :=
      declared_graph.preserve Graph.Transition.reciprocal hg
    have hp : placeholder? (declared registry .interface (registry.split text)) (registry.split text).key
        = placeholder? registry (registry.split text).key := h.placeholder?_declared (split_key text)
    obtain ⟨r, ho⟩ := reconcile_ok hr fun cls hc => by_contra fun hn => hl ⟨rfl, cls, hp ▸ hc, hn⟩
    simp only [if_true, ho]
    exact ⟨_, _, rfl⟩

theorem Op.build_of_isFinalized (hf : registry.isFinalized) (declaration : Declaration) (text : String) :
    Op.run (.build declaration text) registry = .error (.finalized declaration text) registry := by
  have hw (declaration : Declaration) :
      Action.requireWritable declaration text registry = .error (.finalized declaration text) registry := by
    rw [Action.requireWritable_apply, if_pos hf]
  cases declaration <;> rw [Op.run, bind_apply]
  case package  => rw [Action.buildPackage, bind_apply, hw]
  case type     => rw [Action.buildType, bind_apply, hw]
  case function => rw [Action.buildFunction, bind_apply, hw]
  case method   => rw [Action.buildMethod, bind_apply, hw]

theorem Op.build_verdict (h : registry.Accounted gone) (hg : registry.graph.Reciprocal) (declaration : Declaration)
    (text : String) : Verdict registry declaration text (Op.run (.build declaration text) registry) := by
  by_cases hf : registry.isFinalized
  case pos =>
    rw [Op.build_of_isFinalized hf]
    exact .closed hf
  case neg =>
    have hw (declaration : Declaration) : Action.requireWritable declaration text registry = .ok ⟨⟩ registry := by
      rw [Action.requireWritable_apply, if_neg hf]
    replace hf : registry.isFinalized = false := by simpa using hf
    cases declaration <;> rw [Op.run, bind_apply]
    case type kind =>
      by_cases hl : registry.Lacks (.type kind) text
      case pos =>
        obtain rfl := Declaration.type.inj hl.left
        obtain ⟨fault, he⟩ := Action.buildType_of_lacks h hg hf hl
        rw [he]
        exact .lacking hf hl
      case neg =>
        obtain ⟨id, r, ho⟩ := Action.buildType_of_not_lacks h hg hf hl
        rw [ho]
        exact .done hf hl
    case package =>
      rw [Action.buildPackage, bind_apply, hw]
      exact .done hf (by simp [Lacks])
    case function =>
      rw [Action.buildFunction, bind_apply, hw]
      exact .done hf (by simp [Lacks])
    case method =>
      rw [Action.buildMethod, bind_apply, hw]
      exact .done hf (by simp [Lacks])

namespace Verdict

variable {result : EStateM.Result Fault Registry Graph.Outcome}

theorem error_iff (h : Verdict registry declaration text result) :
    (∃ fault r, result = .error fault r) ↔ registry.isFinalized ∨ registry.Lacks declaration text := by
  cases h
  case closed hf     => simp [hf]
  case lacking hf hl => simp [hl]
  case done hf hl    => simp [hf, hl]

theorem of_error {fault : Fault} {r : Registry} (h : Verdict registry declaration text result)
    (he : result = .error fault r) : registry.isFinalized ∧ r = registry
      ∨ registry.isFinalized = false ∧ r = Action.declared registry .interface (registry.split text) := by
  cases h <;> cases he
  case closed hf    => exact .inl ⟨hf, rfl⟩
  case lacking hf _ => exact .inr ⟨hf, rfl⟩

theorem ok_iff (h : Verdict registry declaration text result) (hl : ¬ registry.Lacks declaration text) :
    (∃ outcome r, result = .ok outcome r) ↔ registry.isFinalized = false := by
  cases h
  case closed hf     => simp [hf]
  case lacking hf hn => exact absurd hn hl
  case done hf _     => simp [hf]

end Verdict

theorem Accounted.of_lacks (h : registry.Accounted gone) (hl : registry.Lacks declaration text) :
    declaration = .type .interface ∧ ∃ cls, Action.placeholder? registry (registry.split text).key = some cls
      ∧ (gone cls ∨ gone (registry.resolve .interface (registry.split text)).1) := by
  obtain ⟨hd, cls, hp, hn⟩ := hl
  have hc : Changes gone registry (Action.declared registry .interface (registry.split text)) :=
    Action.declared_changes .interface (split_key text)
  have ha := hc.accounted h
  refine ⟨hd, cls, hp, ?_⟩
  cases ha.contains_of_activeType? (Action.find?_declared .interface (registry.split text))
  case inl hi => exact .inr hi
  case inr hi =>
    obtain ⟨e, he, rfl⟩ := ha.exists_placeholder ((h.placeholder?_declared (split_key text)).trans hp)
    exact .inl ((ha.active e (Generation.mem_named.mp he).left).resolve_right fun hl => hn ⟨hi, hl⟩)

section

variable {config : Config} {ops : List Op}

theorem lacks_iff (hc : create config = .ok start) (declaration : Declaration) (text : String) :
    (start.perform ops).Lacks declaration text ↔ declaration = .type .interface
      ∧ ∃ cls, Action.placeholder? (start.perform ops) ((start.perform ops).split text).key = some cls
        ∧ (Erased start ops cls
          ∨ Erased start ops ((start.perform ops).resolve .interface ((start.perform ops).split text)).1) := by
  refine ⟨(accounted_perform hc ops).of_lacks, ?_⟩
  rintro ⟨hd, cls, hp, he⟩
  have hk : Changes (fun _ => False) (start.perform ops)
      (Action.declared (start.perform ops) .interface ((start.perform ops).split text)) :=
    Action.declared_changes .interface (split_key text)
  refine ⟨hd, cls, hp, ?_⟩
  rintro ⟨hi, hl⟩
  cases he
  case inl he => exact he.not_contains hc hk hl
  case inr he => exact he.not_contains hc hk hi

-- Whatever is done to a registry and to its graph, a declaration is refused if the registry has been finalized, and
-- otherwise only if it is that of an interface that is to take the place of a class, where one of the two has been
-- erased directly before. It is then refused too late: the name of the interface has been resolved. Nothing has changed
-- just if it had been known by then, and not only been asked for.
theorem refused_declarations_only_resolve_names (hc : create config = .ok start) (ops : List Op)
    (declaration : Declaration) (name : String) :
    let registry := start.perform ops
    let split := registry.split name
    ((∃ fault r, Op.run (.build declaration name) registry = .error fault r) ↔
      registry.isFinalized ∨ declaration = .type .interface
        ∧ ∃ cls, Action.placeholder? registry split.key = some cls
          ∧ (Erased start ops cls ∨ Erased start ops (registry.resolve .interface split).1))
    ∧ ∀ fault r, Op.run (.build declaration name) registry = .error fault r →
      (registry.isFinalized = false → r = Action.declared registry .interface split)
      ∧ (r = registry ↔
        registry.isFinalized ∨ ∃ id, registry.activeType? .interface split = some id ∧ id ∉ registry.placeholders) := by
  intro registry split
  have hr : registry.Reachable fun _ => True := ⟨config, start, hc, .perform fun _ _ => trivial⟩
  have hv := Op.build_verdict (accounted_perform hc ops) hr.graph.reciprocal declaration name
  refine ⟨hv.error_iff.trans (or_congr_right (lacks_iff hc declaration name)), ?_⟩
  intro fault r he
  rw [← Action.declared_eq_self_iff]
  cases hv.of_error he
  case inl h =>
    obtain ⟨hf, rfl⟩ := h
    simp [hf, registry]
  case inr h =>
    obtain ⟨hf, rfl⟩ := h
    simp [hf, registry, split]

-- An interface that is known already is not touched by a declaration that cannot replace a class.
theorem refused_declarations_only_resolve_names_known :
    let ops : List Op := [.seek (.type .cls) "Shape", .build (.type .interface) "Shape", .seek (.type .cls) "Shape",
      .edit (.eraseType ⟨2⟩)]
    let registry := (ofConfig {}).perform ops
    create {} = .ok (ofConfig {})
    ∧ ∃ fault, Op.run (.build (.type .interface) "Shape") registry = .error fault registry := by
  intro ops registry
  have hc : create {} = .ok (ofConfig {}) := rfl
  have hp : Action.placeholder? registry (registry.split "Shape").key = some ⟨2⟩
      ∧ ((ofConfig {}).perform (ops.take 3)).graph.types.contains ⟨2⟩
      ∧ registry.activeType? .interface (registry.split "Shape") = some ⟨1⟩ ∧ ⟨1⟩ ∉ registry.placeholders := by
    decide +kernel
  obtain ⟨hp, hl, hi, hn⟩ := hp
  obtain ⟨hr, hk⟩ := refused_declarations_only_resolve_names hc ops (.type .interface) "Shape"
  obtain ⟨fault, r, he⟩ := hr.mpr (.inr ⟨rfl, ⟨2⟩, hp, .inl ⟨ops.take 3, [], rfl, hl⟩⟩)
  have hu : r = registry := (hk fault r he).right.mpr (.inr ⟨⟨1⟩, hi, hn⟩)
  exact ⟨hc, fault, he.trans (congrArg _ hu)⟩

-- An interface that could not take the place of a class is there nevertheless.
theorem refused_interface_is_created :
    let registry := (ofConfig {}).perform [.seek .classOrInterface "Shape", .edit (.eraseType ⟨0⟩)]
    ∃ fault r, Op.run (.build (.type .interface) "Shape") registry = .error fault r
      ∧ registry.graph.types.contains ⟨1⟩ = false ∧ r.graph.types.contains ⟨1⟩
      ∧ registry.activeType? .interface (registry.split "Shape") = none
      ∧ r.activeType? .interface (r.split "Shape") = some ⟨1⟩ := by
  intro registry
  have hk : (match Op.run (.build (.type .interface) "Shape") registry with
      | .ok _ _    => false
      | .error _ r => !registry.graph.types.contains ⟨1⟩ && r.graph.types.contains ⟨1⟩
        && registry.activeType? .interface (registry.split "Shape") = none
        && r.activeType? .interface (r.split "Shape") = some ⟨1⟩) = true := by
    decide +kernel
  split at hk
  case h_1            => exact absurd hk Bool.false_ne_true
  case h_2 fault r he =>
    simp only [Bool.and_eq_true, Bool.not_eq_true', decide_eq_true_eq] at hk
    obtain ⟨⟨⟨hn, hl⟩, ha⟩, hi⟩ := hk
    exact ⟨fault, r, he, hn, hl, ha, hi⟩

end

theorem Reachable.accounted (h : registry.Reachable Op.KeepsTypes) : registry.Accounted fun _ => False := by
  obtain ⟨config, hc⟩ : ∃ config, Changes (fun _ => False) (ofConfig config) registry :=
    h.changes fun type ht => ht type rfl
  exact hc.accounted (.ofConfig config)

-- As long as no type is erased directly, everything can be declared until the registry is finalized. A class that is to
-- make way for an interface can always be replaced and erased.
theorem declarations_succeed_until_finalized (h : registry.Reachable Op.KeepsTypes) (declaration : Declaration)
    (name : String) :
    ((∃ outcome r, Op.run (.build declaration name) registry = .ok outcome r) ↔ registry.isFinalized = false)
    ∧ ∀ cls, Action.placeholder? (Action.declared registry .interface (registry.split name)) (registry.split name).key
        = some cls →
      ∃ count graph₁ erased graph,
        Graph.Edit.substitute cls (registry.resolve .interface (registry.split name)).1
          (Action.declared registry .interface (registry.split name)).graph = .ok count graph₁
        ∧ Graph.Edit.eraseType cls graph₁ = .ok erased graph := by
  refine ⟨?succeeds, ?replaces⟩
  case succeeds =>
    have hv := Op.build_verdict h.accounted h.graph.reciprocal declaration name
    refine hv.ok_iff fun hl => ?_
    obtain ⟨_, _, _, hg⟩ := h.accounted.of_lacks hl
    exact hg.elim id id
  case replaces =>
    intro cls hp
    have hc : Changes (fun _ => False) registry (Action.declared registry .interface (registry.split name)) :=
      Action.declared_changes .interface (split_key name)
    obtain ⟨count, graph₁, erased, graph, hs, he, _⟩ :=
      (hc.intact h.intact).replace (Action.find?_declared .interface (registry.split name)) hp
    exact ⟨count, graph₁, erased, graph, hs, he⟩

-- A class that is referred to from many places makes way for an interface.
theorem declarations_succeed_until_finalized_replacing :
    let registry := (ofConfig {}).perform [.seek .classOrInterface "Shape", .build (.type .cls) "a.Circle",
      .edit (.setParent ⟨1⟩ ⟨0⟩), .edit (.connect ⟨1⟩ ⟨0⟩), .build .method "scaled",
      .edit (.setReturnType ⟨0⟩ (some ⟨0⟩))]
    registry.isFinalized = false ∧ Action.placeholder? registry (registry.split "Shape").key = some ⟨0⟩
      ∧ ∃ outcome r, Op.run (.build (.type .interface) "Shape") registry = .ok outcome r := by
  intro registry
  have h : registry.Reachable Op.KeepsTypes := by
    refine ⟨{}, ofConfig {}, rfl, .perform ?_⟩
    simp [Op.KeepsTypes]
  obtain ⟨hf, hp⟩ : registry.isFinalized = false
      ∧ Action.placeholder? registry (registry.split "Shape").key = some ⟨0⟩ := by
    decide +kernel
  exact ⟨hf, hp, (declarations_succeed_until_finalized h (.type .interface) "Shape").left.mpr hf⟩

end PackageCoupling.Registry
