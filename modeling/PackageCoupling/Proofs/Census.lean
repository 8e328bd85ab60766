import PackageCoupling.Proofs.Graph.Description
import PackageCoupling.Proofs.Report

namespace PackageCoupling

-- What a type is by itself, without what it mentions and what belongs to it.
def TypeDecl.outline (type : TypeDecl) : TypeDecl :=
  { type with
    parent := none
    interfaces := []
    constants := []
    properties := []
    methods := []
    dependencies := []
    children := [] }

namespace Graph

variable {graph graph' g : Graph} {old new : TypeId} {decl : TypeDecl}

def names (graph : Graph) : List String :=
  graph.packages.toList.map (·.header.name)

theorem names_updatePackage {package : PackageId} {f : Package → Package} (hf : ∀ p, (f p).header.name = p.header.name) :
    (graph.updatePackage package f).names = graph.names :=
  Arena.map_toList_modify hf

theorem names_addPackage (name : String) : (graph.addPackage name).names = graph.names ++ [name] := by
  rw [names, addPackage, Arena.toList_push, List.map_append]
  rfl

theorem names_moveType {type : TypeId} {old new : PackageId} : (graph.moveType type old new).names = graph.names := by
  simp only [names, moveType, updatePackage, updateType]
  rw [Arena.map_toList_modify, Arena.map_toList_modify] <;> exact fun _ => rfl

theorem mem_names_ensurePackage {name package : String} (hw : graph.Ownership) :
    package ∈ (graph.ensurePackage name).2.names ↔ package ∈ graph.names ∨ package = name := by
  rw [ensurePackage]
  cases hi : graph.packageIndex.lookup name
  case none =>
    have hn := graph.names_addPackage name
    rw [addPackage] at hn
    simp [hn]
  case some id =>
    obtain ⟨p, hp, rfl⟩ := hw.packageIndex.exists_get? hi
    have hm : p.header.name ∈ graph.names := List.mem_map_of_mem (Arena.mem_toList_iff.mpr ⟨id, hp⟩)
    exact (or_iff_left_of_imp fun he => he ▸ hm).symm

-- A name leads to the same package for good.
theorem Transition.lookup_packageIndex {gone moved : TypeId → Prop} {name : String} {id : PackageId}
    (h : Transition gone moved graph graph') (hi : graph.packageIndex.lookup name = some id) :
    graph'.packageIndex.lookup name = some id := by
  cases h
  case package other hn =>
    have he : name ≠ other := fun he => by simp [he, hn] at hi
    rwa [addPackage, List.lookup_cons, beq_false_of_ne he]
  case attach        => rwa [attach_eq]
  case inherit       => rwa [moveMembers_eq]
  case revise hf _ _ =>
    have hx := congrArg (·.packageIndex) hf
    exact (congrArg (·.lookup name) hx).trans hi
  all_goals exact hi

theorem ensurePackage_of_changes {gone moved : TypeId → Prop} {name : String}
    (h : Transitions gone moved (graph.ensurePackage name).2 graph') :
    graph'.ensurePackage name = ((graph.ensurePackage name).1, graph') := by
  have hi := h.preserve (P := fun g => g.packageIndex.lookup name = some (graph.ensurePackage name).1)
    Transition.lookup_packageIndex (lookup_ensurePackage name)
  rw [Graph.ensurePackage, hi]

theorem Ownership.package_of_type (h : graph.Ownership) (ht : graph.type? old = some decl) :
    ∃ p, graph.package? decl.package = some p ∧ p.id = decl.package ∧ old ∈ p.types := by
  have ho : (graph.types.get? old).bind (some ·.package) = some decl.package := by
    rw [show graph.types.get? old = some decl from ht, Option.bind_some]
  have ⟨p, hp⟩ := h.packagesFull decl.package (h.types.issued ho)
  exact ⟨p, hp, h.packageIds _ p hp, (h.types.mem_iff hp).mpr ho⟩

theorem Ownership.eq_of_name_eq {p p' : PackageId} {owner owner' : Package} (h : graph.Ownership)
    (hp : graph.package? p = some owner) (hp' : graph.package? p' = some owner')
    (he : owner.header.name = owner'.header.name) : p = p' := by
  have hi := h.packageIndex.lookup_eq hp
  rw [he, h.packageIndex.lookup_eq hp'] at hi
  exact Option.some.inj hi.symm

def outlines (graph : Graph) : Arena .type TypeDecl :=
  graph.types.map TypeDecl.outline

theorem outlines_moveMembers : (graph.moveMembers decl old new).outlines = graph.outlines := by
  rw [moveMembers_eq, outlines, Arena.map_modify, Arena.map_modify, outlines]
  all_goals exact fun _ => rfl

theorem outlines_substitutePlaces : (graph.substitutePlaces old new).outlines = graph.outlines :=
  Arena.map_map fun _ => rfl

theorem Rewires.outlines (h : Rewires graph graph') : graph'.outlines = graph.outlines := by
  have hb (g : Graph) : g.bare.outlines = g.outlines := Arena.map_map fun _ => rfl
  rw [← hb, h.bare, hb]

theorem Rewires.packages (h : Rewires graph graph') : graph'.packages = graph.packages := by
  have hb := congrArg Graph.packages h.bare
  exact hb

section

variable {kind : TypeKind} {name : String} {package : PackageId} {P : TypeDecl → Bool}

theorem countP_retype (ho : graph.type? old = some decl) :
    (graph.retype old kind).types.toList.countP P + (if P decl then 1 else 0)
      = graph.types.toList.countP P + if P { decl with kind } then 1 else 0 :=
  Arena.countP_modify ho

theorem countP_replace (hP : ∀ t, P t.outline = P t) (ho : graph.type? old = some decl)
    (hg : Rewires ((graph.addType kind name package).substitutePlaces old graph.types.next) g) :
    ((g.moveMembers decl old graph.types.next).removeType old decl.package).types.toList.countP P
        + (if P decl then 1 else 0)
      = graph.types.toList.countP P
        + if P { id := graph.types.next, kind, header := { name := name }, package } then 1 else 0 := by
  have he : (g.moveMembers decl old graph.types.next).outlines = (graph.addType kind name package).outlines := by
    rw [outlines_moveMembers, hg.outlines, outlines_substitutePlaces]
  have hn : old ≠ graph.types.next := fun he => by simp [type?, he, Arena.get?_next] at ho
  have ht : ((g.moveMembers decl old graph.types.next).types.get? old).map TypeDecl.outline = some decl.outline := by
    have ht := congrArg (·.get? old) he
    rw [type?] at ho
    simpa [outlines, addType, Arena.get?_push, hn, ho] using ht
  obtain ⟨t, ht, hd⟩ := Option.map_eq_some_iff.mp ht
  have hd : P decl = P t := by rw [← hP, ← hd, hP]
  calc
    _ = ((g.moveMembers decl old graph.types.next).types.erase old).toList.countP P + if P t then 1 else 0 := by
      rw [hd]
      rfl
    _ = (g.moveMembers decl old graph.types.next).types.toList.countP P := Arena.countP_erase ht
    _ = (graph.addType kind name package).types.toList.countP P := Arena.countP_congr he hP
    _ = _ := Arena.countP_push

end

end Graph

namespace Registry

variable {registry registry' : Registry} {graph g : Graph} {old : TypeId} {decl : TypeDecl} {name : String}

theorem census_replace (ho : graph.type? old = some decl)
    (hg : Graph.Rewires ((graph.addType .interface name decl.package).substitutePlaces old graph.types.next) g)
    (hr : registry.graph = graph.retype old .interface)
    (hr' : registry'.graph = (g.moveMembers decl old graph.types.next).removeType old decl.package) :
    registry.census = registry'.census := by
  have hc {P : TypeDecl → Bool} (hP : ∀ t, P t.outline = P t)
      (he : P { decl with kind := .interface }
        = P { id := graph.types.next, kind := .interface, header := { name := name }, package := decl.package }) :
      registry.graph.types.toList.countP P = registry'.graph.types.toList.countP P := by
    have h₁ := @Graph.countP_retype graph old decl .interface P ho
    have h₂ := Graph.countP_replace hP ho hg
    rw [he] at h₁
    rw [hr, hr']
    exact Nat.add_right_cancel (h₁.trans h₂.symm)
  funext package
  rw [census, census, hc (fun _ => rfl) rfl, hc (fun _ => rfl) rfl]

theorem labels_congr {package : PackageId} {p : Package} {f : Package → Package}
    (hd : registry'.defaultPackage = registry.defaultPackage) (hp : registry.graph.package? package = some p)
    (hr' : registry'.graph.packages = registry.graph.packages.modify package f)
    (hf : (f p).id = p.id ∧ (f p).header = p.header) (he : p.isEmpty = false) (he' : (f p).isEmpty = false) :
    registry.labels = registry'.labels := by
  have ⟨l₁, l₂, hl, _, hm⟩ := Arena.exists_toList hp
  simp only [labels, packages, hr', hm, hl, hd, List.filter_append, List.filter_cons, he, he', hf, List.map_append]
  simp [hf]

theorem labels_replace {kind : TypeKind} (hw : graph.Ownership) (ho : graph.type? old = some decl)
    (hg : Graph.Rewires ((graph.addType kind name decl.package).substitutePlaces old graph.types.next) g)
    (hr : registry.graph.packages = graph.packages)
    (hr' : registry'.graph = (g.moveMembers decl old graph.types.next).removeType old decl.package)
    (hd : registry'.defaultPackage = registry.defaultPackage) : registry.labels = registry'.labels := by
  have ⟨p, hp, _, hm⟩ := hw.package_of_type ho
  have hn : old ≠ graph.types.next := fun he => by simp [Graph.type?, he, Arena.get?_next] at ho
  have hs : registry'.graph.packages = registry.graph.packages.modify decl.package fun p =>
      { p with types := Distinct.remove (p.types ++ [graph.types.next]) old } := by
    rw [hr', hr, Graph.moveMembers_eq]
    simp only [Graph.removeType, Graph.updatePackage, hg.packages, Graph.substitutePlaces, Graph.addType,
      Arena.modify_modify]
  have hf : graph.types.next ∈ Distinct.remove (p.types ++ [graph.types.next]) old := by
    simp [Distinct.mem_remove, hn.symm]
  have hp' : registry.graph.package? decl.package = some p := by rwa [Graph.package?, hr]
  refine labels_congr hd hp' hs ⟨rfl, rfl⟩ ?_ ?_
  case refine_1 => simp [Package.isEmpty, List.ne_nil_of_mem hm]
  case refine_2 => simp [Package.isEmpty, List.ne_nil_of_mem hf]

end Registry
end PackageCoupling
