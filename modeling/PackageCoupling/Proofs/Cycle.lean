import Mathlib.Data.List.Chain
import Mathlib.Logic.Relation
import PackageCoupling.Metrics.Cycle
import PackageCoupling.Proofs.Analyzer

namespace PackageCoupling.PackageEdges

variable {edges : PackageEdges} {path finished finished' packages cycle : List PackageId} {p q : PackageId}

def Edge (edges : PackageEdges) (p q : PackageId) : Prop :=
  q ∈ (edges.get? p).getD ∅

abbrev Leads (edges : PackageEdges) : PackageId → PackageId → Prop :=
  Relation.ReflTransGen edges.Edge

def OnCycle (edges : PackageEdges) (p : PackageId) : Prop :=
  Relation.TransGen edges.Edge p p

-- A cycle goes from one of its packages round to the same one and comes by no package twice.
def IsCycle (edges : PackageEdges) (cycle : List PackageId) : Prop :=
  ∃ p rest, cycle = p :: (rest ++ [p]) ∧ (p :: rest).Nodup ∧ cycle.IsChain edges.Edge

namespace IsCycle

theorem onCycle (h : edges.IsCycle cycle) (hq : q ∈ cycle) : edges.OnCycle q := by
  obtain ⟨p, rest, rfl, _, hc⟩ := h
  have ht : (p :: (rest ++ [p])).Pairwise (Relation.TransGen edges.Edge) :=
    List.isChain_iff_pairwise.mp (hc.imp fun _ _ => .single)
  rw [List.pairwise_cons, List.pairwise_append] at ht
  obtain ⟨hp, _, _, hr⟩ := ht
  have hl : p ∈ rest ++ [p] := by simp
  simp only [List.mem_cons, List.mem_append, List.not_mem_nil, or_false] at hq
  rcases hq with rfl | hq | rfl
  case inl     => exact hp q hl
  case inr.inl => exact (hr q hq p (by simp)).trans (hp q (List.mem_append_left _ hq))
  case inr.inr => exact hp q hl

theorem exists_edge (h : edges.IsCycle cycle) (hq : q ∈ cycle) : ∃ r, edges.Edge q r := by
  obtain ⟨r, hr, _⟩ := Relation.TransGen.head'_iff.mp (h.onCycle hq)
  exact ⟨r, hr⟩

theorem of_path (hn : path.Nodup) (hc : (path ++ [p]).IsChain edges.Edge) (hp : p ∈ path) :
    edges.IsCycle (path.dropWhile (· ≠ p) ++ [p]) := by
  obtain ⟨before, since, rfl, hb⟩ := List.eq_append_cons_of_mem hp
  have hd : (before ++ p :: since).dropWhile (· ≠ p) = p :: since := by
    rw [List.dropWhile_append_of_pos (by grind), List.dropWhile_cons_of_neg (by simp)]
  rw [hd]
  rw [List.append_assoc] at hc
  exact ⟨p, since, rfl, hn.of_append_right, hc.right_of_append⟩

end IsCycle

-- No package of a list is on a cycle, and one does not get out of the list.
def Settled (edges : PackageEdges) (finished : List PackageId) : Prop :=
  ∀ p ∈ finished, ¬ edges.OnCycle p ∧ ∀ q, edges.Edge p q → q ∈ finished

namespace Settled

theorem nil : edges.Settled [] := by
  simp [Settled]

theorem leads (h : edges.Settled finished) (hp : p ∈ finished) (hl : edges.Leads p q) : q ∈ finished := by
  induction hl
  case refl         => exact hp
  case tail _ he hi => exact (h _ hi).right _ he

-- If a package that depends only on settled ones were on a cycle, then it would be settled itself.
theorem cons (h : edges.Settled finished) (hp : ∀ q, edges.Edge p q → q ∈ finished) :
    edges.Settled (p :: finished) := by
  intro r hr
  cases List.mem_cons.mp hr
  case inr hr => exact ⟨(h r hr).left, fun q hq => List.mem_cons_of_mem _ ((h r hr).right q hq)⟩
  case inl hr =>
    subst hr
    refine ⟨fun hc => ?_, fun q hq => List.mem_cons_of_mem _ (hp q hq)⟩
    obtain ⟨q, hq, hl⟩ := Relation.TransGen.head'_iff.mp hc
    exact (h r (h.leads (hp q hq) hl)).left hc

end Settled

-- What is known once some packages have been searched, coming along a path: there is a cycle that the path or one of
-- these packages leads to, or all of them are settled, and the packages that had been finished before still are.
inductive Search.Tells (edges : PackageEdges) (path finished packages : List PackageId) : Search → Prop
  | found {cycle : List PackageId} (hc : edges.IsCycle cycle)
    (hr : ∀ q ∈ cycle, q ∈ path ∨ ∃ p ∈ packages, edges.Leads p q) : Tells edges path finished packages (.found cycle)
  | exhausted {finished' : List PackageId} (hf : finished ⊆ finished') (hp : packages ⊆ finished')
    (hs : edges.Settled finished') : Tells edges path finished packages (.exhausted finished')

namespace Search.Tells

variable {targets : List PackageId} {outcome : Search}

theorem found_of_targets (he : ∀ q, edges.Edge p q ↔ q ∈ targets)
    (h : Tells edges (path ++ [p]) finished targets (.found cycle)) : Tells edges path finished [p] (.found cycle) := by
  cases h
  case found hc hr =>
    refine .found hc fun q hq => ?_
    rcases hr q hq with hq | ⟨t, ht, hl⟩
    case inr => exact .inr ⟨p, List.mem_singleton_self p, hl.head ((he t).mpr ht)⟩
    case inl =>
      cases List.mem_append.mp hq
      case inl hq => exact .inl hq
      case inr hq => exact .inr ⟨p, List.mem_singleton_self p, List.mem_singleton.mp hq ▸ .refl⟩

theorem exhausted_of_targets (he : ∀ q, edges.Edge p q ↔ q ∈ targets)
    (h : Tells edges (path ++ [p]) finished targets (.exhausted finished')) :
    Tells edges path finished [p] (.exhausted (p :: finished')) := by
  cases h
  case exhausted hf hp hs =>
    exact .exhausted (List.subset_cons_of_subset p hf) (by simp) (hs.cons fun q hq => hp ((he q).mp hq))

theorem found_of_head (h : Tells edges path finished [p] (.found cycle)) :
    Tells edges path finished (p :: packages) (.found cycle) := by
  cases h
  case found hc hr =>
    refine .found hc fun q hq => (hr q hq).imp_right ?_
    rintro ⟨r, hr, hl⟩
    exact ⟨r, List.mem_singleton.mp hr ▸ List.mem_cons_self .., hl⟩

theorem cons (h : Tells edges path finished [p] (.exhausted finished'))
    (ho : Tells edges path finished' packages outcome) : Tells edges path finished (p :: packages) outcome := by
  cases h
  case exhausted hf hp hs =>
    cases ho
    case found hc hr =>
      refine .found hc fun q hq => (hr q hq).imp_right ?_
      rintro ⟨r, hr, hl⟩
      exact ⟨r, List.mem_cons_of_mem p hr, hl⟩
    case exhausted hf' hp' hs' =>
      have hp : p ∈ finished' := hp (List.mem_singleton_self p)
      exact .exhausted (List.Subset.trans hf hf') (List.cons_subset.mpr ⟨hf' hp, hp'⟩) hs'

end Search.Tells

-- The path that the search has come along, with the package that it goes to next.
structure Trail (edges : PackageEdges) (path : List PackageId) (p : PackageId) : Prop where
  nodup : path.Nodup
  chain : (path ++ [p]).IsChain edges.Edge

theorem Trail.step (h : edges.Trail path p) (hp : p ∉ path) (he : edges.Edge p q) : edges.Trail (path ++ [p]) q where
  nodup := List.concat_eq_append ▸ h.nodup.concat hp
  chain := by
    refine List.isChain_append.mpr ⟨h.chain, List.isChain_singleton q, ?_⟩
    simpa using he

theorem edge_iff {targets : IdSet .package} (h : edges.get? p = some targets) (q : PackageId) :
    edges.Edge p q ↔ q ∈ targets.toList := by
  simp [Edge, h, IdSet.mem_toList]

-- By induction along the search of one package and of several ones.
theorem search_tells (hs : edges.Settled finished) (ht : edges.Trail path p) :
    (edges.search path finished p).Tells edges path finished [p] := by
  revert hs ht
  refine search.induct_unfolding edges
    (fun path finished p outcome => edges.Settled finished → edges.Trail path p →
      outcome.Tells edges path finished [p])
    (fun path finished packages outcome => edges.Settled finished → (∀ p ∈ packages, edges.Trail path p) →
      outcome.Tells edges path finished packages) ?onPath ?finished ?leaf ?found ?exhausted ?none ?first ?rest
    path finished p
  case onPath =>
    intro path finished p hp hs ht
    refine .found (.of_path ht.nodup ht.chain hp) fun q hq => .inl ?_
    cases List.mem_append.mp hq
    case inl hq => exact (List.dropWhile_sublist _).subset hq
    case inr hq => exact List.mem_singleton.mp hq ▸ hp
  case finished =>
    intro path finished p hp hf hs ht
    exact .exhausted (List.Subset.refl _) (by simpa using hf) hs
  case leaf =>
    intro path finished p hp hf hn hs ht
    refine .exhausted (List.subset_cons_self ..) (by simp) (hs.cons fun q hq => ?_)
    simp [Edge, hn, IdSet.not_mem_empty] at hq
  case found =>
    intro path finished p hp hf targets hk _ cycle he hi hs ht
    exact .found_of_targets (edge_iff hk) (he ▸ hi hs fun q hq => ht.step hp ((edge_iff hk q).mpr hq))
  case exhausted =>
    intro path finished p hp hf targets hk _ finished' he hi hs ht
    exact .exhausted_of_targets (edge_iff hk) (he ▸ hi hs fun q hq => ht.step hp ((edge_iff hk q).mpr hq))
  case none =>
    intro path finished hs ht
    exact .exhausted (List.Subset.refl _) (List.nil_subset _) hs
  case first =>
    intro path finished p packages cycle he hi hs ht
    exact .found_of_head (he ▸ hi hs (ht p (List.mem_cons_self ..)))
  case rest =>
    intro path finished p packages finished' he hi hr hs ht
    have hi := he ▸ hi hs (ht p (List.mem_cons_self ..))
    have hs' : edges.Settled finished' := by
      cases hi
      case exhausted hs' => exact hs'
    exact hi.cons (hr hs' fun q hq => ht q (List.mem_cons_of_mem _ hq))

theorem search_tells_start (edges : PackageEdges) (start : PackageId) :
    (edges.search [] [] start).Tells edges [] [] [start] :=
  search_tells .nil ⟨.nil, List.isChain_singleton start⟩

theorem cycleFrom?_eq_some {start : PackageId} (h : edges.cycleFrom? start = some cycle) :
    edges.IsCycle cycle ∧ ∀ q ∈ cycle, edges.Leads start q := by
  have ht := edges.search_tells_start start
  rw [cycleFrom?] at h
  cases he : edges.search [] [] start <;> rw [he] at h ht <;> cases h
  cases ht
  case found hc hr => exact ⟨hc, fun q hq => by simpa using hr q hq⟩

theorem exists_edge_of_cycleFrom? {start : PackageId} (h : edges.cycleFrom? start = some cycle) :
    ∃ q, edges.Edge start q := by
  obtain ⟨hc, hl⟩ := cycleFrom?_eq_some h
  obtain ⟨p, rest, rfl, _⟩ := id hc
  have hp : p ∈ p :: (rest ++ [p]) := List.mem_cons_self ..
  rcases (hl p hp).cases_head with rfl | ⟨q, he, _⟩
  case inl => exact hc.exists_edge hp
  case inr => exact ⟨q, he⟩

theorem cycleFrom?_eq_none {start : PackageId} (h : edges.cycleFrom? start = none) (hl : edges.Leads start p) :
    ¬ edges.OnCycle p := by
  have ht := edges.search_tells_start start
  rw [cycleFrom?] at h
  cases he : edges.search [] [] start <;> rw [he] at h ht <;> cases h
  cases ht
  case exhausted hp hs => exact (hs p (hs.leads (hp (List.mem_singleton_self start)) hl)).left

theorem exists_cycleFrom? (hl : edges.Leads p q) (hq : edges.OnCycle q) : ∃ cycle, edges.cycleFrom? p = some cycle := by
  cases h : edges.cycleFrom? p
  case none       => exact absurd hq (cycleFrom?_eq_none h hl)
  case some cycle => exact ⟨cycle, rfl⟩

instance : Decidable (edges.Edge p q) :=
  inferInstanceAs (Decidable (q ∈ (edges.get? p).getD ∅))

-- Whatever the dependencies are, the search ends, because there are fewer packages ahead with every step. It ends with
-- a cycle just if one gets to any from where it began, and then this is a cycle from one of its packages round to the
-- same one that one gets to.
theorem search_finds_cycles_ahead (edges : PackageEdges) (start : PackageId) :
    ((edges.cycleFrom? start).isSome ↔ ∃ p, edges.Leads start p ∧ edges.OnCycle p)
    ∧ ∀ cycle, edges.cycleFrom? start = some cycle →
      ∃ p rest, cycle = p :: (rest ++ [p]) ∧ (p :: rest).Nodup ∧ cycle.IsChain edges.Edge ∧ edges.Leads start p := by
  refine ⟨⟨?found, ?ahead⟩, ?cycle⟩
  case found =>
    intro h
    obtain ⟨cycle, hf⟩ := Option.isSome_iff_exists.mp h
    obtain ⟨hc, hl⟩ := cycleFrom?_eq_some hf
    obtain ⟨p, rest, rfl, _⟩ := id hc
    have hp : p ∈ p :: (rest ++ [p]) := List.mem_cons_self ..
    exact ⟨p, hl p hp, hc.onCycle hp⟩
  case ahead =>
    rintro ⟨p, hl, hp⟩
    exact Option.isSome_iff_exists.mpr (exists_cycleFrom? hl hp)
  case cycle =>
    intro cycle hf
    obtain ⟨⟨p, rest, rfl, hn, hc⟩, hl⟩ := cycleFrom?_eq_some hf
    exact ⟨p, rest, rfl, hn, hc, hl p (List.mem_cons_self ..)⟩

-- Two ways lead to a package from which there is no way on, before a package comes up that depends on itself.
theorem search_finds_cycles_ahead_loop :
    let edges : PackageEdges := ⟨[(⟨0⟩, ⟨[⟨1⟩, ⟨2⟩], by decide⟩), (⟨1⟩, ⟨[⟨3⟩], by decide⟩),
      (⟨2⟩, ⟨[⟨3⟩, ⟨4⟩], by decide⟩), (⟨4⟩, ⟨[⟨4⟩], by decide⟩)], by decide⟩
    edges.cycleFrom? ⟨0⟩ = some [⟨4⟩, ⟨4⟩] ∧ edges.Leads ⟨0⟩ ⟨4⟩
    ∧ (edges.cycleFrom? ⟨2⟩).isSome ∧ ¬ ∃ p, edges.Leads ⟨1⟩ p ∧ edges.OnCycle p := by
  intro edges
  have hf : edges.cycleFrom? ⟨0⟩ = some [⟨4⟩, ⟨4⟩] := by cbv
  have hn : edges.cycleFrom? ⟨1⟩ = none := by cbv
  obtain ⟨p, rest, hp, _, _, hl⟩ := (search_finds_cycles_ahead edges ⟨0⟩).right _ hf
  obtain rfl := (List.cons.inj hp).left
  have ho : edges.OnCycle ⟨4⟩ := .single (by decide)
  have hs : (edges.cycleFrom? ⟨2⟩).isSome :=
    (search_finds_cycles_ahead edges ⟨2⟩).left.mpr ⟨⟨4⟩, .single (by decide), ho⟩
  refine ⟨hf, hl, hs, fun h => ?_⟩
  have := (search_finds_cycles_ahead edges ⟨1⟩).left.mpr h
  simp [hn] at this

end PackageCoupling.PackageEdges
