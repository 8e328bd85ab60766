import PackageCoupling.Proofs.Analyzer.Uses
import PackageCoupling.Proofs.Cycle

namespace PackageCoupling

theorem IdSet.mem_ofList {kind : NodeKind} {ids : List (NodeId kind)} {id : NodeId kind} :
    id ∈ IdSet.ofList ids ↔ id ∈ ids := by
  have hf (set : IdSet kind) : id ∈ ids.foldl insert set ↔ id ∈ ids ∨ id ∈ set := by
    induction ids generalizing set
    case nil            => simp
    case cons i rest hi => simp [hi, or_left_comm, or_assoc]
  rw [ofList, hf]
  simp [IdSet.not_mem_empty]

namespace Analyzer

variable {graph : Graph} {analyzer analyzer' analyzer'' known : Analyzer} {told : List Event} {p start : PackageId}
variable {cycle : List PackageId} {cycles : List (List PackageId)} {seen : List (IdSet .package)}

abbrev edges (analyzer : Analyzer) : PackageEdges :=
  analyzer.packages.efferents

theorem tallies_finish : known.finish.tallies = known.tallies := by
  rw [finish]
  split <;> rfl

theorem edges_finish : known.finish.edges = known.edges := by
  rw [finish]
  split <;> rfl

theorem packageName_finish : known.finish.packageName p = known.packageName p := by
  rw [packageName, tallies_finish, packageName]

-- Packages that have a tally keep it, under the same name.
def Remembers (analyzer analyzer' : Analyzer) : Prop :=
  ∀ p tally, analyzer.tallies.get? p = some tally →
    ∃ tally', analyzer'.tallies.get? p = some tally' ∧ tally'.name = tally.name

namespace Remembers

theorem refl : analyzer.Remembers analyzer :=
  fun _ tally ht => ⟨tally, ht, rfl⟩

theorem trans (h : analyzer.Remembers analyzer') (h' : analyzer'.Remembers analyzer'') :
    analyzer.Remembers analyzer'' := by
  intro p tally ht
  obtain ⟨tally', ht', hn⟩ := h p tally ht
  obtain ⟨tally'', ht'', hn'⟩ := h' p tally' ht'
  exact ⟨tally'', ht'', hn'.trans hn⟩

theorem tally {f : Tally → Tally} (hf : ∀ t, (f t).name = t.name) : analyzer.Remembers (analyzer.tally graph p f) := by
  intro q t ht
  rw [HasNoted.get?_tally, ht]
  split
  case isTrue  => exact ⟨f t, rfl, hf t⟩
  case isFalse => exact ⟨t, rfl, rfl⟩

theorem note (note : Note) : analyzer.Remembers (note.apply graph analyzer) := by
  cases note
  case package => exact tally fun _ => rfl
  case type    => exact tally fun _ => rfl
  case mention source q _ =>
    have hs : analyzer.Remembers (analyzer.tally graph source.package id) := tally fun _ => rfl
    exact hs.trans (tally fun _ => rfl)

theorem of_uses (h : Uses told analyzer analyzer') : analyzer.Remembers analyzer' := by
  refine h.preserve refl (fun _ hr => hr.trans (note _)) fun hr => ?_
  rwa [Remembers, tallies_finish]

theorem isSome (h : analyzer.Remembers analyzer') (hp : (analyzer.tallies.get? p).isSome) :
    (analyzer'.tallies.get? p).isSome := by
  obtain ⟨tally, ht⟩ := Option.isSome_iff_exists.mp hp
  obtain ⟨tally', ht', _⟩ := h p tally ht
  exact Option.isSome_iff_exists.mpr ⟨tally', ht'⟩

end Remembers

-- Packages of which one depends on the other have tallies, both of them.
def Tallied (analyzer : Analyzer) : Prop :=
  ∀ p q, analyzer.edges.Edge p q → (analyzer.tallies.get? p).isSome ∧ (analyzer.tallies.get? q).isSome

namespace Tallied

theorem empty : ({} : Analyzer).Tallied :=
  fun _ _ he => absurd he IdSet.not_mem_empty

theorem note (note : Note) (h : analyzer.Tallied) : (note.apply graph analyzer).Tallied := by
  have hk : analyzer.Remembers (note.apply graph analyzer) := .note note
  have hr {a : Analyzer} {r : PackageId} {f : Tally → Tally} : ((a.tally graph r f).tallies.get? r).isSome := by
    rw [HasNoted.get?_tally, if_pos rfl]
    rfl
  intro p q he
  cases note
  case package => exact (h p q he).imp hk.isSome hk.isSome
  case type    => exact (h p q he).imp hk.isSome hk.isSome
  case mention source r target =>
    have he : analyzer.edges.Edge p q ∨ p = source.package ∧ q = r := Coupling.mem_efferentsOf_add.mp he
    rcases he with he | ⟨rfl, rfl⟩
    case inl => exact (h p q he).imp hk.isSome hk.isSome
    case inr => exact ⟨(Remembers.tally fun _ => rfl).isSome hr, hr⟩

theorem finish (h : analyzer.Tallied) : analyzer.finish.Tallied := by
  rwa [Tallied, tallies_finish, edges_finish]

theorem of_uses (h : Uses told {} analyzer) : analyzer.Tallied :=
  h.preserve empty (fun _ => note _) finish

end Tallied

theorem mem_of_mem_distinctCycles (h : cycle ∈ distinctCycles cycles seen) : cycle ∈ cycles := by
  induction cycles generalizing seen
  case nil => simp [distinctCycles] at h
  case cons c rest hi =>
    rw [distinctCycles] at h
    split at h
    case isTrue  => exact List.mem_cons_of_mem c (hi h)
    case isFalse => exact (List.mem_cons.mp h).elim (· ▸ List.mem_cons_self ..) (List.mem_cons_of_mem c ∘ hi)

theorem exists_mem_distinctCycles (h : cycle ∈ cycles) : IdSet.ofList cycle ∈ seen
    ∨ ∃ c ∈ distinctCycles cycles seen, IdSet.ofList c = IdSet.ofList cycle := by
  induction cycles generalizing seen
  case nil => simp at h
  case cons c rest hi =>
    rw [distinctCycles]
    split
    case isTrue hs =>
      cases List.mem_cons.mp h
      case inl h => exact .inl (h ▸ hs)
      case inr h => exact hi h
    case isFalse =>
      simp only [List.exists_mem_cons_iff]
      cases List.mem_cons.mp h
      case inl h => exact .inr (.inl (h ▸ rfl))
      case inr h =>
        rcases @hi (IdSet.ofList c :: seen) h with hs | hc
        case inr => exact .inr (.inr hc)
        case inl => exact (List.mem_cons.mp hs).elim (fun he => .inr (.inl he.symm)) .inl

-- The cycles that an analyzer reports if it finishes now.
def reported (analyzer : Analyzer) : List (List PackageId) :=
  distinctCycles (analyzer.tallies.keys.filterMap analyzer.edges.cycleFrom?) []

theorem cycles_summary (h : known.isAnalyzed = false) (hc : analyzer.cycles = known.finish.cycles) :
    analyzer.summary.cycles = known.reported.map (·.map analyzer.packageName) := by
  rw [summary, reported, hc]
  simp only [finish, h, Bool.false_eq_true, if_false, IdMap.values, IdMap.keys, IdMap.mapWithId, List.filterMap_map,
    List.map_map]
  rfl

theorem exists_of_mem_reported (h : cycle ∈ known.reported) : ∃ start, known.edges.cycleFrom? start = some cycle := by
  obtain ⟨start, _, hs⟩ := List.mem_filterMap.mp (mem_of_mem_distinctCycles h)
  exact ⟨start, hs⟩

theorem Tallied.exists_mem_reported (ht : known.Tallied) (h : known.edges.cycleFrom? start = some cycle) :
    ∃ c ∈ known.reported, ∀ q, q ∈ c ↔ q ∈ cycle := by
  obtain ⟨q, he⟩ := PackageEdges.exists_edge_of_cycleFrom? h
  obtain ⟨tally, hk⟩ := Option.isSome_iff_exists.mp (ht start q he).left
  have hm : cycle ∈ known.tallies.keys.filterMap known.edges.cycleFrom? :=
    List.mem_filterMap.mpr ⟨start, IdMap.mem_keys_of_get? hk, h⟩
  obtain ⟨c, hc, hs⟩ := (exists_mem_distinctCycles hm).resolve_left List.not_mem_nil
  exact ⟨c, hc, fun q => by rw [← IdSet.mem_ofList, hs, IdSet.mem_ofList]⟩

-- However an analyzer came to report cycles, there was a moment when it finished, and they are cycles of what it knew
-- then. A package is among them just if it is on the first cycle that is found from some package. So there is a cycle
-- for every package from which one gets to any, but it need not be one that the package is on itself, unless
-- there are no others to get to.
theorem cycles_are_reported_where_found (h : Uses told {} analyzer) (ha : analyzer.isAnalyzed) :
    (∃ before since known, told = before ++ since ∧ Uses before {} known ∧ known.isAnalyzed = false
      ∧ Uses since known.finish analyzer)
    ∧ ∀ before since (known : Analyzer), Uses before {} known → known.isAnalyzed = false →
      Uses since known.finish analyzer →
      ∃ reported : List (List PackageId), analyzer.summary.cycles = reported.map (·.map analyzer.packageName)
        ∧ (∀ c ∈ reported, known.edges.IsCycle c)
        ∧ (∀ p, (∃ c ∈ reported, p ∈ c) ↔ ∃ start c, known.edges.cycleFrom? start = some c ∧ p ∈ c)
        ∧ (∀ p q, known.edges.Leads p q → known.edges.OnCycle q → ∃ c ∈ reported, ∀ r ∈ c, known.edges.Leads p r)
        ∧ ∀ p, known.edges.OnCycle p → (∀ c, known.edges.IsCycle c → (∀ q ∈ c, known.edges.Leads p q) → p ∈ c) →
          ∃ c ∈ reported, p ∈ c := by
  refine ⟨h.finished rfl ha, fun before since known hb hk hs => ?_⟩
  have ht : known.Tallied := .of_uses hb
  have hc : ∀ c ∈ known.reported, known.edges.IsCycle c := by
    intro c hc
    obtain ⟨start, hf⟩ := exists_of_mem_reported hc
    exact (PackageEdges.cycleFrom?_eq_some hf).left
  have hl (p q : PackageId) (hp : known.edges.Leads p q) (hq : known.edges.OnCycle q) :
      ∃ c ∈ known.reported, ∀ r ∈ c, known.edges.Leads p r := by
    obtain ⟨cycle, hf⟩ := PackageEdges.exists_cycleFrom? hp hq
    obtain ⟨c, hc, hm⟩ := ht.exists_mem_reported hf
    exact ⟨c, hc, fun r hr => (PackageEdges.cycleFrom?_eq_some hf).right r ((hm r).mp hr)⟩
  have hf : known.finish.isAnalyzed := by simp [finish, hk]
  refine ⟨known.reported, cycles_summary hk (hs.grows hf).cycles, hc, fun p => ⟨?_, ?_⟩, hl, fun p hp ho => ?_⟩
  case refine_1 =>
    rintro ⟨c, hc, hp⟩
    obtain ⟨start, hf⟩ := exists_of_mem_reported hc
    exact ⟨start, c, hf, hp⟩
  case refine_2 =>
    rintro ⟨start, cycle, hf, hp⟩
    obtain ⟨c, hc, hm⟩ := ht.exists_mem_reported hf
    exact ⟨c, hc, (hm p).mpr hp⟩
  case refine_3 =>
    obtain ⟨c, hm, hr⟩ := hl p p .refl hp
    exact ⟨c, hm, ho c (hc c hm) hr⟩

-- A package depends on one of two that depend on each other.
theorem cycles_are_reported_where_found_led : ∃ told known, Use told {} known
    ∧ known.edges.Leads ⟨3⟩ ⟨1⟩ ∧ known.edges.OnCycle ⟨1⟩
    ∧ ∃ reported : List (List PackageId), known.finish.summary.cycles = reported.map (·.map known.finish.packageName)
      ∧ ∃ c ∈ reported, known.edges.IsCycle c ∧ ∀ r ∈ c, known.edges.Leads ⟨3⟩ r := by
  let registry := (Registry.ofConfig {}).perform [.build (.type .cls) "p1.A", .build (.type .cls) "p2.B",
    .build (.type .cls) "p3.C", .edit (.connect ⟨0⟩ ⟨1⟩), .edit (.connect ⟨1⟩ ⟨0⟩), .edit (.connect ⟨2⟩ ⟨0⟩)]
  obtain ⟨told, known, hu, hk, he₁, he₂, he₃⟩ : ∃ told known, Use told {} known ∧ known.isAnalyzed = false
      ∧ known.edges.Edge ⟨1⟩ ⟨2⟩ ∧ known.edges.Edge ⟨2⟩ ⟨1⟩ ∧ known.edges.Edge ⟨3⟩ ⟨1⟩ :=
    ⟨_, _, .walk (.packages registry) .self rfl rfl, by decide +kernel⟩
  have hl : known.edges.Leads ⟨3⟩ ⟨1⟩ := .single he₃
  have hc : known.edges.OnCycle ⟨1⟩ := .tail (.single he₁) he₂
  have hf := cycles_are_reported_where_found (.step hu (.step .finish .refl)) (by simp [finish, hk])
  obtain ⟨reported, hr, hi, _, hw, _⟩ := hf.right _ _ known (.step hu .refl) hk .refl
  obtain ⟨c, hm, hd⟩ := hw ⟨3⟩ ⟨1⟩ hl hc
  exact ⟨told, known, hu, hl, hc, reported, hr, c, hm, hi c hm, hd⟩

-- Three packages in a row, each of which depends on its neighbours: wherever the search begins, it comes upon the first
-- two of them.
theorem cyclic_package_goes_unreported :
    ¬ ∀ told analyzer, Uses told {} analyzer → analyzer.isAnalyzed → ∀ p, analyzer.edges.OnCycle p →
      ∃ c ∈ analyzer.summary.cycles, analyzer.packageName p ∈ c := by
  intro h
  let registry := (Registry.ofConfig {}).perform [.build (.type .cls) "p1.A", .build (.type .cls) "p2.B",
    .build (.type .cls) "p3.C", .edit (.connect ⟨0⟩ ⟨1⟩), .edit (.connect ⟨1⟩ ⟨0⟩), .edit (.connect ⟨1⟩ ⟨2⟩),
    .edit (.connect ⟨2⟩ ⟨1⟩)]
  let edges : PackageEdges :=
    ⟨[(⟨1⟩, ⟨[⟨2⟩], by decide⟩), (⟨2⟩, ⟨[⟨1⟩, ⟨3⟩], by decide⟩), (⟨3⟩, ⟨[⟨2⟩], by decide⟩)], by decide⟩
  have hc : edges.OnCycle ⟨3⟩ := .tail (b := ⟨2⟩) (.single (by decide)) (by decide)
  have hf : [⟨1⟩, ⟨2⟩, ⟨3⟩].filterMap edges.cycleFrom? = [[⟨1⟩, ⟨2⟩, ⟨1⟩], [⟨2⟩, ⟨1⟩, ⟨2⟩], [⟨2⟩, ⟨1⟩, ⟨2⟩]] := by
    cbv
  obtain ⟨told, known, hu, hk, ht, he, hn⟩ : ∃ told known, Use told {} known ∧ known.isAnalyzed = false
      ∧ known.tallies.keys = [⟨1⟩, ⟨2⟩, ⟨3⟩] ∧ known.edges.toList = edges.toList
      ∧ known.packageName ⟨1⟩ = "p1" ∧ known.packageName ⟨2⟩ = "p2" ∧ known.packageName ⟨3⟩ = "p3" :=
    ⟨_, _, .walk (.packages registry) .self rfl rfl, by decide +kernel⟩
  have he : known.edges = edges := IdMap.ext he
  have hr : known.reported = [[⟨1⟩, ⟨2⟩, ⟨1⟩]] := by
    rw [reported, ht, he, hf]
    decide
  obtain ⟨c, hm, hp⟩ := h _ known.finish (.step hu (.step .finish .refl)) (by simp [finish, hk]) ⟨3⟩
    (edges_finish.symm ▸ he ▸ hc)
  rw [cycles_summary hk rfl, hr] at hm
  simp only [List.map_cons, List.map_nil, packageName_finish, hn, List.mem_singleton] at hm hp
  simp [hm] at hp

end Analyzer
end PackageCoupling
