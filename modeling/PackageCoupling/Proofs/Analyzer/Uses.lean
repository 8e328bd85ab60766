import PackageCoupling.Proofs.Report
import PackageCoupling.Proofs.Walk.Fanout

namespace PackageCoupling

theorem IdSet.eq_of_size_le {kind : NodeKind} {set set' : IdSet kind} (h : ∀ id ∈ set, id ∈ set')
    (hs : set'.size ≤ set.size) : set = set' := by
  have hp := (List.subperm_of_subset set.nodup_toList fun id hi => h id hi).perm_of_length_le hs
  exact IdSet.ext_mem fun id => hp.mem_iff

-- Couplings are added, and none goes.
structure Coupling.Grows {kind : NodeKind} (coupling coupling' : Coupling kind) : Prop where
  efferents : ∀ {a b}, b ∈ coupling.efferentsOf a → b ∈ coupling'.efferentsOf a
  afferents : ∀ {a b}, a ∈ coupling.afferentsOf b → a ∈ coupling'.afferentsOf b

namespace Coupling.Grows

variable {kind : NodeKind} {coupling coupling' coupling'' : Coupling kind}

theorem refl : coupling.Grows coupling where
  efferents := id
  afferents := id

theorem trans (h : coupling.Grows coupling') (h' : coupling'.Grows coupling'') : coupling.Grows coupling'' where
  efferents := h'.efferents ∘ h.efferents
  afferents := h'.afferents ∘ h.afferents

theorem add {source target : NodeId kind} : coupling.Grows (coupling.add source target) where
  efferents h := mem_efferentsOf_add.mpr (.inl h)
  afferents h := mem_afferentsOf_add.mpr (.inl h)

end Coupling.Grows

namespace Analyzer

variable {graph : Graph} {analyzer analyzer' analyzer'' : Analyzer} {events told : List Event}

-- Whatever an analyzer is told, what it makes of that comes down to notes, and mentions are of other packages.

theorem exists_notes_enter {visit : Visit} : ∃ notes : List Note, (∀ note ∈ notes, note.Crosses)
    ∧ (analyzer.enter graph visit).2 = notes.foldl (fun a n => n.apply graph a) analyzer := by
  cases visit
  case package n =>
    rw [enter]
    split
    case isTrue  => exact ⟨[], by simp, rfl⟩
    case isFalse => exact ⟨[.package n.id], by simp [Note.Crosses], rfl⟩
  case type n =>
    refine ⟨.type n :: Visit.mentions graph (.type n), ?_, @mentionAll_eq graph (analyzer.countType graph n) (.type n)⟩
    exact List.forall_mem_cons.mpr ⟨trivial, fun _ => Visit.crosses_of_mem_mentions⟩
  all_goals exact ⟨Visit.mentions graph _, fun _ => Visit.crosses_of_mem_mentions, mentionAll_eq⟩

theorem exists_notes_hear {event : Event} : ∃ notes : List Note, (∀ note ∈ notes, note.Crosses)
    ∧ (listener graph).hear analyzer event = notes.foldl (fun a n => n.apply graph a) analyzer := by
  cases event
  case leave => exact ⟨[], by simp, rfl⟩
  case enter call =>
    cases call
    case node    => exact ⟨[], by simp, rfl⟩
    case visit v => exact exists_notes_enter

theorem exists_notes_replay : ∃ notes : List Note, (∀ note ∈ notes, note.Crosses)
    ∧ (listener graph).replay events analyzer = notes.foldl (fun a n => n.apply graph a) analyzer := by
  induction events generalizing analyzer
  case nil => exact ⟨[], by simp, rfl⟩
  case cons event events hi =>
    obtain ⟨first, hc, hf⟩ := @exists_notes_hear graph analyzer event
    obtain ⟨rest, hc', hr⟩ := @hi ((listener graph).hear analyzer event)
    refine ⟨first ++ rest, List.forall_mem_append.mpr ⟨hc, hc'⟩, ?_⟩
    rw [Listener.replay_cons, hr, hf, List.foldl_append]

-- More is noted, and nothing else is touched.
structure Grows (analyzer analyzer' : Analyzer) : Prop where
  packages : analyzer.packages.Grows analyzer'.packages
  types : analyzer.types.Grows analyzer'.types
  stats : analyzer'.stats = analyzer.stats
  cycles : analyzer'.cycles = analyzer.cycles
  isAnalyzed : analyzer'.isAnalyzed = analyzer.isAnalyzed

namespace Grows

theorem refl : analyzer.Grows analyzer :=
  ⟨.refl, .refl, rfl, rfl, rfl⟩

theorem trans (h : analyzer.Grows analyzer') (h' : analyzer'.Grows analyzer'') : analyzer.Grows analyzer'' where
  packages   := h.packages.trans h'.packages
  types      := h.types.trans h'.types
  stats      := h'.stats.trans h.stats
  cycles     := h'.cycles.trans h.cycles
  isAnalyzed := h'.isAnalyzed.trans h.isAnalyzed

theorem tally {p : PackageId} {f : Tally → Tally} : analyzer.Grows (analyzer.tally graph p f) :=
  ⟨.refl, .refl, rfl, rfl, rfl⟩

theorem note {note : Note} : analyzer.Grows (note.apply graph analyzer) := by
  cases note
  case package => exact tally
  case type    => simpa only [Note.apply, countType] using tally
  case mention source p target =>
    refine ⟨.add, ?_, rfl, rfl, rfl⟩
    simp only [Note.apply]
    split
    case h_1 => exact .refl
    case h_2 => exact .add

theorem notes {notes : List Note} : analyzer.Grows (notes.foldl (fun a n => n.apply graph a) analyzer) := by
  induction notes generalizing analyzer
  case nil            => exact refl
  case cons n rest hi => exact note.trans hi

theorem replay : analyzer.Grows ((listener graph).replay events analyzer) := by
  obtain ⟨_, _, he⟩ := @exists_notes_replay graph analyzer events
  exact he ▸ notes

theorem efferents (h : analyzer.Grows analyzer') (endpoint : Endpoint) :
    analyzer.efferents endpoint ⊆ analyzer'.efferents endpoint := by
  simp only [Analyzer.efferents, h.isAnalyzed]
  split
  case isTrue =>
    cases endpoint
    case package => exact List.map_subset _ fun _ => h.packages.efferents
    case type    => exact List.map_subset _ fun _ => h.types.efferents
  case isFalse => exact List.Subset.refl _

theorem afferents (h : analyzer.Grows analyzer') (endpoint : Endpoint) :
    analyzer.afferents endpoint ⊆ analyzer'.afferents endpoint := by
  simp only [Analyzer.afferents, h.isAnalyzed]
  split
  case isTrue =>
    cases endpoint
    case package => exact List.map_subset _ fun _ => h.packages.afferents
    case type    => exact List.map_subset _ fun _ => h.types.afferents
  case isFalse => exact List.Subset.refl _

end Grows

-- An analyzer that has not finished yet makes the same of a walk in whatever company. The others may answer as they
-- like, before it and after it: the walk goes everywhere, and the analyzer ends up as if it had been alone.
theorem company_makes_no_difference {ι : Type} {sort : ι → Type} (registry : Registry) (analyzer : Analyzer)
    (others : ∀ i, Listener (sort i)) (before after : List (Σ i : Option ι, i.elim Analyzer sort))
    (h : analyzer.isAnalyzed = false) :
    let alone := registry.walk (listener registry.graph) analyzer
    let walked := registry.walk (Listener.assorted (Listener.beside (listener registry.graph) others)).each
      (before ++ ⟨none, analyzer⟩ :: after)
    walked.answer = .descend ∧ ∃ analyzer' : Analyzer, walked.state[before.length]? = some ⟨none, analyzer'⟩
      ∧ analyzer' = alone.state ∧ analyzer'.finish = analyzer.analyze registry := by
  intro alone walked
  have ht : (Listener.beside (listener registry.graph) others none).Thorough (·.isAnalyzed = false) :=
    listener_thorough
  have hm : (before ++ ⟨none, analyzer⟩ :: after)[before.length]? = some ⟨none, analyzer⟩ := by simp
  have hw : walked.Agrees _ alone := (ht.each before.length).walkAll registry.forest ⟨h, hm⟩
  refine ⟨hw.answer.trans (listener_thorough.walkAll _ h).left, alone.state, hw.state.right, rfl, ?_⟩
  rw [analyze, h]
  rfl

-- Somebody else stops the walk at the first package.
theorem company_makes_no_difference_stopped :
    let registry := (Registry.ofConfig {}).perform [
      .build (.type .cls) "app.Engine", .build (.type .cls) "lib.Bolt", .edit (.connect ⟨0⟩ ⟨1⟩)]
    let other : Listener Nat := { enter _ count := (.stop, count + 1), leave _ count := count }
    let group := (Listener.assorted (Listener.beside (listener registry.graph) fun _ : Unit => other)).each
    (registry.walk other 0).state = 1
    ∧ ∃ analyzer : Analyzer, (registry.walk group [⟨some (), (0 : Nat)⟩, ⟨none, ({} : Analyzer)⟩]).state[1]?
        = some ⟨none, analyzer⟩
      ∧ analyzer.finish.efferents (.package ⟨1⟩) = [.package ⟨2⟩] := by
  intro registry other group
  obtain ⟨_, analyzer, hs, _, hf⟩ :=
    company_makes_no_difference registry {} (fun _ : Unit => other) [⟨some (), (0 : Nat)⟩] [] rfl
  refine ⟨by decide +kernel, analyzer, hs, ?_⟩
  rw [hf]
  decide +kernel

theorem replay_of_isAnalyzed (h : analyzer.isAnalyzed)
    (he : ∀ v, .enter (.visit v) ∈ events → ∃ package, v = .package package) :
    (listener graph).replay events analyzer = analyzer := by
  induction events
  case nil => rfl
  case cons event events hi =>
    have hh : (listener graph).hear analyzer event = analyzer := by
      cases event
      case leave => rfl
      case enter call =>
        cases call
        case node => rfl
        case visit v =>
          obtain ⟨package, rfl⟩ := he v (List.mem_cons_self ..)
          exact congrArg Prod.snd (if_pos h)
    rw [Listener.replay_cons, hh]
    exact hi fun v hv => he v (List.mem_cons_of_mem _ hv)

theorem trace_of_isAnalyzed (h : analyzer.isAnalyzed) {registry : Registry} {visit : Visit}
    (hv : .enter (.visit visit) ∈ (registry.walk (listener registry.graph) analyzer).trace) :
    ∃ package, visit = .package package := by
  rw [Registry.walk, Registry.forest] at hv
  cases hp : registry.packages
  case nil => simp [hp, Listener.walkAll] at hv
  case cons package packages =>
    refine ⟨package, ?_⟩
    simpa [hp, Listener.walkAll, Listener.walk, Graph.packageTree, listener, enter, h] using hv

-- What can be done to an analyzer, and what it is told thereby. It takes part in a walk alone, or through a listener
-- that passes on to it what it is told itself, such as a group.
inductive Use : List Event → Analyzer → Analyzer → Prop
  | analyze {analyzer : Analyzer} (registry : Registry) :
    Use (if analyzer.isAnalyzed then [] else (registry.walk (listener registry.graph) analyzer).trace)
      analyzer (analyzer.analyze registry)
  | finish {analyzer : Analyzer} : Use [] analyzer analyzer.finish
  | hear {analyzer : Analyzer} (graph : Graph) (event : Event) :
    Use [event] analyzer ((listener graph).hear analyzer event)
  | walk {analyzer analyzer' : Analyzer} {τ : Type} {host : Listener τ} {holds : τ → Analyzer → Prop} {t : τ}
    (route : Route) : host.Hosts (listener route.graph) holds → holds t analyzer →
    holds (host.follow route t).state analyzer' → Use (host.follow route t).trace analyzer analyzer'

inductive Uses : List Event → Analyzer → Analyzer → Prop
  | refl {analyzer : Analyzer} : Uses [] analyzer analyzer
  | step {told told' : List Event} {analyzer analyzer' analyzer'' : Analyzer} :
    Use told analyzer analyzer' → Uses told' analyzer' analyzer'' → Uses (told ++ told') analyzer analyzer''

theorem finish_of_isAnalyzed (h : analyzer.isAnalyzed) : analyzer.finish = analyzer := by
  rw [finish, if_pos h]

-- All uses come down to being told something, and to finishing afterwards.
theorem Use.replay (h : Use told analyzer analyzer') : ∃ graph, analyzer' = (listener graph).replay told analyzer
    ∨ analyzer.isAnalyzed = false ∧ analyzer' = ((listener graph).replay told analyzer).finish := by
  cases h
  case analyze registry =>
    refine ⟨registry.graph, ?_⟩
    cases ha : analyzer.isAnalyzed
    case true  => exact .inl (if_pos ha)
    case false =>
      refine .inr ⟨rfl, ?_⟩
      rw [Analyzer.analyze, ha]
      exact congrArg Analyzer.finish (Listener.state_walkAll _ _)
  case finish =>
    refine ⟨(∅ : Graph), ?_⟩
    cases ha : analyzer.isAnalyzed
    case true  => exact .inl (finish_of_isAnalyzed ha)
    case false => exact .inr ⟨rfl, rfl⟩
  case hear graph event    => exact ⟨graph, .inl rfl⟩
  case walk route hh ht hs => exact ⟨route.graph, .inl (hh.unique hs (hh.follow ht))⟩

namespace Uses

theorem replay : Uses events analyzer ((listener graph).replay events analyzer) := by
  induction events generalizing analyzer
  case nil                  => exact refl
  case cons event events hi => exact step (.hear graph event) hi

theorem preserve {P : Analyzer → Prop} (h : Uses told analyzer analyzer') (hp : P analyzer)
    (hn : ∀ {graph a} {note : Note}, note.Crosses → P a → P (note.apply graph a)) (hf : ∀ {a}, P a → P a.finish) :
    P analyzer' := by
  have hr {graph : Graph} {a : Analyzer} {notes : List Note} (hc : ∀ note ∈ notes, note.Crosses) (ha : P a) :
      P (notes.foldl (fun a n => n.apply graph a) a) := by
    induction notes generalizing a
    case nil            => exact ha
    case cons n rest hi =>
      rw [List.forall_mem_cons] at hc
      exact hi hc.right (hn hc.left ha)
  induction h
  case refl => exact hp
  case step told _ analyzer _ _ hu _ hi =>
    obtain ⟨graph, he⟩ := hu.replay
    obtain ⟨notes, hc, hs⟩ := @exists_notes_replay graph analyzer told
    refine hi ?_
    rcases he with rfl | ⟨_, rfl⟩
    case inl => exact hs ▸ hr hc hp
    case inr => exact hf (hs ▸ hr hc hp)

theorem grows (h : Uses told analyzer analyzer') (ha : analyzer.isAnalyzed) : analyzer.Grows analyzer' := by
  induction h
  case refl => exact .refl
  case step hu hs hi =>
    obtain ⟨graph, rfl | ⟨hf, _⟩⟩ := hu.replay
    case inl => exact Grows.replay.trans (hi (Grows.replay.isAnalyzed.trans ha))
    case inr => exact absurd hf (by simp [ha])

theorem unchanged (h : Uses told analyzer analyzer') (ha : analyzer.isAnalyzed)
    (ht : ∀ v, .enter (.visit v) ∈ told → ∃ package, v = .package package) : analyzer' = analyzer := by
  induction h
  case refl => rfl
  case step told _ analyzer _ _ hu hs hi =>
    obtain ⟨graph, rfl | ⟨hf, _⟩⟩ := hu.replay
    case inl =>
      have hr : (listener graph).replay told analyzer = analyzer :=
        replay_of_isAnalyzed ha fun v hv => ht v (List.mem_append_left _ hv)
      rw [hr] at hi
      exact hi ha fun v hv => ht v (List.mem_append_right _ hv)
    case inr => exact absurd hf (by simp [ha])

theorem finished (h : Uses told analyzer analyzer') (hf : analyzer.isAnalyzed = false) (ha : analyzer'.isAnalyzed) :
    ∃ before since known, told = before ++ since ∧ Uses before analyzer known ∧ known.isAnalyzed = false
      ∧ Uses since known.finish analyzer' := by
  induction h
  case refl => exact absurd ha (by simp [hf])
  case step told told' analyzer next analyzer' hu hs hi =>
    cases hn : next.isAnalyzed
    case false =>
      obtain ⟨before, since, known, rfl, hb, hk, hs⟩ := hi hn ha
      exact ⟨told ++ before, since, known, (List.append_assoc ..).symm, .step hu hb, hk, hs⟩
    case true =>
      obtain ⟨graph, rfl | ⟨_, rfl⟩⟩ := hu.replay
      case inl => simp [Grows.replay.isAnalyzed, hf] at hn
      case inr => exact ⟨told, told', _, rfl, replay, Grows.replay.isAnalyzed.trans hf, hs⟩

end Uses

-- The metrics of a package count what there is to be listed.
def Confirms (analyzer : Analyzer) (package : PackageId) (stats : PackageStats) : Prop :=
  stats.afferent = (analyzer.afferents (.package package)).length
    ∧ stats.efferent = (analyzer.efferents (.package package)).length

theorem confirms_finish {p : PackageId} {stats : PackageStats} (h : analyzer.isAnalyzed = false)
    (hs : analyzer.finish.statsOf? p = some stats) : analyzer.finish.Confirms p stats := by
  rw [statsOf?_finish h] at hs
  obtain ⟨tally, _, rfl⟩ := Option.map_eq_some_iff.mp hs
  exact ⟨rfl, rfl⟩

theorem Grows.afferents_eq (h : analyzer.Grows analyzer') (ha : analyzer.isAnalyzed) {p : PackageId}
    (hl : (analyzer.afferents (.package p)).length = (analyzer'.afferents (.package p)).length) :
    analyzer'.afferents (.package p) = analyzer.afferents (.package p) := by
  simp only [Analyzer.afferents, h.isAnalyzed, ha, if_true, List.length_map] at hl ⊢
  rw [IdSet.eq_of_size_le (fun _ => h.packages.afferents) hl.ge]

theorem Grows.efferents_eq (h : analyzer.Grows analyzer') (ha : analyzer.isAnalyzed) {p : PackageId}
    (hl : (analyzer.efferents (.package p)).length = (analyzer'.efferents (.package p)).length) :
    analyzer'.efferents (.package p) = analyzer.efferents (.package p) := by
  simp only [Analyzer.efferents, h.isAnalyzed, ha, if_true, List.length_map] at hl ⊢
  rw [IdSet.eq_of_size_le (fun _ => h.packages.efferents) hl.ge]

-- However an analyzer came to have metrics, there was a moment when it finished, and they count what it knew then. What
-- it lists has only grown since, so they count what it lists now if and only if that is still the same. It is the same
-- if the analyzer was told of nothing but packages since, and walks that it takes alone tell it of nothing else.
theorem stats_count_what_was_known (h : Uses told {} analyzer) (ha : analyzer.isAnalyzed) :
    (∃ before since known, told = before ++ since ∧ Uses before {} known ∧ known.isAnalyzed = false
      ∧ Uses since known.finish analyzer)
    ∧ (∀ since (known : Analyzer), known.isAnalyzed = false → Uses since known.finish analyzer →
      (∀ endpoint, known.finish.afferents endpoint ⊆ analyzer.afferents endpoint
        ∧ known.finish.efferents endpoint ⊆ analyzer.efferents endpoint)
      ∧ (∀ p stats, analyzer.statsOf? p = some stats → known.finish.Confirms p stats
        ∧ (analyzer.Confirms p stats ↔ analyzer.afferents (.package p) = known.finish.afferents (.package p)
          ∧ analyzer.efferents (.package p) = known.finish.efferents (.package p)))
      ∧ ((∀ v, .enter (.visit v) ∈ since → ∃ package, v = .package package) →
        ∀ p stats, analyzer.statsOf? p = some stats → analyzer.Confirms p stats))
    ∧ ∀ (registry : Registry) v, .enter (.visit v) ∈ (registry.walk (listener registry.graph) analyzer).trace →
      ∃ package, v = .package package := by
  refine ⟨h.finished rfl ha, fun since known hk hs => ?_, fun _ _ => trace_of_isAnalyzed ha⟩
  have hf : known.finish.isAnalyzed := by simp [finish, hk]
  have hg := hs.grows hf
  have hc {p : PackageId} {stats : PackageStats} (hp : analyzer.statsOf? p = some stats) :
      known.finish.Confirms p stats := by
    rw [statsOf?, hg.stats] at hp
    exact confirms_finish hk hp
  refine ⟨fun e => ⟨hg.afferents e, hg.efferents e⟩, fun p stats hp => ⟨hc hp, ?_⟩, fun ht p stats hp => ?_⟩
  case refine_1 =>
    obtain ⟨ha, he⟩ := hc hp
    constructor
    case mp =>
      rintro ⟨ha', he'⟩
      exact ⟨hg.afferents_eq hf (ha.symm.trans ha'), hg.efferents_eq hf (he.symm.trans he')⟩
    case mpr =>
      rintro ⟨ha', he'⟩
      exact ⟨ha' ▸ ha, he' ▸ he⟩
  case refine_2 =>
    rw [hs.unchanged hf ht]
    exact hc hp

-- After a dependency has come up, the analyzer walks once more, alone.
theorem stats_count_what_was_known_alone :
    let early := (Registry.ofConfig {}).perform [
      .build (.type .cls) "p1.A", .build (.type .cls) "p2.B", .build (.type .cls) "p3.C", .edit (.connect ⟨0⟩ ⟨1⟩)]
    let late := early.perform [.edit (.connect ⟨0⟩ ⟨2⟩)]
    let first := ({} : Analyzer).analyze early
    let again := (late.walk (listener late.graph) first).state
    again.isAnalyzed ∧ again.efferents (.package ⟨1⟩) = [.package ⟨2⟩]
    ∧ ∀ p stats, again.statsOf? p = some stats → again.Confirms p stats := by
  intro early late first again
  have ha : again.isAnalyzed := by decide +kernel
  have hs : Uses _ first again := .step (.walk (.packages late) .self rfl rfl) .refl
  have hw := (stats_count_what_was_known (.step (.analyze early) hs) ha).right.left
  refine ⟨ha, by decide +kernel, (hw _ (early.walk (listener early.graph) {}).state ?_ hs).right.right ?_⟩
  case refine_1 => decide +kernel
  case refine_2 =>
    intro v hv
    rw [List.append_nil] at hv
    exact trace_of_isAnalyzed (by decide +kernel) hv

-- Metrics that do not count what is listed: the analyzer is taken along once more, by a group in which somebody else
-- goes on.
theorem stats_differ_from_queries :
    ¬ ∀ told analyzer, Uses told {} analyzer → analyzer.isAnalyzed → ∀ p stats, analyzer.statsOf? p = some stats →
      analyzer.Confirms p stats := by
  intro h
  let early := (Registry.ofConfig {}).perform [
    .build (.type .cls) "p1.A", .build (.type .cls) "p2.B", .build (.type .cls) "p3.C", .edit (.connect ⟨0⟩ ⟨1⟩)]
  let late := early.perform [.edit (.connect ⟨0⟩ ⟨2⟩)]
  let other : Listener Unit := { enter _ _ := (.descend, ()), leave _ _ := () }
  let group := (Listener.assorted (Listener.beside (listener late.graph) fun _ : Unit => other)).each
  let first := ({} : Analyzer).analyze early
  let walked := group.follow (.packages late) [⟨none, first⟩, ⟨some (), ()⟩]
  let second := (listener late.graph).replay walked.trace first
  have hh : group.Hosts (listener late.graph) fun members analyzer => members[0]? = some ⟨none, analyzer⟩ :=
    .each none 0
  have hu : Use walked.trace first second := .walk (.packages late) hh rfl (hh.follow rfl)
  have hs : (second.statsOf? ⟨1⟩).map (·.efferent) = some 1 := by decide +kernel
  obtain ⟨stats, hp, he⟩ := Option.map_eq_some_iff.mp hs
  have hc := (h _ second (.step (.analyze early) (.step hu .refl)) (by decide +kernel) ⟨1⟩ stats hp).right
  rw [he] at hc
  exact absurd hc (by decide +kernel)

end Analyzer
end PackageCoupling
