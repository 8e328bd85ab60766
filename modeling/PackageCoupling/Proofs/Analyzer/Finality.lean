import PackageCoupling.Proofs.Analyzer.Cycles

namespace PackageCoupling.Analyzer

variable {analyzer analyzer' known : Analyzer} {told later : List Event} {p : PackageId} {cycle : List PackageId}

theorem Remembers.packageName (h : analyzer.Remembers analyzer') (hp : (analyzer.tallies.get? p).isSome) :
    analyzer'.packageName p = analyzer.packageName p := by
  obtain ⟨tally, ht⟩ := Option.isSome_iff_exists.mp hp
  obtain ⟨tally', ht', hn⟩ := h p tally ht
  simp only [Analyzer.packageName, ht, ht', hn]

theorem Tallied.isSome_of_mem_reported (h : known.Tallied) (hc : cycle ∈ known.reported) (hp : p ∈ cycle) :
    (known.tallies.get? p).isSome := by
  obtain ⟨start, hf⟩ := exists_of_mem_reported hc
  obtain ⟨q, he⟩ := (PackageEdges.cycleFrom?_eq_some hf).left.exists_edge hp
  exact (h p q he).left

-- Whatever is done to an analyzer that has finished, its metrics and cycles and the report on all of them are still the
-- same.
theorem results_are_final (h : Uses told {} analyzer) (ha : analyzer.isAnalyzed) (hs : Uses later analyzer analyzer') :
    analyzer'.isAnalyzed ∧ (∀ p, analyzer'.statsOf? p = analyzer.statsOf? p)
      ∧ (∀ p, analyzer'.cycle? p = analyzer.cycle? p) ∧ analyzer'.summary = analyzer.summary := by
  have hg : analyzer.Grows analyzer' := hs.grows ha
  refine ⟨hg.isAnalyzed.trans ha, fun p => ?stats, fun p => ?cycle, ?summary⟩
  case stats => rw [statsOf?, statsOf?, hg.stats]
  case cycle => rw [cycle?, cycle?, hg.cycles]
  case summary =>
    obtain ⟨before, since, known, _, hb, hk, hu⟩ := h.finished rfl ha
    have hf : known.finish.isAnalyzed := by simp [finish, hk]
    have hc : analyzer.cycles = known.finish.cycles := (hu.grows hf).cycles
    have hn : ∀ c ∈ known.reported, ∀ p ∈ c, analyzer'.packageName p = analyzer.packageName p := by
      intro c hc p hp
      have ht : (known.tallies.get? p).isSome := (Tallied.of_uses hb).isSome_of_mem_reported hc hp
      rw [← tallies_finish] at ht
      exact (Remembers.of_uses hs).packageName ((Remembers.of_uses hu).isSome ht)
    have hp : analyzer'.summary.packages = analyzer.summary.packages := by rw [summary, summary, hg.stats]
    have hd : analyzer'.summary.cycles = analyzer.summary.cycles := by
      rw [cycles_summary hk hc, cycles_summary hk (hg.cycles.trans hc)]
      exact List.map_congr_left fun c hc => List.map_congr_left (hn c hc)
    exact congrArg₂ Report.mk hp hd

-- An analyzer is taken along through other packages, by a group in which somebody else goes on.
theorem results_are_final_elsewhere : ∃ told later first second, Use told {} first ∧ first.isAnalyzed
    ∧ first.edges.OnCycle ⟨1⟩ ∧ Use later first second ∧ second.edges.Edge ⟨2⟩ ⟨3⟩ ∧ ¬ first.edges.Edge ⟨2⟩ ⟨3⟩
    ∧ second.summary = first.summary := by
  let here := (Registry.ofConfig {}).perform [
    .build (.type .cls) "p1.A", .build (.type .cls) "p2.B", .edit (.connect ⟨0⟩ ⟨1⟩), .edit (.connect ⟨1⟩ ⟨0⟩)]
  let there := (Registry.ofConfig {}).perform [
    .build (.type .cls) "q1.A", .build (.type .cls) "q2.B", .build (.type .cls) "q3.C", .edit (.connect ⟨1⟩ ⟨2⟩)]
  let other : Listener Unit := { enter _ _ := (.descend, ()), leave _ _ := () }
  let group := (Listener.assorted (Listener.beside (listener there.graph) fun _ : Unit => other)).each
  have hh : group.Hosts (listener there.graph) fun members analyzer => members[0]? = some ⟨none, analyzer⟩ :=
    .each none 0
  obtain ⟨told, later, first, second, hu, hs, ha, he₁, he₂, hn, hd⟩ : ∃ told later first second, Use told {} first
      ∧ Use later first second ∧ first.isAnalyzed ∧ first.edges.Edge ⟨1⟩ ⟨2⟩ ∧ first.edges.Edge ⟨2⟩ ⟨1⟩
      ∧ ¬ first.edges.Edge ⟨2⟩ ⟨3⟩ ∧ second.edges.Edge ⟨2⟩ ⟨3⟩ :=
    ⟨_, _, _, _, .analyze here, .walk (t := [⟨none, _⟩, ⟨some (), ()⟩]) (.packages there) hh rfl (hh.follow rfl),
      by decide +kernel⟩
  have hf := results_are_final (.step hu .refl) ha (.step hs .refl)
  exact ⟨told, later, first, second, hu, ha, .tail (.single he₁) he₂, hs, hd, hn, hf.right.right.right⟩

end PackageCoupling.Analyzer
