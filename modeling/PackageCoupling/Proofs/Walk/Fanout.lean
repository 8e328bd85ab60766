import Mathlib.Data.List.Forall2
import PackageCoupling.Proofs.Registry.Run
import PackageCoupling.Proofs.Walk
import PackageCoupling.Proofs.Walk.Simulation

namespace PackageCoupling

namespace Answer

variable {answer answer' : Answer} {answers answers' : List Answer}

def leeway : Answer → Nat
  | stop    => 0
  | skip    => 1
  | descend => 2

theorem leeway_inj (h : answer.leeway = answer'.leeway) : answer = answer' := by
  cases answer <;> cases answer' <;> simp_all [leeway]

-- No other answer lets the walk do more. Where there are no answers the walk may do anything.
def IsMostPermissive (answer : Answer) (answers : List Answer) : Prop :=
  answers = [] ∧ answer = descend ∨ answer ∈ answers ∧ ∀ a ∈ answers, a.leeway ≤ answer.leeway

theorem IsMostPermissive.perm (h : answer.IsMostPermissive answers) (hp : answers.Perm answers') :
    answer.IsMostPermissive answers' := by
  cases h
  case inl h => exact .inl ⟨(h.left ▸ hp).nil_eq.symm, h.right⟩
  case inr h => exact .inr ⟨hp.mem_iff.mp h.left, fun a ha => h.right a (hp.mem_iff.mpr ha)⟩

theorem IsMostPermissive.unique (h : answer.IsMostPermissive answers) (h' : answer'.IsMostPermissive answers) :
    answer = answer' := by
  obtain ⟨rfl, rfl⟩ | ⟨hm, hl⟩ := h
  case inl =>
    obtain ⟨_, rfl⟩ | ⟨hm', _⟩ := h'
    case inl => rfl
    case inr => cases hm'
  case inr =>
    obtain ⟨rfl, _⟩ | ⟨hm', hl'⟩ := h'
    case inl => cases hm
    case inr => exact leeway_inj (Nat.le_antisymm (hl' _ hm) (hl _ hm'))

theorem IsMostPermissive.eq_descend (h : answer.IsMostPermissive answers) (hd : descend ∈ answers) :
    answer = descend := by
  obtain ⟨_, rfl⟩ | ⟨_, hl⟩ := h
  case inl => rfl
  case inr =>
    have hd := hl descend hd
    cases answer <;> simp_all [leeway]

theorem IsMostPermissive.of_merge {a b : Answer} (h : answer.IsMostPermissive (a.merge b :: answers)) :
    answer.IsMostPermissive (a :: b :: answers) := by
  obtain ⟨hn, _⟩ | ⟨hm, hl⟩ := h
  case inl => cases hn
  case inr =>
    rw [List.forall_mem_cons] at hl
    have hm' : a.merge b = a ∨ a.merge b = b := by cases a <;> cases b <;> simp [merge]
    have hl' : a.leeway ≤ (a.merge b).leeway ∧ b.leeway ≤ (a.merge b).leeway := by
      cases a <;> cases b <;> simp [merge, leeway]
    refine .inr ⟨by grind, ?_⟩
    simp only [List.forall_mem_cons]
    exact ⟨Nat.le_trans hl'.left hl.left, Nat.le_trans hl'.right hl.left, hl.right⟩

theorem mergeAll_isMostPermissive (answers : List Answer) : (mergeAll answers).IsMostPermissive answers := by
  cases answers
  case nil => exact .inl ⟨rfl, rfl⟩
  case cons a as =>
    rw [mergeAll]
    induction as generalizing a
    case nil          => exact .inr ⟨List.mem_singleton_self a, by simp⟩
    case cons b bs hi => exact (hi (a.merge b)).of_merge

end Answer

namespace Listener

def assorted {ι : Type} {σ : ι → Type} (listeners : ∀ i, Listener (σ i)) : Listener (Σ i, σ i) where
  enter call member :=
    let (answer, s) := (listeners member.1).enter call member.2
    (answer, ⟨member.1, s⟩)
  leave call member := ⟨member.1, (listeners member.1).leave call member.2⟩

def logged {σ : Type} (listener : Listener σ) : Listener (σ × List Event) where
  enter call state :=
    let (answer, s) := listener.enter call state.1
    (answer, s, state.2 ++ [.enter call])
  leave call state := (listener.leave call state.1, state.2 ++ [.leave call])

-- A listener that remembers all it has been told, and knows its answers in advance.
def directed (answer : List Event → Call → Answer) : Listener (List Event) where
  enter call past := (answer past call, past ++ [.enter call])
  leave call past := past ++ [.leave call]

def beside {σ ι : Type} {sort : ι → Type} (listener : Listener σ) (others : ∀ i, Listener (sort i)) :
    ∀ i : Option ι, Listener (i.elim σ sort)
  | none   => listener
  | some i => others i

variable {ι : Type} {sort : ι → Type} {listeners : ∀ i, Listener (sort i)}
variable {σ τ : Type} {listener : Listener σ} {listener' : Listener τ} {R : σ → τ → Prop}
variable {events log : List Event} {members : List σ} {s : σ}

theorem hear_each {event : Event} : listener.each.hear members event = members.map (listener.hear · event) := by
  cases event
  case enter => exact List.map_map
  case leave => rfl

theorem replay_each : listener.each.replay events members = members.map (listener.replay events) := by
  induction events generalizing members
  case nil => exact (List.map_id members).symm
  case cons event events hi =>
    rw [replay_cons, hear_each, hi, List.map_map]
    rfl

theorem replay_assorted {member : Σ i, sort i} :
    (assorted listeners).replay events member = ⟨member.1, (listeners member.1).replay events member.2⟩ := by
  induction events generalizing member
  case nil => rfl
  case cons event events hi =>
    rw [replay_cons, hi]
    cases event <;> rfl

theorem replay_logged : listener.logged.replay events (s, log) = (listener.replay events s, log ++ events) := by
  induction events generalizing s log
  case nil => simp
  case cons event events hi =>
    have hl : listener.logged.hear (s, log) event = (listener.hear s event, log ++ [event]) := by cases event <;> rfl
    rw [replay_cons, hl, hi, replay_cons, List.append_assoc, List.singleton_append]

theorem replay_directed {answer : List Event → Call → Answer} :
    (directed answer).replay events log = log ++ events := by
  induction events generalizing log
  case nil => simp
  case cons event events hi =>
    have hl : (directed answer).hear log event = log ++ [event] := by cases event <;> rfl
    rw [replay_cons, hl, hi, List.append_assoc, List.singleton_append]

theorem replay_group {members : List (Σ i, sort i)} : (assorted listeners).each.replay events members =
    members.map fun member => ⟨member.1, (listeners member.1).replay events member.2⟩ := by
  rw [replay_each]
  exact List.map_congr_left fun _ _ => replay_assorted

theorem answer_group {call : Call} {members : List (Σ i, sort i)} : ((assorted listeners).each.enter call members).1 =
    .mergeAll (members.map fun member => ((listeners member.1).enter call member.2).1) := by
  simp [each, assorted, Function.comp_def]

theorem Simulates.each (h : listener.Simulates listener' R) :
    listener.each.Simulates listener'.each (List.Forall₂ R) where
  answer hr v := by
    have ha := List.forall₂_map_left_iff.mpr (List.forall₂_map_right_iff.mpr (hr.imp fun _ _ hr => h.answer hr v))
    rw [List.forall₂_eq_eq_eq] at ha
    simpa [Listener.each, Function.comp_def] using congrArg Answer.mergeAll ha
  enter hr v := by
    simp only [Listener.each, List.forall₂_map_left_iff, List.forall₂_map_right_iff]
    exact hr.imp fun _ _ hr => h.enter hr v
  leave hr v := by
    simp only [Listener.each, List.forall₂_map_left_iff, List.forall₂_map_right_iff]
    exact hr.imp fun _ _ hr => h.leave hr v

theorem logged_simulates : listener.logged.Simulates listener fun state s => state.1 = s where
  answer hr _ := hr ▸ rfl
  enter hr _  := hr ▸ rfl
  leave hr _  := hr ▸ rfl

theorem each_perm : listener.each.Simulates listener.each List.Perm where
  answer hp v := by
    have hm := Answer.mergeAll_isMostPermissive
    exact ((hm _).perm ((hp.map _).map _)).unique (hm _)
  enter hp v := (hp.map _).map _
  leave hp v := hp.map _

theorem each_singleton (i : ι) :
    (assorted listeners).each.Simulates (listeners i) fun members s => members = [⟨i, s⟩] where
  answer hr _ := hr ▸ rfl
  enter hr _  := hr ▸ rfl
  leave hr _  := hr ▸ rfl

theorem directed_simulates : listener.Simulates
    (directed fun past call => (listener.enter call (listener.replay past s)).1)
    fun s' past => s' = listener.replay past s where
  answer hr _ := hr ▸ rfl
  enter hr _  := by simp [directed, replay_append, hear, hr]
  leave hr _  := by simp [directed, replay_append, hear, hr]

-- A listener that passes on all that it is told to another one, the state of which can be told from its own.
structure Hosts (host : Listener τ) (listener : Listener σ) (holds : τ → σ → Prop) : Prop where
  unique : ∀ {t s s'}, holds t s → holds t s' → s = s'
  enter : ∀ {t s}, holds t s → ∀ call, holds (host.enter call t).2 (listener.enter call s).2
  leave : ∀ {t s}, holds t s → ∀ call, holds (host.leave call t) (listener.leave call s)

namespace Hosts

theorem self : listener.Hosts listener Eq where
  unique h h' := h.symm.trans h'
  enter h _   := h ▸ rfl
  leave h _   := h ▸ rfl

theorem each (i : ι) (k : Nat) :
    (assorted listeners).each.Hosts (listeners i) fun members s => members[k]? = some ⟨i, s⟩ where
  unique h h' := by simpa [h] using h'
  enter h _   := by simp [Listener.each, h, assorted]
  leave h _   := by simp [Listener.each, h, assorted]

variable {holds : τ → σ → Prop} {t : τ}

theorem replay (h : listener'.Hosts listener holds) (hs : holds t s) :
    holds (listener'.replay events t) (listener.replay events s) := by
  induction events generalizing t s
  case nil => exact hs
  case cons event events hi =>
    cases event
    case enter call => exact hi (h.enter hs call)
    case leave call => exact hi (h.leave hs call)

theorem follow (h : listener'.Hosts listener holds) {route : Route} (hs : holds t s) :
    holds (listener'.follow route t).state (listener.replay (listener'.follow route t).trace s) := by
  rw [state_follow]
  exact h.replay hs

end Hosts

-- A member that wants to see everything has its way.
theorem Thorough.each {i : ι} {P : sort i → Prop} (h : (listeners i).Thorough P) (k : Nat) :
    (assorted listeners).each.Simulates (listeners i) fun members s => P s ∧ members[k]? = some ⟨i, s⟩ where
  answer := by
    rintro members s ⟨hs, hm⟩ v
    have hd : Answer.descend ∈ members.map fun m => ((listeners m.1).enter (.visit v) m.2).1 :=
      List.mem_map.mpr ⟨_, List.mem_of_getElem? hm, h.descends hs v⟩
    rw [answer_group, (Answer.mergeAll_isMostPermissive _).eq_descend hd, h.descends hs v]
  enter hr v := ⟨h.keeps hr.left v, (Hosts.each i k).enter hr.right _⟩
  leave hr v := ⟨(h.leaves v _).symm ▸ hr.left, (Hosts.each i k).leave hr.right _⟩

-- Whatever listeners are in a group, and wherever they walk: all of them are told the same, each of them ends up in the
-- state to which that takes it, in whatever order they are told, a listener that is the only one is told what it would
-- be told without a group, and at every visit the walk goes by the most permissive of the answers.
theorem members_share_one_walk (listeners : ∀ i, Listener (sort i)) (route : Route) (members : List (Σ i, sort i)) :
    let group := (assorted listeners).each
    let walked := group.follow route members
    let outcome (member : Σ i, sort i) : Σ i, sort i := ⟨member.1, (listeners member.1).replay walked.trace member.2⟩
    ((assorted listeners).logged.each.follow route (members.map (·, []))).state
      = members.map (fun member => (outcome member, walked.trace))
    ∧ walked.state = members.map outcome
    ∧ (∀ members', members'.Perm members →
      group.follow route members' = ⟨walked.answer, members'.map outcome, walked.trace⟩)
    ∧ (∀ i s, group.follow route [⟨i, s⟩] =
      let alone := (listeners i).follow route s
      ⟨alone.answer, [⟨i, alone.state⟩], alone.trace⟩)
    ∧ ∃ answer : List Event → Call → Answer,
      (∀ past call, (answer past call).IsMostPermissive
        (members.map fun m => ((listeners m.1).enter call ((listeners m.1).replay past m.2)).1))
      ∧ (directed answer).follow route [] = ⟨walked.answer, walked.trace, walked.trace⟩ := by
  intro group walked outcome
  refine ⟨?told, ?folded, ?permuted, ?alone, ?answered⟩
  case told =>
    have hl : List.Forall₂ (fun state s => state.1 = s) (members.map fun m => (m, ([] : List Event))) members := by
      rw [List.forall₂_map_left_iff]
      exact List.forall₂_same.mpr fun _ _ => rfl
    have hw := (@logged_simulates _ (assorted listeners)).each.follow route hl
    rw [state_follow, hw.trace, replay_each, List.map_map]
    refine List.map_congr_left fun m _ => ?_
    rw [Function.comp_apply, replay_logged, replay_assorted, List.nil_append]
  case folded => exact state_follow.trans replay_group
  case permuted =>
    intro members' hp
    have hw : (group.follow route members').Agrees List.Perm walked := each_perm.follow route hp
    refine Walked.ext hw.answer ?_ hw.trace
    rw [state_follow, hw.trace]
    exact replay_group
  case alone =>
    intro i s
    have hw : (group.follow route [⟨i, s⟩]).Agrees _ ((listeners i).follow route s) :=
      (each_singleton i).follow route rfl
    exact Walked.ext hw.answer hw.state hw.trace
  case answered =>
    have hw := (@directed_simulates _ group members).follow route (t := []) rfl
    refine ⟨_, fun past call => ?most, Walked.ext hw.answer.symm ?past hw.trace.symm⟩
    case most =>
      rw [answer_group, replay_group, List.map_map]
      exact Answer.mergeAll_isMostPermissive _
    case past =>
      rw [state_follow, replay_directed, ← hw.trace]
      rfl

-- One member would rather skip types, but is told of the constant because the other one is not content with that.
theorem members_share_one_walk_skipped :
    let listeners (skips : Bool) : Listener Nat := {
      enter call count := (if skips && call.ref.kind == .type then .skip else .descend, count + 1)
      leave _ count := count }
    let route := Route.packages
      ((Registry.ofConfig {}).perform [.build (.type .cls) "app.Engine", .edit (.newConstant ⟨0⟩ "LIMIT")])
    ([⟨true, 0⟩, ⟨false, 0⟩] : List (Σ _ : Bool, Nat)).Perm [⟨false, 0⟩, ⟨true, 0⟩]
    ∧ ((assorted listeners).each.follow route [⟨true, 0⟩, ⟨false, 0⟩]).state = [⟨true, 3⟩, ⟨false, 3⟩] := by
  intro listeners route
  have hp : ([⟨true, 0⟩, ⟨false, 0⟩] : List (Σ _ : Bool, Nat)).Perm [⟨false, 0⟩, ⟨true, 0⟩] := .swap _ _ _
  obtain ⟨_, _, hw, _⟩ := members_share_one_walk listeners route [⟨false, 0⟩, ⟨true, 0⟩]
  refine ⟨hp, ?_⟩
  rw [hw _ hp]
  decide +kernel

end Listener
end PackageCoupling
