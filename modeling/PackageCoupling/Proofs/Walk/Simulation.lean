import PackageCoupling.Walk.Listener

namespace PackageCoupling

-- Where a walk starts: from all packages of a registry, or from one node.
inductive Route where
  | packages (registry : Registry)
  | package (graph : Graph) (node : Package)
  | type (graph : Graph) (node : TypeDecl)
  | callable (graph : Graph) (node : Callable)

namespace Route

def graph : Route → Graph
  | packages registry => registry.graph
  | package graph _   => graph
  | type graph _      => graph
  | callable graph _  => graph

def trees : Route → List Tree
  | packages registry   => registry.forest
  | package graph node  => [graph.packageTree node]
  | type graph node     => [graph.typeTree node]
  | callable graph node => [graph.callableTree node]

end Route

-- Two walks go the same way and end in related states.
structure Walked.Agrees {σ τ : Type} (R : σ → τ → Prop) (walked : Walked σ) (walked' : Walked τ) : Prop where
  answer : walked.answer = walked'.answer
  trace : walked.trace = walked'.trace
  state : R walked.state walked'.state

namespace Listener

variable {σ τ : Type} {listener : Listener σ} {listener' : Listener τ} {R : σ → τ → Prop}
variable {route : Route} {tree : Tree} {trees : List Tree} {s : σ} {t : τ}

def follow (listener : Listener σ) : Route → σ → Walked σ
  | .packages registry   => registry.walk listener
  | .package graph node  => listener.walk (graph.packageTree node)
  | .type graph node     => listener.walk (graph.typeTree node)
  | .callable graph node => listener.walk (graph.callableTree node)

def hear (listener : Listener σ) (s : σ) : Event → σ
  | .enter call => (listener.enter call s).2
  | .leave call => listener.leave call s

def replay (listener : Listener σ) (events : List Event) (s : σ) : σ :=
  events.foldl listener.hear s

@[simp]
theorem replay_nil : listener.replay [] s = s :=
  rfl

@[simp]
theorem replay_cons {event : Event} {events : List Event} :
    listener.replay (event :: events) s = listener.replay events (listener.hear s event) :=
  rfl

theorem replay_append {before after : List Event} :
    listener.replay (before ++ after) s = listener.replay after (listener.replay before s) :=
  List.foldl_append

theorem answer_walk : (listener.walk tree s).answer ≠ .stop → (listener.walk tree s).answer = .descend := by
  cases tree
  case node v children =>
    rw [walk]
    split
    case h_1 => exact fun h => absurd rfl h
    case h_2 => exact fun _ => rfl
    case h_3 =>
      simp only
      split
      case h_1 ha => exact fun h => absurd ha h
      case h_2    => exact fun _ => rfl

theorem walkAll_singleton : listener.walkAll [tree] s = listener.walk tree s := by
  rw [walkAll]
  simp only
  split
  case h_1 => rfl
  case h_2 ha =>
    rw [walkAll]
    ext1
    case answer => exact (answer_walk ha).symm
    case state  => rfl
    case trace  => exact List.append_nil _

theorem follow_eq_walkAll : listener.follow route s = listener.walkAll route.trees s := by
  cases route
  case packages => rfl
  all_goals exact walkAll_singleton.symm

-- After a walk a listener is in the state that the events of the walk take it to.
mutual

theorem state_walk : ∀ (tree : Tree) (s : σ),
    (listener.walk tree s).state = listener.replay (listener.walk tree s).trace s
  | .node v children, s => by
    rw [walk]
    split
    case h_1 hr => simp [hear, hr]
    case h_2 hr => simp [hear, hr]
    case h_3 hr =>
      have hs := state_walkAll children (listener.enter (.visit v) s).2
      simp only [hr] at hs ⊢
      split
      case h_1 => simp [hear, hr, hs]
      case h_2 => simp [hear, hr, hs, replay_append]

theorem state_walkAll : ∀ (trees : List Tree) (s : σ),
    (listener.walkAll trees s).state = listener.replay (listener.walkAll trees s).trace s
  | [], s => rfl
  | tree :: trees, s => by
    have hs := state_walk tree s
    rw [walkAll]
    simp only
    split
    case h_1 => exact hs
    case h_2 => simp only [replay_append, ← hs, state_walkAll trees]

end

theorem state_follow : (listener.follow route s).state = listener.replay (listener.follow route s).trace s := by
  rw [follow_eq_walkAll]
  exact state_walkAll route.trees s

-- In related states two listeners give the same answers to visits, and their states stay related.
structure Simulates (listener : Listener σ) (listener' : Listener τ) (R : σ → τ → Prop) : Prop where
  answer : ∀ {s t}, R s t → ∀ v, (listener.enter (.visit v) s).1 = (listener'.enter (.visit v) t).1
  enter : ∀ {s t}, R s t → ∀ v, R (listener.enter (.visit v) s).2 (listener'.enter (.visit v) t).2
  leave : ∀ {s t}, R s t → ∀ v, R (listener.leave (.visit v) s) (listener'.leave (.visit v) t)

mutual

theorem Simulates.walk (h : listener.Simulates listener' R) : ∀ (tree : Tree) {s : σ} {t : τ}, R s t →
    (listener.walk tree s).Agrees R (listener'.walk tree t)
  | .node v children, s, t, hr => by
    have ha := h.answer hr v
    have he := h.enter hr v
    rw [Listener.walk, Listener.walk]
    generalize listener.enter (.visit v) s = entered, listener'.enter (.visit v) t = entered' at ha he ⊢
    obtain ⟨a, s'⟩ := entered
    obtain ⟨a', t'⟩ := entered'
    obtain rfl : a = a' := ha
    cases a
    case stop => exact ⟨rfl, rfl, he⟩
    case skip => exact ⟨rfl, rfl, h.leave he v⟩
    case descend =>
      have hw := h.walkAll children he
      simp only [hw.answer, hw.trace]
      split
      case h_1 => exact ⟨rfl, rfl, hw.state⟩
      case h_2 => exact ⟨rfl, rfl, h.leave hw.state v⟩

theorem Simulates.walkAll (h : listener.Simulates listener' R) : ∀ (trees : List Tree) {s : σ} {t : τ}, R s t →
    (listener.walkAll trees s).Agrees R (listener'.walkAll trees t)
  | [], s, t, hr => ⟨rfl, rfl, hr⟩
  | tree :: trees, s, t, hr => by
    have hw := h.walk tree hr
    rw [Listener.walkAll, Listener.walkAll]
    simp only [hw.answer, hw.trace]
    split
    case h_1 => exact ⟨hw.answer, hw.trace, hw.state⟩
    case h_2 =>
      have hw' := h.walkAll trees hw.state
      exact ⟨hw'.answer, congrArg _ hw'.trace, hw'.state⟩

end

theorem Simulates.follow (h : listener.Simulates listener' R) (route : Route) (hr : R s t) :
    (listener.follow route s).Agrees R (listener'.follow route t) := by
  rw [follow_eq_walkAll, follow_eq_walkAll]
  exact h.walkAll route.trees hr

end Listener
end PackageCoupling
