import PackageCoupling.Proofs.Registry.Run
import PackageCoupling.Proofs.Walk.Simulation

namespace PackageCoupling

-- Events in which every node that is entered is also left, and not before everything that is entered in between.
inductive Nested : List Event → Prop
  | nil : Nested []
  | node (call : Call) {inner rest : List Event} (hi : Nested inner) (hr : Nested rest) :
    Nested (.enter call :: inner ++ .leave call :: rest)

-- Events that break off below some nodes, from the outside in, that have been entered and not been left.
inductive Unfinished : List Call → List Event → Prop
  | done {events : List Event} (h : Nested events) : Unfinished [] events
  | within (call : Call) {path : List Call} {before rest : List Event} (hb : Nested before)
    (hr : Unfinished path rest) : Unfinished (call :: path) (before ++ .enter call :: rest)

namespace Nested

variable {first second : List Event}

theorem append (hf : Nested first) (hs : Nested second) : Nested (first ++ second) := by
  induction hf
  case nil => exact hs
  case node call inner rest hi _ _ ihr =>
    have := Nested.node call hi ihr
    simpa using this

-- Nested events do not leave a node that was entered before them. So where a node is left is found in one way only.
theorem leave_unique {call call' : Call} {rest rest' : List Event} (hf : Nested first) (hs : Nested second)
    (he : first ++ .leave call :: rest = second ++ .leave call' :: rest') : first = second ∧ rest = rest' := by
  induction hf generalizing second call call' rest rest'
  case nil =>
    cases hs
    case nil  => simpa using (List.cons.inj he).right
    case node => simp at he
  case node entered inner after hi ha ihi iha =>
    cases hs
    case nil => simp at he
    case node entered' inner' after' hi' ha' =>
      simp only [List.cons_append, List.append_assoc, List.cons.injEq, Event.enter.injEq] at he
      obtain ⟨rfl, he⟩ := he
      obtain ⟨rfl, hr⟩ := ihi hi' he
      obtain ⟨rfl, rfl⟩ := iha ha' hr
      exact ⟨rfl, rfl⟩

end Nested

theorem Unfinished.append {path : List Call} {before events : List Event} (h : Unfinished path events)
    (hb : Nested before) : Unfinished path (before ++ events) := by
  cases h
  case done h => exact .done (hb.append h)
  case within call path _ rest hb' hr =>
    rw [← List.append_assoc]
    exact .within call (hb.append hb') hr

def Visit.around (visit : Visit) (inner : List Event) : List Event :=
  .enter (.visit visit) :: inner ++ [.leave (.visit visit)]

namespace Graph

def callableEvents (graph : Graph) (callable : Callable) : List Event :=
  Visit.around (.callable callable)
    ((callable.parameters.filterMap graph.parameter?).flatMap fun p => Visit.around (.parameter p) [])

def typeEvents (graph : Graph) (type : TypeDecl) : List Event :=
  Visit.around (.type type)
    ((type.constants.filterMap graph.constant?).flatMap (fun c => Visit.around (.constant c) [])
      ++ (type.properties.filterMap graph.property?).flatMap (fun p => Visit.around (.property p) [])
      ++ (type.methods.filterMap graph.callable?).flatMap graph.callableEvents)

def packageEvents (graph : Graph) (package : Package) : List Event :=
  let types := package.types.filterMap graph.type?
  Visit.around (.package package)
    ((types.filter (·.kind = .cls)).flatMap graph.typeEvents
      ++ (types.filter (·.kind = .interface)).flatMap graph.typeEvents
      ++ (types.filter (·.kind = .trait)).flatMap graph.typeEvents
      ++ (package.functions.filterMap graph.callable?).flatMap graph.callableEvents)

end Graph

-- Packages by age, which is to say by id, without the default package if there is nothing in it.
def Registry.packagesByAge (registry : Registry) : List Package :=
  ((List.range registry.graph.packages.next.val).filterMap fun n => registry.graph.package? ⟨n⟩).filter fun p =>
    ¬(p.id = registry.defaultPackage ∧ p.types = [] ∧ p.functions = [])

def Route.events : Route → List Event
  | packages registry   => registry.packagesByAge.flatMap registry.graph.packageEvents
  | package graph node  => graph.packageEvents node
  | type graph node     => graph.typeEvents node
  | callable graph node => graph.callableEvents node

namespace Tree

mutual

def events : Tree → List Event
  | .node visit children => visit.around (eventsAll children)

def eventsAll : List Tree → List Event
  | []            => []
  | tree :: trees => tree.events ++ eventsAll trees

end

theorem eventsAll_eq_flatMap {trees : List Tree} : eventsAll trees = trees.flatMap events := by
  induction trees
  case nil               => rfl
  case cons tree rest hi => rw [eventsAll, hi, List.flatMap_cons]

@[simp]
theorem events_leaf {visit : Visit} : (leaf visit).events = visit.around [] :=
  rfl

mutual

theorem nested_events : ∀ tree : Tree, Nested tree.events
  | .node visit children => .node (.visit visit) (nested_eventsAll children) .nil

theorem nested_eventsAll : ∀ trees : List Tree, Nested (eventsAll trees)
  | []            => .nil
  | tree :: trees => (nested_events tree).append (nested_eventsAll trees)

end

end Tree

namespace Graph

variable {graph : Graph}

theorem events_callableTree {callable : Callable} :
    (graph.callableTree callable).events = graph.callableEvents callable := by
  simp only [callableTree, Tree.events, callableEvents, Tree.eventsAll_eq_flatMap, List.flatMap_map, Tree.events_leaf]

theorem events_typeTree {type : TypeDecl} : (graph.typeTree type).events = graph.typeEvents type := by
  simp only [typeTree, Tree.events, typeEvents, Tree.eventsAll_eq_flatMap, List.flatMap_append, List.flatMap_map,
    Tree.events_leaf, events_callableTree]

theorem events_packageTree {package : Package} : (graph.packageTree package).events = graph.packageEvents package := by
  simp [packageTree, Tree.events, packageEvents, Tree.eventsAll_eq_flatMap, List.flatMap_map, events_callableTree,
    events_typeTree, TypeKind.all, typesOfKind]

end Graph

theorem Registry.packages_eq_packagesByAge {registry : Registry} : registry.packages = registry.packagesByAge := by
  rw [packages, packagesByAge, Arena.toList_eq_filterMap]
  refine List.filter_congr fun p _ => Bool.eq_iff_iff.mpr ?_
  simp [Package.isEmpty]

theorem Route.events_eq_eventsAll {route : Route} : route.events = Tree.eventsAll route.trees := by
  cases route <;> simp [events, trees, Tree.eventsAll_eq_flatMap, Registry.forest, List.flatMap_map,
    Graph.events_callableTree, Graph.events_typeTree, Graph.events_packageTree, Registry.packages_eq_packagesByAge]

namespace Listener

variable {σ : Type}

-- What becomes of the events of a walk if they are told to a listener that may interfere. The nested events that
-- follow when a node is entered and before it is left are those below the node.
inductive Attends (listener : Listener σ) : List Event → σ → Walked σ → Prop
  | done {s : σ} : Attends listener [] s ⟨.descend, s, []⟩
  | leave {call : Call} {rest : List Event} {s : σ} {walked : Walked σ}
    (hr : Attends listener rest (listener.leave call s) walked) :
    Attends listener (.leave call :: rest) s { walked with trace := .leave call :: walked.trace }
  | descend {call : Call} {rest : List Event} {s s' : σ} {walked : Walked σ}
    (he : listener.enter call s = (.descend, s')) (hr : Attends listener rest s' walked) :
    Attends listener (.enter call :: rest) s { walked with trace := .enter call :: walked.trace }
  | skip {call : Call} {inner rest : List Event} {s s' : σ} {walked : Walked σ}
    (he : listener.enter call s = (.skip, s')) (hi : Nested inner)
    (hr : Attends listener (.leave call :: rest) s' walked) :
    Attends listener (.enter call :: inner ++ .leave call :: rest) s
      { walked with trace := .enter call :: walked.trace }
  | stop {call : Call} {rest : List Event} {s s' : σ} (he : listener.enter call s = (.stop, s')) :
    Attends listener (.enter call :: rest) s ⟨.stop, s', [.enter call]⟩

def answers (listener : Listener σ) : List Event → σ → List Answer
  | [], _                  => []
  | .enter call :: rest, s => (listener.enter call s).1 :: listener.answers rest (listener.enter call s).2
  | .leave call :: rest, s => listener.answers rest (listener.leave call s)

variable {listener : Listener σ} {events before after : List Event} {s : σ} {walked walked' : Walked σ}

theorem answers_append :
    listener.answers (before ++ after) s
      = listener.answers before s ++ listener.answers after (listener.replay before s) := by
  induction before generalizing s
  case nil => rfl
  case cons event rest hi => cases event <;> simp [answers, hear, hi]

theorem Attends.unique (h : listener.Attends events s walked) (h' : listener.Attends events s walked') :
    walked = walked' := by
  induction h generalizing walked'
  case done =>
    cases h'
    rfl
  case leave hi =>
    cases h'
    case leave hr => rw [hi hr]
  case descend he _ hi =>
    cases h'
    case descend hr he' =>
      obtain rfl := (Prod.mk.inj (he.symm.trans he')).right
      rw [hi hr]
    case skip he' => simp [he] at he'
    case stop he' => simp [he] at he'
  case skip call inner rest s s' walked he hn _ hi =>
    generalize hf : Event.enter call :: inner ++ .leave call :: rest = full at h'
    cases h'
    case done  => simp at hf
    case leave => simp at hf
    case descend he' =>
      simp only [List.cons_append, List.cons.injEq, Event.enter.injEq] at hf
      simp [← hf.left, he] at he'
    case stop he' =>
      simp only [List.cons_append, List.cons.injEq, Event.enter.injEq] at hf
      simp [← hf.left, he] at he'
    case skip hn' hr he' =>
      -- Both leave out the same, because there is only one place at which the node is left.
      simp only [List.cons_append, List.cons.injEq, Event.enter.injEq] at hf
      obtain ⟨rfl, hl⟩ := hf
      obtain ⟨rfl, rfl⟩ := hn.leave_unique hn' hl
      obtain rfl := (Prod.mk.inj (he.symm.trans he')).right
      rw [hi hr]
  case stop he =>
    cases h'
    case stop he'    => rw [(Prod.mk.inj (he.symm.trans he')).right]
    case descend he' => simp [he] at he'
    case skip he'    => simp [he] at he'

-- A walk and what comes after it, which nothing does once it has been stopped.
def join (walked next : Walked σ) : Walked σ :=
  match walked.answer with
  | .stop => walked
  | _     => { next with trace := walked.trace ++ next.trace }

theorem join_of_stop {walked next : Walked σ} (h : walked.answer = .stop) : join walked next = walked := by
  rw [join, h]

theorem join_of_ne_stop {walked next : Walked σ} (h : walked.answer ≠ .stop) :
    join walked next = { next with trace := walked.trace ++ next.trace } := by
  rw [join]
  split
  case h_1 hs => exact absurd hs h
  case h_2    => rfl

theorem join_assoc {first second third : Walked σ} :
    join (join first second) third = join first (join second third) := by
  simp only [join]
  cases hf : first.answer <;> cases hs : second.answer <;> simp [hf, hs]

theorem walk_of_descend {v : Visit} {children : List Tree} {s' : σ}
    (h : listener.enter (.visit v) s = (.descend, s')) :
    listener.walk (.node v children) s = join ⟨.descend, s', [.enter (.visit v)]⟩ (join (listener.walkAll children s')
      ⟨.descend, listener.leave (.visit v) (listener.walkAll children s').state, [.leave (.visit v)]⟩) := by
  rw [walk, h]
  cases ha : (listener.walkAll children s').answer <;> simp [join, ha]

theorem walkAll_cons {tree : Tree} {trees : List Tree} :
    listener.walkAll (tree :: trees) s
      = join (listener.walk tree s) (listener.walkAll trees (listener.walk tree s).state) := by
  rw [walkAll]
  rfl

-- A walk makes of the events of its trees what its listener makes of them, whatever comes after them.
mutual

theorem attends_walk : ∀ (tree : Tree) (s : σ) {rest : List Event} {next : Walked σ},
    ((listener.walk tree s).answer ≠ .stop → listener.Attends rest (listener.walk tree s).state next) →
    listener.Attends (tree.events ++ rest) s (join (listener.walk tree s) next)
  | .node v children, s, rest, next, h => by
    have he : (Tree.node v children).events ++ rest
        = .enter (.visit v) :: Tree.eventsAll children ++ .leave (.visit v) :: rest := by
      simp [Tree.events, Visit.around]
    rw [he]
    match hr : listener.enter (.visit v) s with
    | (.stop, s') =>
      rw [walk, hr]
      exact .stop hr
    | (.skip, s') =>
      rw [walk, hr] at h ⊢
      exact .skip hr (Tree.nested_eventsAll children) (.leave (h (by simp)))
    | (.descend, s') =>
      rw [walk_of_descend hr] at h ⊢
      rw [join_assoc, join_assoc]
      refine .descend hr (attends_walkAll children s' fun hs => .leave ?_)
      rw [join_of_ne_stop hs] at h
      exact h (by simp [join])

theorem attends_walkAll : ∀ (trees : List Tree) (s : σ) {rest : List Event} {next : Walked σ},
    ((listener.walkAll trees s).answer ≠ .stop → listener.Attends rest (listener.walkAll trees s).state next) →
    listener.Attends (Tree.eventsAll trees ++ rest) s (join (listener.walkAll trees s) next)
  | [], s, rest, next, h => by
    rw [walkAll] at h ⊢
    exact h (by simp)
  | tree :: trees, s, rest, next, h => by
    rw [walkAll_cons] at h ⊢
    rw [Tree.eventsAll, List.append_assoc, join_assoc]
    refine attends_walk tree s fun hs => ?_
    rw [join_of_ne_stop hs] at h
    exact attends_walkAll trees _ h

end

-- How a walk ends, against the events that it was to tell. It ends because there is nothing left to tell, or in a
-- node at which the listener said stop for the first time.
inductive Ending (listener : Listener σ) (events : List Event) (s : σ) (walked : Walked σ) : Prop
  | finished (ha : walked.answer = .descend) (hn : Nested walked.trace)
    (hs : .stop ∉ listener.answers walked.trace s)
  | stopped {path : List Call} {before ahead : List Event} {call : Call} (ha : walked.answer = .stop)
    (ht : walked.trace = before ++ [.enter call]) (he : ahead ++ [.enter call] <+: events)
    (hb : Unfinished path before) (hd : Unfinished path ahead)
    (hs : .stop ∉ listener.answers before s) (hc : (listener.enter call (listener.replay before s)).1 = .stop)

mutual

theorem ending_walk : ∀ (tree : Tree) (s : σ), listener.Ending tree.events s (listener.walk tree s)
  | .node v children, s => by
    match hr : listener.enter (.visit v) s with
    | (.stop, s') =>
      rw [walk, hr]
      exact .stopped rfl rfl (List.prefix_append _ _) (.done .nil) (.done .nil) (by simp [answers]) (by simp [hr])
    | (.skip, s') =>
      rw [walk, hr]
      exact .finished rfl (.node (.visit v) .nil .nil) (by simp [answers, hr])
    | (.descend, s') =>
      have hw := ending_walkAll children s'
      rw [walk_of_descend hr]
      cases hw
      case finished ha hn hs =>
        have hne : (listener.walkAll children s').answer ≠ .stop := by simp [ha]
        rw [join_of_ne_stop hne]
        refine .finished rfl (.node (.visit v) hn .nil) ?_
        simp [join, answers, answers_append, hr, hs]
      case stopped path before ahead call ha ht he hb hd hs hc =>
        rw [join_of_stop ha]
        have he' := he.trans (List.prefix_append _ [.leave (.visit v)])
        refine .stopped ha (congrArg _ ht) (List.cons_prefix_cons.mpr ⟨rfl, he'⟩) (.within (.visit v) .nil hb)
          (.within (.visit v) .nil hd) ?_ ?_
        case refine_1 => simp [answers, hr, hs]
        case refine_2 => simp [hear, hr, hc]

theorem ending_walkAll : ∀ (trees : List Tree) (s : σ),
    listener.Ending (Tree.eventsAll trees) s (listener.walkAll trees s)
  | [], s => by
    rw [walkAll]
    exact .finished rfl .nil (by simp [answers])
  | tree :: trees, s => by
    have hw := ending_walk tree s
    have hs : (listener.walk tree s).state = _ := state_walk tree s
    rw [walkAll_cons, Tree.eventsAll]
    cases hw
    case stopped path before ahead call ha ht he hb hd hs hc =>
      rw [join_of_stop ha]
      exact .stopped ha ht (he.trans (List.prefix_append _ _)) hb hd hs hc
    case finished ha hn hs' =>
      have hw' := ending_walkAll trees (listener.walk tree s).state
      have hne : (listener.walk tree s).answer ≠ .stop := by simp [ha]
      rw [join_of_ne_stop hne]
      rw [hs] at hw' ⊢
      cases hw'
      case finished ha hn' hs'' =>
        refine .finished ha (hn.append hn') ?_
        simp [answers_append, hs', hs'']
      case stopped path before ahead call ha ht he hb hd hs'' hc =>
        rw [ht, ← List.append_assoc]
        refine .stopped ha rfl ?_ (hb.append hn) (hd.append (Tree.nested_events tree)) ?_ ?_
        case refine_1 =>
          rw [List.append_assoc]
          exact (List.prefix_append_right_inj _).mpr he
        case refine_2 => simp [answers_append, hs', hs'']
        case refine_3 => rw [replay_append, hc]

end

theorem ending_follow (listener : Listener σ) (route : Route) (s : σ) :
    listener.Ending route.events s (listener.follow route s) := by
  rw [follow_eq_walkAll, Route.events_eq_eventsAll]
  exact ending_walkAll route.trees s

theorem attends_follow {route : Route} : listener.Attends route.events s (listener.follow route s) := by
  have hw : listener.Attends _ s _ := attends_walkAll route.trees s fun _ => .done
  have hj : join (listener.follow route s) ⟨.descend, (listener.follow route s).state, []⟩
      = listener.follow route s := by
    cases ending_follow listener route s
    case stopped ha _ _ _ _ _ _ => exact join_of_stop ha
    case finished ha _ _ =>
      have hne : (listener.follow route s).answer ≠ .stop := by simp [ha]
      rw [join_of_ne_stop hne, List.append_nil, ← ha]
  rwa [List.append_nil, ← Route.events_eq_eventsAll, ← follow_eq_walkAll, hj] at hw

-- A walk is what its listener makes of the events of a walk that nobody interferes with. Unless the listener has said
-- stop, everything that was entered has been left. If it has, the walk ends right there, in the midst of nodes that
-- have been entered and are not left. That a node was skipped is never how a walk ends.
theorem walks_obey_listeners (listener : Listener σ) (route : Route) (s : σ) :
    let walked := listener.follow route s
    (∀ walked', listener.Attends route.events s walked' ↔ walked' = walked)
      ∧ (.stop ∉ listener.answers walked.trace s → walked.answer = .descend ∧ Nested walked.trace)
      ∧ (.stop ∈ listener.answers walked.trace s → walked.answer = .stop
        ∧ ∃ before call, walked.trace = before ++ [.enter call] ∧ .stop ∉ listener.answers before s
          ∧ ∃ path ahead, ahead ++ [.enter call] <+: route.events ∧ Unfinished path ahead ∧ Unfinished path before)
      ∧ walked.answer ≠ .skip := by
  intro walked
  have hu (walked' : Walked σ) : listener.Attends route.events s walked' ↔ walked' = walked := by
    constructor
    case mp  => exact fun h => h.unique attends_follow
    case mpr => exact fun h => h ▸ attends_follow
  refine ⟨hu, ?_⟩
  cases ending_follow listener route s
  case finished ha hn hs =>
    exact ⟨fun _ => ⟨ha, hn⟩, fun h => absurd h hs, by simp [walked, ha]⟩
  case stopped path before ahead call ha ht he hb hd hs hc =>
    have hm : .stop ∈ listener.answers walked.trace s := by simp [walked, ht, answers_append, answers, hc]
    exact ⟨fun h => absurd hm h, fun _ => ⟨ha, before, call, ht, hs, path, ahead, he, hd, hb⟩, by simp [walked, ha]⟩

-- A listener that skips the first type and stops at the constant of the second one hears nothing of the constant of the
-- first one, and of the end of neither the second type nor the package.
theorem walks_obey_listeners_stopped :
    let listener : Listener Nat := {
      enter _ count := (if count = 1 then .skip else if count = 3 then .stop else .descend, count + 1)
      leave _ count := count }
    let route := Route.packages ((Registry.ofConfig {}).perform [
      .build (.type .cls) "app.Engine", .edit (.newConstant ⟨0⟩ "LIMIT"),
      .build (.type .cls) "app.Bolt", .edit (.newConstant ⟨1⟩ "WIDTH")])
    let walked := listener.follow route 0
    .stop ∈ listener.answers walked.trace 0 ∧ route.events.length = 10 ∧ walked.trace.length = 5
    ∧ walked.answer = .stop ∧ ∃ before call, walked.trace = before ++ [.enter call]
      ∧ ∃ path ahead, ahead ++ [.enter call] <+: route.events ∧ Unfinished path ahead ∧ Unfinished path before := by
  intro listener route walked
  obtain ⟨hs, he, ht⟩ : .stop ∈ listener.answers walked.trace 0 ∧ route.events.length = 10
      ∧ walked.trace.length = 5 := by
    decide +kernel
  obtain ⟨ha, before, call, hw, _, hp⟩ := (walks_obey_listeners listener route 0).right.right.left hs
  exact ⟨hs, he, ht, ha, before, call, hw, hp⟩

end Listener
end PackageCoupling
