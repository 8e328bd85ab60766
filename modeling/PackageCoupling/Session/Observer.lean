import PackageCoupling.Metrics.Analyzer
import PackageCoupling.Walk.Probe

namespace PackageCoupling

inductive Observer where
  -- The analyzer in a numbered slot.
  | analyzer (slot : Nat) (state : Analyzer)
  | probe (state : Probe)
  | group (members : List Observer)

namespace Observer

mutual

def enter (graph : Graph) (call : Call) : Observer → Answer × Observer
  | analyzer slot state =>
    let (answer, state) := (Analyzer.listener graph).enter call state
    (answer, analyzer slot state)
  | probe state =>
    let (answer, state) := state.enter graph call
    (answer, probe state)
  | group members =>
    let (answers, members) := enterAll graph call members
    (Answer.mergeAll answers, group members)

def enterAll (graph : Graph) (call : Call) : List Observer → List Answer × List Observer
  | [] => ([], [])
  | member :: members =>
    let (answer, member) := enter graph call member
    let (answers, members) := enterAll graph call members
    (answer :: answers, member :: members)

end

-- Observers change only on entering a node.
def listener (graph : Graph) : Listener Observer where
  enter := enter graph
  leave _ observer := observer

theorem enterAll_eq (graph : Graph) (call : Call) (members : List Observer) :
    enterAll graph call members
      = ((members.map (enter graph call)).map (·.1), (members.map (enter graph call)).map (·.2)) := by
  induction members
  case nil => rfl
  case cons member members ih => simp [enterAll, ih]

theorem enter_group (graph : Graph) (call : Call) (members : List Observer) :
    (listener graph).enter call (group members)
      = ((listener graph).each.enter call members).map id group := by
  simp [listener, Listener.each, enter, enterAll_eq]

-- What the probes among the observers note about an event, each note after the position of the probe.
-- Positions of nested groups are joined by dots.
mutual

def notes (graph : Graph) (event : Event) (position : String) : Observer → List String
  | analyzer _ _ => []
  | probe state  =>
    let note := match event with
      | .enter call => state.note graph "+" call
      | .leave call => state.note graph "-" call
    (note.map fun note => position ++ " " ++ note).toList
  | group members => notesOfAll graph event (position ++ ".") 0 members

def notesOfAll (graph : Graph) (event : Event) (position : String) (index : Nat) :
    List Observer → List String
  | [] => []
  | member :: members =>
    notes graph event (position ++ toString index) member
      ++ notesOfAll graph event position (index + 1) members

end

mutual

def load (states : Nat → Analyzer) : Observer → Observer
  | analyzer slot _ => analyzer slot (states slot)
  | probe state     => probe state
  | group members   => group (loadAll states members)

def loadAll (states : Nat → Analyzer) : List Observer → List Observer
  | []                => []
  | member :: members => load states member :: loadAll states members

end

mutual

def analyzers : Observer → List (Nat × Analyzer)
  | analyzer slot state => [(slot, state)]
  | probe _             => []
  | group members       => analyzersOfAll members

def analyzersOfAll : List Observer → List (Nat × Analyzer)
  | []                => []
  | member :: members => analyzers member ++ analyzersOfAll members

end

end Observer
end PackageCoupling
