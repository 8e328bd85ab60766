import PackageCoupling.Registry.Build
import PackageCoupling.Session.Observer

namespace PackageCoupling

structure Session where
  registry : Registry
  analyzers : List (Nat × Analyzer) := []

-- Whom a walk is for: one observer, or several of them side by side.
inductive Audience where
  | single (observer : Observer)
  | several (observers : List Observer)

namespace Audience

def observer : Audience → Observer
  | single observer   => observer
  | several observers => .group observers

def notes (graph : Graph) (event : Event) : Audience → List String
  | single observer   => observer.notes graph event "0"
  | several observers => Observer.notesOfAll graph event "" 0 observers

end Audience

structure Minutes where
  answer : Answer
  notes : List String

namespace Session

-- Where no configuration is given the default one is used.
def start (config : Option Config) : Except Fault Session := do
  return { registry := ← Registry.create (config.getD {}) }

-- Goes on with a new registry and the same analyzers.
def renew (config : Option Config) (session : Session) : Except Fault Session := do
  return { session with registry := ← Registry.create (config.getD {}) }

def run (op : Registry.Op) (session : Session) : Except Fault Graph.Outcome × Session :=
  match op.run session.registry with
  | .ok outcome registry  => (.ok outcome, { session with registry })
  | .error fault registry => (.error fault, { session with registry })

-- A slot that has not been used holds a new analyzer.
def analyzer (session : Session) (slot : Nat) : Analyzer :=
  (session.analyzers.lookup slot).getD {}

def setAnalyzer (session : Session) (slot : Nat) (analyzer : Analyzer) : Session :=
  { session with analyzers := (slot, analyzer) :: session.analyzers.filter (·.1 ≠ slot) }

def analyze (session : Session) (slot : Nat) : Session :=
  session.setAnalyzer slot ((session.analyzer slot).analyze session.registry)

def finish (session : Session) (slot : Nat) : Session :=
  session.setAnalyzer slot (session.analyzer slot).finish

def attend (session : Session) (audience : Audience)
    (walk : Listener Observer → Observer → Walked Observer) : Minutes × Session :=
  let graph := session.registry.graph
  let walked := walk (Observer.listener graph) (audience.observer.load session.analyzer)
  let minutes := {
    answer := walked.answer
    notes := walked.trace.flatMap (audience.notes graph) }
  (minutes, walked.state.analyzers.foldl (fun s (slot, a) => s.setAnalyzer slot a) session)

def traverse (session : Session) (audience : Audience) : Minutes × Session :=
  session.attend audience session.registry.walk

def traverseFrom? (session : Session) (audience : Audience) (node : NodeRef) : Option (Minutes × Session) :=
  (session.registry.graph.tree? node).map fun tree =>
    session.attend audience fun listener => listener.walk tree

def notify (session : Session) (audience : Audience) (node : NodeRef) : Minutes × Session :=
  session.attend audience fun listener => listener.notify node

end Session
end PackageCoupling
