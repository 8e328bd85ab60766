import PackageCoupling.Walk.Answer
import PackageCoupling.Walk.Tree

namespace PackageCoupling

-- What a listener is told about: a node that a walk has come to, or a node by its mere reference.
inductive Call where
  | visit (visit : Visit)
  | node (node : NodeRef)
deriving DecidableEq, Repr

namespace Call

def ref : Call → NodeRef
  | visit v => v.ref
  | node n  => n

end Call

inductive Event where
  | enter (call : Call)
  | leave (call : Call)
deriving DecidableEq, Repr

structure Listener (σ : Type) where
  enter : Call → σ → Answer × σ
  leave : Call → σ → σ

@[ext]
structure Walked (σ : Type) where
  answer : Answer
  state : σ
  trace : List Event

namespace Listener

variable {σ : Type}

def each (listener : Listener σ) : Listener (List σ) where
  enter call states :=
    let results := states.map (listener.enter call)
    (Answer.mergeAll (results.map (·.1)), results.map (·.2))
  leave call states := states.map (listener.leave call)

-- A node whose visit is answered with `stop` is not left, nor are the nodes around it.
mutual

def walk (listener : Listener σ) : Tree → σ → Walked σ
  | .node v children, s =>
    match listener.enter (.visit v) s with
    | (.stop, s) => ⟨.stop, s, [.enter (.visit v)]⟩
    | (.skip, s) => ⟨.descend, listener.leave (.visit v) s, [.enter (.visit v), .leave (.visit v)]⟩
    | (.descend, s) =>
      let walked := walkAll listener children s
      match walked.answer with
      | .stop => { walked with trace := .enter (.visit v) :: walked.trace }
      | _     => {
        answer := .descend
        state := listener.leave (.visit v) walked.state
        trace := .enter (.visit v) :: walked.trace ++ [.leave (.visit v)] }

def walkAll (listener : Listener σ) : List Tree → σ → Walked σ
  | [], s => ⟨.descend, s, []⟩
  | tree :: trees, s =>
    let first := walk listener tree s
    match first.answer with
    | .stop => first
    | _     =>
      let rest := walkAll listener trees first.state
      { rest with trace := first.trace ++ rest.trace }

end

-- Tells a listener about one node, entering and leaving it whatever the answer.
def notify (listener : Listener σ) (node : NodeRef) (s : σ) : Walked σ :=
  let (answer, s) := listener.enter (.node node) s
  ⟨answer, listener.leave (.node node) s, [.enter (.node node), .leave (.node node)]⟩

end Listener

namespace Registry

def walk {σ : Type} (registry : Registry) (listener : Listener σ) : σ → Walked σ :=
  listener.walkAll registry.forest

end Registry
end PackageCoupling
