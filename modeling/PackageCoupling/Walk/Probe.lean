import PackageCoupling.Graph.Basic
import PackageCoupling.Walk.Listener

namespace PackageCoupling

inductive Hook where
  | node
  | package
  | cls
  | interface
  | trait
  | function
  | method
  | parameter
  | property
  | constant
deriving DecidableEq, Repr

namespace Hook

def name : Hook → String
  | node      => "node"
  | package   => "package"
  | cls       => "class"
  | interface => "interface"
  | trait     => "trait"
  | function  => "function"
  | method    => "method"
  | parameter => "parameter"
  | property  => "property"
  | constant  => "constant"

end Hook

def Call.hook : Call → Hook
  | node _            => .node
  | visit (.package _) => .package
  | visit (.type n)    =>
    match n.kind with
    | .cls       => .cls
    | .interface => .interface
    | .trait     => .trait
  | visit (.callable n) =>
    match n.kind with
    | .function => .function
    | .method   => .method
  | visit (.parameter _) => .parameter
  | visit (.property _)  => .property
  | visit (.constant _)  => .constant

-- Which hooks a probe has. Calls for which it has no hook of their own go to the hook for any node.
inductive Style where
  | generic
  | specific
  -- Hooks for classes and methods only.
  | mixed
  -- No hooks at all.
  | silent
deriving DecidableEq, Repr

def Style.hook? (style : Style) (call : Call) : Option Hook :=
  match style with
  | generic  => some .node
  | specific => some call.hook
  | mixed    => some (if call.hook = .cls ∨ call.hook = .method then call.hook else .node)
  | silent   => none

-- An answer, and the conditions under which it is given. A rule for a name that no hook has never applies.
structure Rule where
  -- The name of a hook.
  hook : Option String
  name : Option String
  -- How many calls there have been, this one included.
  nth : Option Nat
  answer : Answer
deriving DecidableEq, Repr

def Rule.applies (rule : Rule) (hook : Hook) (name : String) (nth : Nat) : Bool :=
  rule.hook.all (· == hook.name) && rule.name.all (· == name) && rule.nth.all (· == nth)

structure Probe where
  style : Style
  rules : List Rule
  -- How many visits have been counted.
  visits : Nat := 0
deriving DecidableEq, Repr

namespace Probe

def nameOf (graph : Graph) (node : NodeRef) : String :=
  (graph.name? node).getD "?"

def enter (graph : Graph) (call : Call) (probe : Probe) : Answer × Probe :=
  match probe.style.hook? call with
  | none => (.descend, probe)
  | some hook =>
    let visits := probe.visits + 1
    let rule := probe.rules.find? (·.applies hook (nameOf graph call.ref) visits)
    ((rule.map (·.answer)).getD .descend, { probe with visits })

def note (graph : Graph) (mark : String) (call : Call) (probe : Probe) : Option String :=
  (probe.style.hook? call).map fun hook =>
    mark ++ hook.name ++ " " ++ call.ref.display ++ " " ++ nameOf graph call.ref

end Probe
end PackageCoupling
