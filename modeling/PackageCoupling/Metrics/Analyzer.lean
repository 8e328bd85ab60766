import PackageCoupling.Metrics.Cycle
import PackageCoupling.Metrics.Endpoint
import PackageCoupling.Metrics.Stats
import PackageCoupling.Walk.Listener

namespace PackageCoupling

@[ext]
structure Coupling (kind : NodeKind) where
  efferents : IdMap kind (IdSet kind) := ∅
  afferents : IdMap kind (IdSet kind) := ∅

namespace Coupling

variable {kind : NodeKind}

def add (coupling : Coupling kind) (source target : NodeId kind) : Coupling kind where
  efferents := coupling.efferents.upsert source fun set => (set.getD ∅).insert target
  afferents := coupling.afferents.upsert target fun set => (set.getD ∅).insert source

def efferentsOf (coupling : Coupling kind) (id : NodeId kind) : IdSet kind :=
  (coupling.efferents.get? id).getD ∅

def afferentsOf (coupling : Coupling kind) (id : NodeId kind) : IdSet kind :=
  (coupling.afferents.get? id).getD ∅

end Coupling

@[ext]
structure Tally where
  name : String
  totalTypes : Nat := 0
  abstractTypes : Nat := 0
deriving DecidableEq, Repr

-- To whom a mention is put down: a package, and a type unless it is a function that mentions.
@[ext]
structure Source where
  type : Option TypeId
  package : PackageId
deriving DecidableEq, Repr

namespace Graph

def typeSource? (graph : Graph) (type : TypeId) : Option Source :=
  (graph.packageOf? type).map fun package => ⟨some type, package⟩

-- What belongs to a type mentions in its stead.
def callableSource? (graph : Graph) (callable : Callable) : Option Source :=
  match callable.owner with
  | some owner => graph.typeSource? owner
  | none       => callable.package.map fun package => ⟨none, package⟩

def source? (graph : Graph) : Visit → Option Source
  | .package _   => none
  | .type n      => some ⟨some n.id, n.package⟩
  | .callable n  => graph.callableSource? n
  | .parameter n => (graph.callable? n.callable).bind graph.callableSource?
  | .property n  => graph.typeSource? n.owner
  | .constant n  => graph.typeSource? n.owner

end Graph

@[ext]
structure Analyzer where
  tallies : IdMap .package Tally := ∅
  packages : Coupling .package := {}
  types : Coupling .type := {}
  stats : IdMap .package PackageStats := ∅
  cycles : IdMap .package (Option (List PackageId)) := ∅
  isAnalyzed : Bool := false

namespace Analyzer

-- Sees to it that a package has a tally. The name of the package is noted the first time.
def tally (graph : Graph) (package : PackageId) (f : Tally → Tally) (analyzer : Analyzer) : Analyzer :=
  { analyzer with
    tallies := analyzer.tallies.upsert package fun tally =>
      f (tally.getD { name := (graph.name? package.ref).getD "" }) }

-- Notes that a type is mentioned, unless it is in the same package or not in the graph.
def mention (graph : Graph) (source : Source) (target : TypeId) (analyzer : Analyzer) : Analyzer :=
  match graph.packageOf? target with
  | none => analyzer
  | some package =>
    if package = source.package then analyzer
    else
      let analyzer := (analyzer.tally graph source.package id).tally graph package id
      { analyzer with
        packages := analyzer.packages.add source.package package
        types := match source.type with
          | none      => analyzer.types
          | some type => analyzer.types.add type target }

def mentionAll (graph : Graph) (visit : Visit) (analyzer : Analyzer) : Analyzer :=
  match graph.source? visit with
  | none        => analyzer
  | some source => visit.references.foldl (fun a target => a.mention graph source target) analyzer

def countType (graph : Graph) (type : TypeDecl) (analyzer : Analyzer) : Analyzer :=
  analyzer.tally graph type.package fun tally =>
    { tally with
      totalTypes := tally.totalTypes + 1
      abstractTypes := tally.abstractTypes + (if type.isAbstract then 1 else 0) }

-- A package stops the walk if there is nothing left to analyze.
def enter (graph : Graph) (visit : Visit) (analyzer : Analyzer) : Answer × Analyzer :=
  match visit with
  | .package n =>
    if analyzer.isAnalyzed then (.stop, analyzer) else (.descend, analyzer.tally graph n.id id)
  | .type n => (.descend, (analyzer.countType graph n).mentionAll graph visit)
  | _       => (.descend, analyzer.mentionAll graph visit)

-- The analyzer has hooks for visits only.
def listener (graph : Graph) : Listener Analyzer where
  enter
    | .visit v, analyzer => analyzer.enter graph v
    | .node _, analyzer  => (.descend, analyzer)
  leave _ analyzer := analyzer

def statsOf (tally : Tally) (afferent efferent : Nat) : PackageStats :=
  let abstractness :=
    if tally.totalTypes = 0 then 0
    else Float.ofNat tally.abstractTypes / Float.ofNat tally.totalTypes
  let instability :=
    if afferent + efferent = 0 then 0
    else Float.ofNat efferent / Float.ofNat (afferent + efferent)
  { package := tally.name
    totalTypes := tally.totalTypes
    concreteTypes := tally.totalTypes - tally.abstractTypes
    abstractTypes := tally.abstractTypes
    afferent
    efferent
    abstractness
    instability
    distance := (Zone.offset instability abstractness).abs
    zone := Zone.classify instability abstractness }

-- Derives metrics and cycles from what has been noted. Only the first time counts.
def finish (analyzer : Analyzer) : Analyzer :=
  if analyzer.isAnalyzed then analyzer
  else
    { analyzer with
      stats := analyzer.tallies.mapWithId fun package tally =>
        statsOf tally (analyzer.packages.afferentsOf package).size (analyzer.packages.efferentsOf package).size
      cycles := analyzer.tallies.mapWithId fun package _ =>
        PackageEdges.cycleFrom? analyzer.packages.efferents package
      isAnalyzed := true }

def analyze (registry : Registry) (analyzer : Analyzer) : Analyzer :=
  if analyzer.isAnalyzed then analyzer
  else (registry.walk (listener registry.graph) analyzer).state.finish

def statsOf? (analyzer : Analyzer) (package : PackageId) : Option PackageStats :=
  analyzer.stats.get? package

def afferents (analyzer : Analyzer) (endpoint : Endpoint) : List Endpoint :=
  if analyzer.isAnalyzed then
    match endpoint with
    | .package id => (analyzer.packages.afferentsOf id).toList.map .package
    | .type id    => (analyzer.types.afferentsOf id).toList.map .type
  else []

def efferents (analyzer : Analyzer) (endpoint : Endpoint) : List Endpoint :=
  if analyzer.isAnalyzed then
    match endpoint with
    | .package id => (analyzer.packages.efferentsOf id).toList.map .package
    | .type id    => (analyzer.types.efferentsOf id).toList.map .type
  else []

def cycle? (analyzer : Analyzer) (package : PackageId) : Option (List PackageId) :=
  (analyzer.cycles.get? package).join

def packageName (analyzer : Analyzer) (package : PackageId) : String :=
  match analyzer.tallies.get? package with
  | some tally => tally.name
  | none       => package.display

-- Of cycles through the same packages only the first one.
def distinctCycles : List (List PackageId) → List (IdSet .package) → List (List PackageId)
  | [], _ => []
  | cycle :: cycles, seen =>
    let members := IdSet.ofList cycle
    if members ∈ seen then distinctCycles cycles seen
    else cycle :: distinctCycles cycles (members :: seen)

def summary (analyzer : Analyzer) : Report where
  packages := analyzer.stats.values.mergeSort fun a b => decide (a.package ≤ b.package)
  cycles := (distinctCycles (analyzer.cycles.values.filterMap id) []).map (·.map analyzer.packageName)

end Analyzer
end PackageCoupling
