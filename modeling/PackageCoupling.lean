import PackageCoupling.NodeId
import PackageCoupling.Text.Blank
import PackageCoupling.Text.Lowercase
import PackageCoupling.Walk.Answer
import PackageCoupling.Metrics.Zone
import PackageCoupling.Json.Numeral
import PackageCoupling.Json.Value
import PackageCoupling.Json.Token
import PackageCoupling.Json.Parse
import PackageCoupling.Json.Render
import PackageCoupling.Arena
import PackageCoupling.Distinct
import PackageCoupling.Node
import PackageCoupling.Fault
import PackageCoupling.Config
import PackageCoupling.Json.Record
import PackageCoupling.Json.Config
import PackageCoupling.Json.Node
import PackageCoupling.Metrics.Stats
import PackageCoupling.Json.Report
import PackageCoupling.Graph.Basic
import PackageCoupling.Graph.Grow
import PackageCoupling.Graph.Edit
import PackageCoupling.Graph.Substitute
import PackageCoupling.Graph.Op
import PackageCoupling.QualifiedName
import PackageCoupling.Registry.Generation
import PackageCoupling.Registry.Basic
import PackageCoupling.Registry.Build
import PackageCoupling.IdSet
import PackageCoupling.IdMap
import PackageCoupling.Walk.Tree
import PackageCoupling.Walk.Listener
import PackageCoupling.Walk.Probe
import PackageCoupling.Metrics.Cycle
import PackageCoupling.Metrics.Endpoint
import PackageCoupling.Metrics.Analyzer
import PackageCoupling.Session.Observer
import PackageCoupling.Session
import PackageCoupling.Proofs.Arena
import PackageCoupling.Proofs.Distinct
import PackageCoupling.Proofs.Graph.Change
import PackageCoupling.Proofs.Graph.Run
import PackageCoupling.Proofs.Edges
import PackageCoupling.Proofs.Registry.Run
import PackageCoupling.Proofs.Graph.Ownership
import PackageCoupling.Proofs.Walk
import PackageCoupling.Proofs.Analyzer
import PackageCoupling.Proofs.Coupling
import PackageCoupling.Proofs.Graph.Lifetime
import PackageCoupling.Proofs.Registry.Names
import PackageCoupling.Proofs.Graph.Description
import PackageCoupling.Proofs.Graph.Substitute
import PackageCoupling.Proofs.Graph.Mentions
import PackageCoupling.Proofs.Replacement
import PackageCoupling.Proofs.Report
import PackageCoupling.Proofs.Census
import PackageCoupling.Proofs.ForwardReference
import PackageCoupling.Proofs.Graph.Placement
import PackageCoupling.Proofs.Registry.Freeze
import PackageCoupling.Proofs.Registry.Integrity
import PackageCoupling.Proofs.Registry.Resolution
import PackageCoupling.Proofs.Registry.DeclarationOrder
import PackageCoupling.Proofs.Walk.Fanout
import PackageCoupling.Proofs.Analyzer.Uses
import PackageCoupling.Proofs.Registry.Persistence
import PackageCoupling.Proofs.Graph.Membership
import PackageCoupling.Proofs.Walk.Discipline
import PackageCoupling.Proofs.Walk.Coverage
import PackageCoupling.Proofs.Graph.Refusal
import PackageCoupling.Proofs.Registry.Liveness
import PackageCoupling.Proofs.Registry.Refusal
import PackageCoupling.Proofs.Registry.Entries
import PackageCoupling.Proofs.Registry.Inheritance
import PackageCoupling.Proofs.Cycle
import PackageCoupling.Proofs.Analyzer.Cycles
import PackageCoupling.Proofs.Analyzer.Finality
import PackageCoupling.Proofs.Registry.Attachment
import PackageCoupling.Proofs.Analyzer.Acyclicity
import PackageCoupling.Proofs.Analyzer.Balance
import PackageCoupling.Proofs.Graph.Renaming
import PackageCoupling.Proofs.Json.Text
import PackageCoupling.Proofs.Json.RoundTrip
import PackageCoupling.Proofs.QualifiedName
import PackageCoupling.Proofs.QualifiedName.Leading
import PackageCoupling.Proofs.Graph.OwnPlace
import PackageCoupling.Proofs.Json.Config
