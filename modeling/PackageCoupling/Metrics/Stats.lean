import PackageCoupling.Metrics.Zone

namespace PackageCoupling

structure PackageStats where
  package : String
  totalTypes : Nat
  concreteTypes : Nat
  abstractTypes : Nat
  -- How many packages depend on this one.
  afferent : Nat
  -- How many packages this one depends on.
  efferent : Nat
  abstractness : Float
  instability : Float
  distance : Float
  zone : Zone
deriving Repr

structure Report where
  packages : List PackageStats
  cycles : List (List String)
deriving Repr

namespace Report

def isAcyclic (report : Report) : Bool :=
  report.cycles.isEmpty

end Report

end PackageCoupling
