import PackageCoupling.Json.Node
import PackageCoupling.Metrics.Stats

namespace PackageCoupling

namespace Zone

def ofJson? (value : Json) : Option Zone :=
  value.choice? all name

end Zone

namespace PackageStats

def ofJson? (value : Json) : Option PackageStats := do
  let record ← value.record? [
    "package", "total_types", "concrete_types", "abstract_types", "ca", "ce", "abstractness",
    "instability", "distance", "zone"]
  return {
    package := ← record.required? "package" Json.text?
    totalTypes := ← record.required? "total_types" (Json.natBelow? Json.countBound)
    concreteTypes := ← record.required? "concrete_types" (Json.natBelow? Json.countBound)
    abstractTypes := ← record.required? "abstract_types" (Json.natBelow? Json.countBound)
    afferent := ← record.required? "ca" (Json.natBelow? Json.countBound)
    efferent := ← record.required? "ce" (Json.natBelow? Json.countBound)
    abstractness := ← record.required? "abstractness" Json.float?
    instability := ← record.required? "instability" Json.float?
    distance := ← record.required? "distance" Json.float?
    zone := ← record.required? "zone" Zone.ofJson? }

end PackageStats

namespace Report

def ofJson? (value : Json) : Option Report := do
  let record ← value.record? ["packages", "cycles"]
  return {
    packages := ← record.required? "packages" (Json.list? PackageStats.ofJson?)
    cycles := ← record.required? "cycles" (Json.list? (Json.list? Json.text?)) }

end Report
end PackageCoupling
