import PackageCoupling.IdMap
import PackageCoupling.IdSet

namespace PackageCoupling

abbrev PackageEdges := IdMap .package (IdSet .package)

namespace PackageEdges

-- How a search ended: with a cycle, or with the packages that have been searched without finding one.
inductive Search where
  | found (cycle : List PackageId)
  | exhausted (finished : List PackageId)
deriving DecidableEq, Repr

def ahead (edges : PackageEdges) (path : List PackageId) : List PackageId :=
  edges.keys.filter (· ∉ path)

theorem ahead_length_lt {edges : PackageEdges} {path : List PackageId} {package : PackageId}
    (hk : package ∈ edges.keys) (hp : package ∉ path) :
    (edges.ahead (path ++ [package])).length < (edges.ahead path).length := by
  have hs : edges.ahead (path ++ [package]) = (edges.ahead path).filter (· ≠ package) := by
    simp only [ahead, List.filter_filter]
    congr
    funext x
    simp [not_or, and_comm]
  have hm : package ∈ edges.ahead path := by
    simp [ahead, hk, hp]
  rw [hs]
  exact List.length_filter_lt_length_iff_exists.mpr ⟨package, hm, by simp⟩

-- Goes depth first along the dependencies. A package that is met again on the path that led to it closes
-- a cycle. A package that has been searched is not searched again.
mutual

def search (edges : PackageEdges) (path finished : List PackageId) (package : PackageId) : Search :=
  if hp : package ∈ path then
    .found (path.dropWhile (· ≠ package) ++ [package])
  else if package ∈ finished then
    .exhausted finished
  else
    match hk : edges.get? package with
    | none => .exhausted (package :: finished)
    | some targets =>
      have := ahead_length_lt (IdMap.mem_keys_of_get? hk) hp
      match searchAll edges (path ++ [package]) finished targets.toList with
      | .found cycle        => .found cycle
      | .exhausted finished => .exhausted (package :: finished)
termination_by ((edges.ahead path).length, 0)

def searchAll (edges : PackageEdges) (path finished : List PackageId) : List PackageId → Search
  | [] => .exhausted finished
  | package :: packages =>
    match search edges path finished package with
    | .found cycle        => .found cycle
    | .exhausted finished => searchAll edges path finished packages
termination_by packages => ((edges.ahead path).length, packages.length + 1)

end

-- A cycle that can be reached from a package, from one of its packages round to the same one.
def cycleFrom? (edges : PackageEdges) (start : PackageId) : Option (List PackageId) :=
  match edges.search [] [] start with
  | .found cycle => some cycle
  | .exhausted _ => none

end PackageEdges
end PackageCoupling
