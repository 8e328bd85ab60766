import PackageCoupling.Node

namespace PackageCoupling

-- A type under its name in lowercase and the name of its package.
@[ext]
structure Entry where
  kind : TypeKind
  key : String
  package : String
  id : TypeId
deriving DecidableEq, Repr

@[ext]
structure Generation where
  entries : List Entry := []
deriving DecidableEq, Repr

namespace Generation

instance : EmptyCollection Generation where
  emptyCollection := {}

variable (generation : Generation) (kind : TypeKind) (key : String)

def named : List Entry :=
  generation.entries.filter fun e => e.kind = kind ∧ e.key = key

def inPackage? (package : String) : Option TypeId :=
  ((generation.named kind key).find? (·.package == package)).map (·.id)

def first? : Option TypeId :=
  (generation.named kind key).head?.map (·.id)

-- The type of a kind and name if there is only one and it is in the given package.
def only? (package : String) : Option TypeId :=
  match generation.named kind key with
  | [entry] => if entry.package = package then some entry.id else none
  | _       => none

-- A request for the default package is content with any package.
def find? (package default : String) : Option TypeId :=
  generation.inPackage? kind key package <|>
    if package = default then generation.first? kind key else none

def insert (package : String) (id : TypeId) : Generation :=
  ⟨generation.entries ++ [⟨kind, key, package, id⟩]⟩

def relocate (id : TypeId) (package : String) : Generation :=
  ⟨generation.entries.map fun e =>
    if e.kind = kind ∧ e.key = key ∧ e.id = id then { e with package } else e⟩

def remove (id : TypeId) : Generation :=
  ⟨generation.entries.filter fun e => ¬(e.kind = kind ∧ e.key = key ∧ e.id = id)⟩

end Generation
end PackageCoupling
