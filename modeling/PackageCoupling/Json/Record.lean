import PackageCoupling.Json.Value

namespace PackageCoupling.Json

def text? : Json → Option String
  | .string text => text
  | _            => none

def natBelow? (bound : Nat) : Json → Option Nat
  | .number n => n.toNat?.filter (· < bound)
  | _         => none

def float? : Json → Option Float
  | .number n => n.toFloat?
  | _         => none

def list? {α} (f : Json → Option α) : Json → Option (List α)
  | .array items => items.mapM f
  | _            => none

def option? {α} (f : Json → Option α) : Json → Option (Option α)
  | .null => some none
  | value => some <$> f value

def spelled? {α} (all : List α) (name : α → String) (value : Json) : Option α := do
  let chosen ← value.text?
  all.find? (name · == chosen)

-- A choice between names: the name as text, or an object with the name as its only key and no value.
def choice? {α} (all : List α) (name : α → String) : Json → Option α
  | .object [(key, .null)] => spelled? all name (.string key)
  | value                  => spelled? all name value

-- The fields that a record gives a value. In a positional record only the last fields may lack one.
structure Record where
  positional : Bool
  fields : List (String × Json)

-- Reads a record with the given fields. Every key must spell text, no field may be given twice, and an
-- array may not be longer than the fields.
def record? (names : List String) : Json → Option Record
  | .array items =>
    if items.length ≤ names.length then some ⟨true, names.zip items⟩ else none
  | .object members => do
    let members ← members.mapM fun (key, value) => key.map (·, value)
    let fields := members.filter (names.contains ·.1)
    if (fields.map (·.1)).Nodup then some ⟨false, fields⟩ else none
  | _ => none

namespace Record

def field? (record : Record) (name : String) : Option Json :=
  record.fields.lookup name

def required? {α} (record : Record) (name : String) (f : Json → Option α) : Option α := do
  f (← record.field? name)

-- In an object an optional field may be left out; in an array it is written as null.
def optional? {α} (record : Record) (name : String) (f : Json → Option α) : Option (Option α) :=
  match record.field? name with
  | some value => option? f value
  | none       => if record.positional then none else some none

def withDefault? {α} (record : Record) (name : String) (default : α) (f : Json → Option α) : Option α :=
  match record.field? name with
  | some value => f value
  | none       => some default

end Record
end PackageCoupling.Json
