import PackageCoupling.Json.Numeral

namespace PackageCoupling

-- A string literal may escape a surrogate without its partner. It is well-formed and yet spells no
-- text, and is then kept as `none`.
inductive Json where
  | null
  | bool (value : Bool)
  | number (value : Json.Numeral)
  | string (text : Option String)
  | array (items : List Json)
  | object (members : List (Option String × Json))
deriving Repr, Inhabited

namespace Json

def ofText (s : String) : Json :=
  .string (some s)

def ofNat (n : Nat) : Json :=
  .number (.ofNat n)

def ofList {α} (f : α → Json) (as : List α) : Json :=
  .array (as.map f)

def ofOption {α} (f : α → Json) : Option α → Json
  | none   => .null
  | some a => f a

def ofFields (fields : List (String × Json)) : Json :=
  .object (fields.map fun (key, value) => (some key, value))

end Json
end PackageCoupling
