namespace PackageCoupling.Text

-- The characters from one code point to another, both ends included.
structure Range where
  first : Nat
  last : Nat
deriving DecidableEq, Repr

def Range.contains (range : Range) (c : Char) : Bool :=
  range.first ≤ c.toNat && c.toNat ≤ range.last

def Range.anyContains (ranges : List Range) (c : Char) : Bool :=
  ranges.any (·.contains c)

end PackageCoupling.Text
