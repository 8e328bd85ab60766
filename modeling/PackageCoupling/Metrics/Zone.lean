namespace PackageCoupling

inductive Zone where
  | mainSequence
  | pain
  | uselessness
deriving DecidableEq, Repr

namespace Zone

def all : List Zone :=
  [mainSequence, pain, uselessness]

def name : Zone → String
  | mainSequence => "main_sequence"
  | pain         => "zone_of_pain"
  | uselessness  => "zone_of_uselessness"

def threshold : Float := 0.3

-- Signed distance from the line on which abstractness and instability add up to one, the main sequence. It is
-- negative for packages that are too concrete for how stable they are.
def offset (instability abstractness : Float) : Float :=
  abstractness + instability - 1.0

-- An offset that is not a number is neither near the line nor below it.
def classify (instability abstractness : Float) : Zone :=
  let offset := offset instability abstractness
  if offset.abs ≤ threshold then mainSequence
  else if offset < 0 then pain
  else uselessness

end Zone
end PackageCoupling
