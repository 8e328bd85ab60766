import PackageCoupling.Text.Cased
import PackageCoupling.Text.LowerTable

namespace PackageCoupling.Text

-- The lowercase form of a character wherever it stands. Only the capital I with a dot above has one
-- of two characters.
def lowerChar (c : Char) : List Char :=
  if c.toNat < 0x80 then [c.toLower]
  else if c = 'İ' then ['i', '\u0307']
  else
    match lowerRuns.find? (·.covers c) with
    | some run => [Char.ofNat (c.toNat + run.shift).toNat]
    | none     => [c]

def startsCased (cs : List Char) : Bool :=
  match cs.dropWhile isCaseIgnorable with
  | []     => false
  | c :: _ => isCased c

-- A capital sigma ends a word if a letter stands before it and none after it.
def lowerSigma (before after : List Char) : Char :=
  if startsCased before && !startsCased after then 'ς' else 'σ'

-- The lowercase form of `cs`, where `before` holds what precedes it, nearest first.
def lowerAfter (before : List Char) : List Char → List Char
  | []      => []
  | c :: cs => (if c = 'Σ' then [lowerSigma before cs] else lowerChar c) ++ lowerAfter (c :: before) cs

def lowercase (s : String) : String :=
  .ofList (lowerAfter [] s.toList)

end PackageCoupling.Text
