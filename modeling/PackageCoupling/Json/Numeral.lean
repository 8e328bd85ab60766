namespace PackageCoupling.Json

-- A number in its written form: a sign, digits, and, where they are written, the digits after a
-- point and a power of ten, itself a sign and digits.
@[ext]
structure Numeral where
  negative : Bool
  whole : List Char
  fraction : Option (List Char)
  exponent : Option (Bool × List Char)
deriving DecidableEq, Repr

namespace Numeral

def ofNat (n : Nat) : Numeral where
  negative := false
  whole := Nat.toDigits 10 n
  fraction := none
  exponent := none

-- Only digits alone are a natural number: `-0`, `1.0` and `1e0` are not.
def toNat? (n : Numeral) : Option Nat :=
  if n.negative || n.fraction.isSome || n.exponent.isSome then none
  else some (Nat.ofDigitChars 10 n.whole 0)

def significandBound : Nat := UInt64.size

-- Appends digits to a significand for as long as it fits, and returns the digits left over.
def absorb (significand : Nat) : List Char → Nat × List Char
  | [] => (significand, [])
  | d :: ds =>
    let next := 10 * significand + (d.toNat - '0'.toNat)
    if next < significandBound then absorb next ds else (significand, d :: ds)

-- Significand and power of ten of the digits before and after the point. Digits left over before the
-- point raise the power, and those after it are dropped.
def scaled (n : Numeral) : Nat × Int :=
  let (whole, excess) := absorb 0 n.whole
  match n.fraction with
  | none        => (whole, excess.length)
  | some digits =>
    let (significand, dropped) := absorb whole digits
    (significand, excess.length - (digits.length - dropped.length : Nat))

def power (n : Numeral) : Int :=
  match n.exponent with
  | none                => 0
  | some (false, digits) => Nat.ofDigitChars 10 digits 0
  | some (true, digits)  => -Nat.ofDigitChars 10 digits 0

def maxPower : Nat := 308

def powerOfTen (n : Nat) : Float :=
  .ofScientific 1 false n

def divideBy (x : Float) (n : Nat) : Float :=
  if n ≤ maxPower then x / powerOfTen n
  else if x == 0 then x
  else divideBy (x / powerOfTen maxPower) (n - maxPower)
termination_by n
decreasing_by simp only [maxPower] at *; omega

def multiplyBy? (x : Float) (n : Nat) : Option Float :=
  if n ≤ maxPower then
    let y := x * powerOfTen n
    if y.isInf then none else some y
  else if x == 0 then some x
  else none

-- A number as a float: the significand rounded, then scaled once by a power of ten.
def toFloat? (n : Numeral) : Option Float := do
  let (significand, shift) := n.scaled
  let x := (UInt64.ofNat significand).toFloat
  let power := shift + n.power
  let y ← if 0 ≤ power then multiplyBy? x power.toNat else some (divideBy x (-power).toNat)
  return if n.negative then -y else y

end Numeral
end PackageCoupling.Json
