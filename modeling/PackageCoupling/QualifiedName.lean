import PackageCoupling.Config

namespace PackageCoupling

@[ext]
structure QualifiedName where
  localName : String
  -- The local name in lowercase, by which types are looked up.
  key : String
  package : String
deriving DecidableEq, Repr

namespace QualifiedName

-- The length of the longest separator that a text ends with, where the text and the separators are given
-- from back to front.
def endingLength? (separators : List (List Char)) (front : List Char) : Option Nat :=
  ((separators.filter (·.isPrefixOf front)).map List.length).max?

-- Goes through a text from its end, `back` being what has been passed, until it meets a separator. The
-- separators and the rest of the text are given from back to front.
def cutFrom (separators : List (List Char)) : List Char → List Char → Option (List Char × List Char)
  | [], _ => none
  | c :: front, back =>
    match endingLength? separators (c :: front) with
    | some length => some (((c :: front).drop length).reverse, back)
    | none        => cutFrom separators front (c :: back)

-- The text before and after the separator that ends last, and of those the one that starts first.
def cut? (separators : List (List Char)) (name : List Char) : Option (List Char × List Char) :=
  cutFrom (separators.map List.reverse) name.reverse []

-- Takes separators off the front of a text, each time the first one in the list that fits.
def stripLeading (separators : List (List Char)) (cs : List Char) : List Char :=
  match h : separators.find? fun s => !s.isEmpty && s.isPrefixOf cs with
  | none => cs
  | some s =>
    have : cs.length - s.length < cs.length := by
      have hs := List.find?_some h
      simp only [Bool.and_eq_true, Bool.not_eq_true', List.isEmpty_eq_false_iff, ne_eq] at hs
      have := (List.isPrefixOf_iff_prefix.mp hs.right).length_le
      have := List.length_pos_iff.mpr hs.left
      omega
    stripLeading separators (cs.drop s.length)
termination_by cs.length

-- A name without a separator may be that of a built-in type. Where no package is named, the name belongs
-- to the default package.
def split (config : Config) (withBuiltins : Bool) (name : String) : QualifiedName :=
  let separators := config.separators.map String.toList
  match cut? separators name.toList with
  | none =>
    let key := Text.lowercase name
    let builtin := if withBuiltins then config.builtinPackage? key else none
    { localName := name, key, package := builtin.getD config.defaultPackage }
  | some (before, after) =>
    let localName := String.ofList after
    let package := String.ofList (stripLeading separators before)
    { localName
      key := Text.lowercase localName
      package := if package.isEmpty then config.defaultPackage else package }

end QualifiedName
end PackageCoupling
