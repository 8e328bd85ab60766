import PackageCoupling.Json.Token
import PackageCoupling.Json.Value

namespace PackageCoupling.Json

namespace Token

def hexChar (n : Nat) : Char :=
  if n < 10 then Char.ofNat ('0'.toNat + n) else Char.ofNat ('a'.toNat + (n - 10))

-- Quotes, backslashes and control characters are escaped, the latter by a letter where there is one.
def escape (c : Char) : List Char :=
  if c = '"' then ['\\', '"']
  else if c = '\\' then ['\\', '\\']
  else if c = '\x08' then ['\\', 'b']
  else if c = '\x0c' then ['\\', 'f']
  else if c = '\n' then ['\\', 'n']
  else if c = '\r' then ['\\', 'r']
  else if c = '\t' then ['\\', 't']
  else if c.toNat < 0x20 then ['\\', 'u', '0', '0', hexChar (c.toNat / 16), hexChar (c.toNat % 16)]
  else [c]

-- A literal that spells no text is written as a surrogate alone.
def renderText : Option String → List Char
  | none   => ['"', '\\', 'u', 'd', '8', '0', '0', '"']
  | some s => '"' :: s.toList.flatMap escape ++ ['"']

def renderNumeral (n : Numeral) : List Char :=
  (if n.negative then ['-'] else [])
    ++ n.whole
    ++ (match n.fraction with
        | none        => []
        | some digits => '.' :: digits)
    ++ (match n.exponent with
        | none                    => []
        | some (negative, digits) => 'e' :: (if negative then ['-'] else []) ++ digits)

def render : Token → List Char
  | null        => ['n', 'u', 'l', 'l']
  | bool true   => ['t', 'r', 'u', 'e']
  | bool false  => ['f', 'a', 'l', 's', 'e']
  | number n    => renderNumeral n
  | string s    => renderText s
  | openArray   => ['[']
  | closeArray  => [']']
  | openObject  => ['{']
  | closeObject => ['}']
  | comma       => [',']
  | colon       => [':']

end Token

mutual

def tokens : Json → List Token
  | .null        => [.null]
  | .bool b      => [.bool b]
  | .number n    => [.number n]
  | .string s    => [.string s]
  | .array vs    => .openArray :: itemTokens vs ++ [.closeArray]
  | .object ms   => .openObject :: memberTokens ms ++ [.closeObject]

def itemTokens : List Json → List Token
  | []           => []
  | [v]          => tokens v
  | v :: w :: vs => tokens v ++ .comma :: itemTokens (w :: vs)

def memberTokens : List (Option String × Json) → List Token
  | []                => []
  | [(k, v)]          => .string k :: .colon :: tokens v
  | (k, v) :: m :: ms => .string k :: .colon :: tokens v ++ .comma :: memberTokens (m :: ms)

end

def render (value : Json) : String :=
  .ofList (value.tokens.flatMap Token.render)

end PackageCoupling.Json
