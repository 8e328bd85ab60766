import PackageCoupling.Json.Numeral

namespace PackageCoupling.Json

inductive Token where
  | null
  | bool (value : Bool)
  | number (value : Numeral)
  | string (text : Option String)
  | openArray
  | closeArray
  | openObject
  | closeObject
  | comma
  | colon
deriving DecidableEq, Repr

def isSpace (c : Char) : Bool :=
  c = ' ' || c = '\t' || c = '\n' || c = '\r'

namespace Token

-- What a string literal holds between its quotes, piece by piece: characters, and the 16-bit units of
-- its numeric escapes.
inductive Piece where
  | char (c : Char)
  | unit (u : Nat)
deriving DecidableEq, Repr

def hexDigit? (c : Char) : Option Nat :=
  if '0' ≤ c ∧ c ≤ '9' then some (c.toNat - '0'.toNat)
  else if 'a' ≤ c ∧ c ≤ 'f' then some (c.toNat - 'a'.toNat + 10)
  else if 'A' ≤ c ∧ c ≤ 'F' then some (c.toNat - 'A'.toNat + 10)
  else none

def hexUnit? (a b c d : Char) : Option Nat := do
  return 4096 * (← hexDigit? a) + 256 * (← hexDigit? b) + 16 * (← hexDigit? c) + (← hexDigit? d)

def escaped? : Char → Option Char
  | '"'  => some '"'
  | '\\' => some '\\'
  | '/'  => some '/'
  | 'b'  => some '\x08'
  | 'f'  => some '\x0c'
  | 'n'  => some '\n'
  | 'r'  => some '\r'
  | 't'  => some '\t'
  | _    => none

-- Reads up to the closing quote. Control characters must be escaped.
def pieces? : List Char → Option (List Piece × List Char)
  | [] => none
  | '"' :: rest => some ([], rest)
  | '\\' :: 'u' :: a :: b :: c :: d :: rest => do
    let u ← hexUnit? a b c d
    let (pieces, rest) ← pieces? rest
    return (.unit u :: pieces, rest)
  | '\\' :: e :: rest => do
    let c ← escaped? e
    let (pieces, rest) ← pieces? rest
    return (.char c :: pieces, rest)
  | c :: rest => do
    if c = '\\' || c.toNat < 0x20 then
      none
    else
      let (pieces, rest) ← pieces? rest
      return (.char c :: pieces, rest)

def isHighSurrogate (u : Nat) : Bool :=
  0xd800 ≤ u && u < 0xdc00

def isLowSurrogate (u : Nat) : Bool :=
  0xdc00 ≤ u && u < 0xe000

-- The text of a string literal. A high surrogate needs a low one right after it, and a low one needs
-- a high one right before it.
def spell : List Piece → Option (List Char)
  | [] => some []
  | .char c :: ps => (c :: ·) <$> spell ps
  | .unit u :: .unit v :: ps =>
    if isHighSurrogate u then
      if isLowSurrogate v then
        (Char.ofNat (0x10000 + 0x400 * (u - 0xd800) + (v - 0xdc00)) :: ·) <$> spell ps
      else none
    else if isLowSurrogate u then none
    else (Char.ofNat u :: ·) <$> spell (.unit v :: ps)
  | .unit u :: ps =>
    if isHighSurrogate u || isLowSurrogate u then none
    else (Char.ofNat u :: ·) <$> spell ps

def string? (cs : List Char) : Option (Token × List Char) := do
  let (pieces, rest) ← pieces? cs
  return (.string ((spell pieces).map .ofList), rest)

def digits? (cs : List Char) : Option (List Char × List Char) :=
  match cs.takeWhile Char.isDigit with
  | []     => none
  | digits => some (digits, cs.dropWhile Char.isDigit)

-- Digits that do not start with a zero, or a zero alone.
def whole? (cs : List Char) : Option (List Char × List Char) := do
  match ← digits? cs with
  | ('0' :: _ :: _, _) => none
  | (digits, rest)     => return (digits, rest)

def fraction? : List Char → Option (Option (List Char) × List Char)
  | '.' :: cs => do
    let (digits, rest) ← digits? cs
    return (some digits, rest)
  | cs => some (none, cs)

def exponent? : List Char → Option (Option (Bool × List Char) × List Char)
  | 'e' :: cs | 'E' :: cs => do
    let (negative, cs) := sign cs
    let (digits, rest) ← digits? cs
    return (some (negative, digits), rest)
  | cs => some (none, cs)
where
  sign : List Char → Bool × List Char
    | '-' :: cs => (true, cs)
    | '+' :: cs => (false, cs)
    | cs        => (false, cs)

def number? (negative : Bool) (cs : List Char) : Option (Token × List Char) := do
  let (whole, cs) ← whole? cs
  let (fraction, cs) ← fraction? cs
  let (exponent, cs) ← exponent? cs
  return (.number ⟨negative, whole, fraction, exponent⟩, cs)

def next? : List Char → Option (Token × List Char)
  | '[' :: cs => some (.openArray, cs)
  | ']' :: cs => some (.closeArray, cs)
  | '{' :: cs => some (.openObject, cs)
  | '}' :: cs => some (.closeObject, cs)
  | ',' :: cs => some (.comma, cs)
  | ':' :: cs => some (.colon, cs)
  | 'n' :: 'u' :: 'l' :: 'l' :: cs        => some (.null, cs)
  | 't' :: 'r' :: 'u' :: 'e' :: cs        => some (.bool true, cs)
  | 'f' :: 'a' :: 'l' :: 's' :: 'e' :: cs => some (.bool false, cs)
  | '"' :: cs => string? cs
  | '-' :: cs => number? true cs
  | cs        => number? false cs

-- Every reader of a token consumes something, so that reading token after token comes to an end.

theorem digits?_length {cs digits rest : List Char} (h : digits? cs = some (digits, rest)) :
    rest.length < cs.length := by
  have hl : (cs.takeWhile Char.isDigit).length + (cs.dropWhile Char.isDigit).length = cs.length := by
    rw [← List.length_append, List.takeWhile_append_dropWhile]
  unfold digits? at h
  split at h
  case h_1 => cases h
  case h_2 hne =>
    obtain ⟨-, rfl⟩ := Prod.mk.inj (Option.some.inj h)
    have := List.length_pos_iff.mpr hne
    omega

theorem whole?_length {cs digits rest : List Char} (h : whole? cs = some (digits, rest)) :
    rest.length < cs.length := by
  simp only [whole?, Option.bind_eq_bind, Option.bind_eq_some_iff] at h
  obtain ⟨⟨_, _⟩, hd, h⟩ := h
  split at h
  case h_1 => cases h
  case h_2 e =>
    obtain ⟨rfl, rfl⟩ := Prod.mk.inj (Option.some.inj h)
    obtain ⟨rfl, rfl⟩ := Prod.mk.inj e
    exact digits?_length hd

theorem fraction?_length {cs rest : List Char} {f} (h : fraction? cs = some (f, rest)) :
    rest.length ≤ cs.length := by
  unfold fraction? at h
  split at h
  case h_1 =>
    simp only [Option.bind_eq_bind, Option.bind_eq_some_iff, Option.pure_def, Option.some.injEq,
      Prod.mk.injEq] at h
    obtain ⟨⟨_, _⟩, hd, -, rfl⟩ := h
    have := digits?_length hd
    simp only [List.length_cons]
    omega
  case h_2 =>
    obtain ⟨-, rfl⟩ := Prod.mk.inj (Option.some.inj h)
    exact Nat.le_refl _

theorem sign_length (cs : List Char) : (exponent?.sign cs).2.length ≤ cs.length := by
  unfold exponent?.sign
  split <;> simp

theorem exponent?_length {cs rest : List Char} {e} (h : exponent? cs = some (e, rest)) :
    rest.length ≤ cs.length := by
  unfold exponent? at h
  split at h
  case h_3 =>
    obtain ⟨-, rfl⟩ := Prod.mk.inj (Option.some.inj h)
    exact Nat.le_refl _
  all_goals
    rename_i cs
    simp only [Option.bind_eq_bind, Option.bind_eq_some_iff, Option.pure_def, Option.some.injEq,
      Prod.mk.injEq] at h
    obtain ⟨⟨_, _⟩, hd, -, rfl⟩ := h
    have := digits?_length hd
    have := sign_length cs
    simp only [List.length_cons]
    omega

theorem number?_length {cs rest : List Char} {negative token}
    (h : number? negative cs = some (token, rest)) : rest.length < cs.length := by
  simp only [number?, Option.bind_eq_bind, Option.bind_eq_some_iff, Option.pure_def, Option.some.injEq,
    Prod.mk.injEq] at h
  obtain ⟨⟨_, _⟩, hw, ⟨_, _⟩, hf, ⟨_, _⟩, he, -, rfl⟩ := h
  have := whole?_length hw
  have := fraction?_length hf
  have := exponent?_length he
  dsimp only at *
  omega

theorem pieces?_length {cs : List Char} {pieces rest} (h : pieces? cs = some (pieces, rest)) :
    rest.length < cs.length := by
  fun_induction pieces? cs generalizing pieces rest
  case case1 => cases h
  case case2 => cases h; simp
  case case3 hi =>
    simp only [Option.bind_eq_bind, Option.bind_eq_some_iff, Option.pure_def, Option.some.injEq,
      Prod.mk.injEq] at h
    obtain ⟨_, _, ⟨_, _⟩, h, _, rfl⟩ := h
    have := hi h
    simp only [List.length_cons]
    omega
  case case4 hi =>
    simp only [Option.bind_eq_bind, Option.bind_eq_some_iff, Option.pure_def, Option.some.injEq,
      Prod.mk.injEq] at h
    obtain ⟨_, _, ⟨_, _⟩, h, _, rfl⟩ := h
    have := hi h
    simp only [List.length_cons]
    omega
  case case5 => simp at h
  case case6 hi =>
    simp only [Option.bind_eq_bind, Option.bind_eq_some_iff, Option.pure_def, Option.some.injEq,
      Prod.mk.injEq] at h
    obtain ⟨⟨_, _⟩, h, _, rfl⟩ := h
    have := hi h
    simp only [List.length_cons]
    omega

theorem string?_length {cs rest : List Char} {token} (h : string? cs = some (token, rest)) :
    rest.length < cs.length := by
  simp only [string?, Option.bind_eq_bind, Option.bind_eq_some_iff, Option.pure_def, Option.some.injEq,
    Prod.mk.injEq] at h
  obtain ⟨⟨_, _⟩, hp, -, rfl⟩ := h
  exact pieces?_length hp

theorem next?_length {cs rest : List Char} {token} (h : next? cs = some (token, rest)) :
    rest.length < cs.length := by
  unfold next? at h
  split at h
  case h_10 =>
    have := string?_length h
    simp only [List.length_cons]
    omega
  case h_11 =>
    have := number?_length h
    simp only [List.length_cons]
    omega
  case h_12 => exact number?_length h
  all_goals
    obtain ⟨-, rfl⟩ := Prod.mk.inj (Option.some.inj h)
    simp only [List.length_cons]
    omega

end Token
end PackageCoupling.Json
