import PackageCoupling.Json.Parse
import PackageCoupling.Json.Render

namespace PackageCoupling.Json

-- What holds of arrays and objects if it holds of all that they hold, and of all other values, holds of every value.
@[elab_as_elim]
theorem nestedInduction {motive : Json → Prop} (null : motive .null) (bool : ∀ b, motive (.bool b))
    (number : ∀ n, motive (.number n)) (string : ∀ s, motive (.string s))
    (array : ∀ vs, (∀ v ∈ vs, motive v) → motive (.array vs))
    (object : ∀ ms, (∀ m ∈ ms, motive m.2) → motive (.object ms)) (v : Json) : motive v := by
  cases v
  case null      => exact null
  case bool b    => exact bool b
  case number n  => exact number n
  case string s  => exact string s
  case array vs  => exact array vs fun v _ => nestedInduction null bool number string array object v
  case object ms => exact object ms fun m _ => nestedInduction null bool number string array object m.2
termination_by sizeOf v
decreasing_by
  case _ h =>
    have := List.sizeOf_lt_of_mem h
    simp only [Json.array.sizeOf_spec]
    omega
  case _ h =>
    have := List.sizeOf_lt_of_mem h
    obtain ⟨k, v⟩ := m
    simp only [Json.object.sizeOf_spec, Prod.mk.sizeOf_spec] at this ⊢
    omega

def IsDigits (cs : List Char) : Prop :=
  cs ≠ [] ∧ ∀ c ∈ cs, c.isDigit

-- Numbers that are written as JSON has them: a zero only starts a number if it stands alone.
structure Numeral.Legible (n : Numeral) : Prop where
  whole : IsDigits n.whole
  zero : ∀ cs, n.whole = '0' :: cs → cs = []
  fraction : ∀ cs ∈ n.fraction, IsDigits cs
  exponent : ∀ e ∈ n.exponent, IsDigits e.2

namespace Token

def EndsDigits (cs : List Char) : Prop :=
  ∀ c ∈ cs.head?, c.isDigit = false

def EndsNumber (cs : List Char) : Prop :=
  ∀ c ∈ cs.head?, c.isDigit = false ∧ c ≠ '.' ∧ c ≠ 'e' ∧ c ≠ 'E'

variable {cs ds rest : List Char}

theorem EndsNumber.endsDigits (h : EndsNumber cs) : EndsDigits cs :=
  fun c hc => (h c hc).left

theorem digits?_append (hd : IsDigits ds) (hr : EndsDigits rest) : digits? (ds ++ rest) = some (ds, rest) := by
  have ht : rest.takeWhile Char.isDigit = [] ∧ rest.dropWhile Char.isDigit = rest := by
    cases rest
    case nil       => exact ⟨rfl, rfl⟩
    case cons c cs => simp [hr c rfl]
  rw [digits?, List.takeWhile_append_of_pos hd.right, List.dropWhile_append_of_pos hd.right, ht.left, ht.right,
    List.append_nil]
  cases ds
  case nil  => exact absurd rfl hd.left
  case cons => rfl

theorem whole?_append (hd : IsDigits ds) (hz : ∀ cs, ds = '0' :: cs → cs = []) (hr : EndsDigits rest) :
    whole? (ds ++ rest) = some (ds, rest) := by
  rw [whole?, digits?_append hd hr, Option.bind_eq_bind, Option.bind_some]
  split
  case h_1 he =>
    obtain ⟨rfl, rfl⟩ := Prod.mk.inj he
    simpa using hz _ rfl
  case h_2 he =>
    obtain ⟨rfl, rfl⟩ := Prod.mk.inj he
    rfl

theorem fraction?_none (hr : EndsNumber rest) : fraction? rest = some (none, rest) := by
  rw [fraction?]
  rintro cs rfl
  exact (hr '.' rfl).right.left rfl

theorem fraction?_some (hd : IsDigits ds) (hr : EndsDigits rest) :
    fraction? ('.' :: (ds ++ rest)) = some (some ds, rest) := by
  rw [fraction?, digits?_append hd hr]
  rfl

theorem exponent?_none (hr : EndsNumber rest) : exponent? rest = some (none, rest) := by
  rw [exponent?]
  case x_1 =>
    rintro cs rfl
    exact (hr 'e' rfl).right.right.left rfl
  case x_2 =>
    rintro cs rfl
    exact (hr 'E' rfl).right.right.right rfl

theorem exponent?_some {negative : Bool} (hd : IsDigits ds) (hr : EndsDigits rest) :
    exponent? ('e' :: ((if negative then ['-'] else []) ++ (ds ++ rest))) = some (some (negative, ds), rest) := by
  have hs : exponent?.sign ((if negative then ['-'] else []) ++ (ds ++ rest)) = (negative, ds ++ rest) := by
    cases negative
    case true  => rfl
    case false =>
      obtain ⟨d, ds, rfl⟩ := List.exists_cons_of_ne_nil hd.left
      have hd := hd.right d List.mem_cons_self
      rw [if_neg (by decide), List.nil_append, List.cons_append, exponent?.sign]
      all_goals
        rintro cs ⟨⟩
        exact absurd hd (by decide)
  rw [exponent?, hs]
  simp [digits?_append hd hr]

theorem number?_render {n : Numeral} (h : n.Legible) (hr : EndsNumber rest) :
    number? n.negative (renderNumeral { n with negative := false } ++ rest) = some (.number n, rest) := by
  obtain ⟨negative, whole, fraction, exponent⟩ := n
  obtain ⟨hw, hz, hf, he⟩ := h
  have hd := hr.endsDigits
  have hp (cs : List Char) : EndsDigits ('.' :: cs) := by simp [EndsDigits]
  have hx (cs : List Char) : EndsDigits ('e' :: cs) := by simp [EndsDigits]
  cases fraction <;> cases exponent
  case none.none =>
    simp [renderNumeral, number?, whole?_append hw hz hd, fraction?_none hr, exponent?_none hr]
  case none.some e =>
    have he := he e rfl
    have hn : fraction? ('e' :: ((if e.1 then ['-'] else []) ++ (e.2 ++ rest)))
        = some (none, 'e' :: ((if e.1 then ['-'] else []) ++ (e.2 ++ rest))) := rfl
    simp [renderNumeral, number?, whole?_append hw hz (hx _), hn, exponent?_some he hd]
  case some.none ds =>
    have hf := hf ds rfl
    simp [renderNumeral, number?, whole?_append hw hz (hp _), fraction?_some hf hd, exponent?_none hr]
  case some.some ds e =>
    have hf := hf ds rfl
    have he := he e rfl
    simp [renderNumeral, number?, whole?_append hw hz (hp _), fraction?_some hf (hx _), exponent?_some he hd]

theorem next?_digit {c : Char} (h : c.isDigit) : next? (c :: cs) = number? false (c :: cs) := by
  rw [next?]
  all_goals
    rintro cs ⟨⟩
    exact absurd h (by decide)

theorem next?_number {n : Numeral} (h : n.Legible) (hr : EndsNumber rest) :
    next? (renderNumeral n ++ rest) = some (.number n, rest) := by
  have hn := number?_render h hr
  have hs : renderNumeral n = (if n.negative then ['-'] else []) ++ renderNumeral { n with negative := false } := by
    simp [renderNumeral]
  obtain ⟨d, ds, hw⟩ := List.exists_cons_of_ne_nil h.whole.left
  rw [hs]
  cases hb : n.negative
  case true =>
    rw [hb] at hn
    exact hn
  case false =>
    rw [hb] at hn
    rw [if_neg (by decide), List.nil_append, ← hn]
    simp only [renderNumeral, hw]
    exact next?_digit (h.whole.right d (hw ▸ List.mem_cons_self))

theorem spell_unit {u : Nat} (hh : isHighSurrogate u = false) (hl : isLowSurrogate u = false) (ps : List Piece) :
    spell (.unit u :: ps) = (Char.ofNat u :: ·) <$> spell ps := by
  cases ps
  case nil       => simp [spell, hh, hl]
  case cons p ps => cases p <;> simp [spell, hh, hl]

theorem hexUnit?_hexChar : ∀ n < 0x20, hexUnit? '0' '0' (hexChar (n / 16)) (hexChar (n % 16)) = some n := by
  decide

theorem pieces?_letter {c e : Char} (h : escaped? e = some c) (cs : List Char) :
    pieces? ('\\' :: e :: cs) = (pieces? cs).map fun r => (.char c :: r.1, r.2) := by
  rw [pieces?, h]
  case x_1 =>
    rintro _ _ _ _ _ rfl
    simp [escaped?] at h
  cases pieces? cs <;> rfl

theorem pieces?_char {c : Char} (hq : c ≠ '"') (hb : c ≠ '\\') (hc : ¬ c.toNat < 0x20) (cs : List Char) :
    pieces? (c :: cs) = (pieces? cs).map fun r => (.char c :: r.1, r.2) := by
  rw [pieces?]
  case x_1 => exact hq
  case x_2 => exact fun _ _ _ _ _ h _ => hb h
  case x_3 => exact fun _ _ h _ => hb h
  rw [if_neg (by simp [hb, hc])]
  cases pieces? cs <;> rfl

-- What is written for a character is read as one piece that spells it.
theorem pieces?_escape (c : Char) (cs : List Char) :
    ∃ p, pieces? (escape c ++ cs) = (pieces? cs).map (fun r => (p :: r.1, r.2))
      ∧ ∀ ps, spell (p :: ps) = (c :: ·) <$> spell ps := by
  have hs (ps : List Piece) : spell (.char c :: ps) = (c :: ·) <$> spell ps := by rw [spell]
  have hl {e : Char} (he : escaped? e = some c) : ∃ p, pieces? (['\\', e] ++ cs)
      = (pieces? cs).map (fun r => (p :: r.1, r.2)) ∧ ∀ ps, spell (p :: ps) = (c :: ·) <$> spell ps :=
    ⟨.char c, pieces?_letter he cs, hs⟩
  rw [escape]
  -- These are the characters that have a letter.
  iterate 7
    split
    case isTrue h =>
      subst h
      exact hl rfl
  rename_i hq hb _ _ _ _ _
  split
  case isTrue h =>
    refine ⟨.unit c.toNat, ?_, fun ps => ?_⟩
    case refine_1 =>
      simp only [List.cons_append, List.nil_append]
      rw [pieces?, hexUnit?_hexChar _ h]
      cases pieces? cs <;> rfl
    case refine_2 =>
      rw [spell_unit, Char.ofNat_toNat]
      · simp only [isHighSurrogate, Bool.and_eq_false_iff, decide_eq_false_iff_not]; omega
      · simp only [isLowSurrogate, Bool.and_eq_false_iff, decide_eq_false_iff_not]; omega
  case isFalse h => exact ⟨.char c, pieces?_char hq hb h cs, hs⟩

theorem pieces?_escapes (text rest : List Char) :
    ∃ ps, pieces? (text.flatMap escape ++ '"' :: rest) = some (ps, rest) ∧ spell ps = some text := by
  induction text
  case nil => exact ⟨[], rfl, rfl⟩
  case cons c text hi =>
    obtain ⟨ps, hp, hs⟩ := hi
    obtain ⟨p, he, hc⟩ := pieces?_escape c (text.flatMap escape ++ '"' :: rest)
    refine ⟨p :: ps, ?_, ?_⟩
    case refine_1 => rw [List.flatMap_cons, List.append_assoc, he, hp, Option.map_some]
    case refine_2 => rw [hc, hs, Option.map_eq_map, Option.map_some]

theorem next?_text (text : Option String) : next? (renderText text ++ rest) = some (.string text, rest) := by
  cases text
  case none =>
    have hu : hexUnit? 'd' '8' '0' '0' = some 0xd800 := by decide
    have hs : spell [.unit 0xd800] = none := by decide
    simp [renderText, next?, string?, pieces?, hu, hs]
  case some s =>
    obtain ⟨ps, hp, hs⟩ := pieces?_escapes s.toList rest
    have ht : string? (s.toList.flatMap escape ++ '"' :: rest) = some (.string (some s), rest) := by
      simp [string?, hp, hs]
    simp only [renderText, List.cons_append, List.append_assoc, List.nil_append]
    exact ht

def Legible (token : Token) : Prop :=
  ∀ n, token = .number n → n.Legible

theorem next?_render {token : Token} (h : token.Legible) (hr : ∀ n, token = .number n → EndsNumber rest) :
    next? (token.render ++ rest) = some (token, rest) := by
  cases token
  case number n => exact next?_number (h n rfl) (hr n rfl)
  case string s => exact next?_text s
  case bool b   => cases b <;> rfl
  all_goals rfl

theorem dropWhile_of_next? {token : Token} (h : next? cs = some (token, rest)) : cs.dropWhile isSpace = cs := by
  cases cs
  case nil       => rfl
  case cons c cs =>
    refine List.dropWhile_cons_of_neg fun hc => ?_
    simp only [isSpace, Bool.or_eq_true, decide_eq_true_eq] at hc
    obtain ((rfl | rfl) | rfl) | rfl := hc <;> simp [next?, number?, whole?, digits?] at h

end Token

namespace Reader

variable {reader reader' : Reader} {frames : List Frame} {cs rest : List Char}

def feed (reader : Reader) (tokens : List Token) : Option Reader :=
  tokens.foldlM step reader

theorem feed_cons {token : Token} {tokens : List Token} :
    reader.feed (token :: tokens) = (reader.step token).bind (·.feed tokens) :=
  List.foldlM_cons

theorem feed_append {first second : List Token} :
    reader.feed (first ++ second) = (reader.feed first).bind (·.feed second) :=
  List.foldlM_append

theorem run_of_next? {token : Token} (hn : Token.next? cs = some (token, rest))
    (hs : reader.step token = some reader') : reader.run cs = reader'.run rest := by
  have hd := Token.dropWhile_of_next? hn
  rw [run]
  split
  case h_1 h =>
    rw [hd] at h
    subst h
    simp [Token.next?, Token.number?, Token.whole?, Token.digits?] at hn
  case h_2 h =>
    rw [hd] at h
    subst h
    split
    case h_1 h => simp [hn] at h
    case h_2 h =>
      cases hn.symm.trans h
      simp [hs]

theorem step_number {n : Numeral} (h : reader.step (.number n) = some reader') :
    ∃ frames, reader' = after (.number n) frames := by
  cases reader
  case value fs      => exact ⟨fs, (Option.some.inj h).symm⟩
  case arrayStart fs => exact ⟨.array [] :: fs, (Option.some.inj h).symm⟩
  case after v fs    => rcases fs with _ | ⟨_ | _, _⟩ <;> cases h
  all_goals cases h

theorem endsNumber_of_step {value : Json} {token : Token} (h : (after value frames).step token = some reader) :
    Token.EndsNumber (token.render ++ cs) := by
  cases token
  case comma | closeArray | closeObject => simp [Token.render, Token.EndsNumber]
  all_goals rcases frames with _ | ⟨_ | _, _⟩ <;> cases h

theorem run_render {tokens : List Token} (hl : ∀ t ∈ tokens, t.Legible) (hf : reader.feed tokens = some reader')
    (hr : Token.EndsNumber rest) : reader.run (tokens.flatMap Token.render ++ rest) = reader'.run rest := by
  induction tokens generalizing reader
  case nil =>
    cases hf
    rfl
  case cons token tokens hi =>
    rw [List.forall_mem_cons] at hl
    rw [feed_cons] at hf
    obtain ⟨between, hs, hf⟩ := Option.bind_eq_some_iff.mp hf
    rw [List.flatMap_cons, List.append_assoc, ← hi hl.right hf]
    refine run_of_next? (Token.next?_render hl.left fun n hn => ?_) hs
    subst hn
    obtain ⟨frames, rfl⟩ := step_number hs
    cases tokens
    case nil => exact hr
    case cons token tokens =>
      rw [feed_cons] at hf
      obtain ⟨_, hs, _⟩ := Option.bind_eq_some_iff.mp hf
      rw [List.flatMap_cons, List.append_assoc]
      exact endsNumber_of_step hs

theorem feed_arrayStart {token : Token} {tokens : List Token} (h : token ≠ .closeArray) :
    (arrayStart frames).feed (token :: tokens) = (value (.array [] :: frames)).feed (token :: tokens) := by
  rw [feed_cons, feed_cons]
  cases token
  case closeArray => exact absurd rfl h
  all_goals rfl

theorem itemTokens_eq_cons (v : Json) (vs : List Json) :
    ∃ token tokens, itemTokens (v :: vs) = token :: tokens ∧ token ≠ .closeArray := by
  have hv : ∃ token tokens, v.tokens = token :: tokens ∧ token ≠ .closeArray := by
    cases v
    all_goals
      rw [tokens]
      exact ⟨_, _, rfl, by simp⟩
  obtain ⟨token, tokens, ht, hn⟩ := hv
  cases vs
  case nil  => exact ⟨token, tokens, by rw [itemTokens, ht], hn⟩
  case cons => exact ⟨token, _, by rw [itemTokens, ht, List.cons_append], hn⟩

theorem feed_objectStart {m : Option String × Json} {ms : List (Option String × Json)} {tokens : List Token} :
    (objectStart frames).feed (memberTokens (m :: ms) ++ tokens)
      = (key [] frames).feed (memberTokens (m :: ms) ++ tokens) := by
  obtain ⟨k, v⟩ := m
  cases ms <;> rfl

-- The tokens of a value bring the reader past it.
def Passes (v : Json) : Prop :=
  ∀ frames, (value frames).feed v.tokens = some (after v frames)

theorem feed_itemTokens {v : Json} {vs read : List Json} (hv : ∀ w ∈ v :: vs, Passes w) :
    (value (.array read :: frames)).feed (itemTokens (v :: vs) ++ [.closeArray])
      = some (after (.array (read.reverse ++ v :: vs)) frames) := by
  induction vs generalizing v read
  case nil =>
    rw [itemTokens, feed_append, hv v List.mem_cons_self]
    simp [feed, step]
  case cons w vs hi =>
    rw [List.forall_mem_cons] at hv
    calc (value (.array read :: frames)).feed (itemTokens (v :: w :: vs) ++ [.closeArray])
      _ = (after v (.array read :: frames)).feed (.comma :: itemTokens (w :: vs) ++ [.closeArray]) := by
        rw [itemTokens, List.append_assoc, feed_append, hv.left, Option.bind_some]
      _ = (value (.array (v :: read) :: frames)).feed (itemTokens (w :: vs) ++ [.closeArray]) := rfl
      _ = some (after (.array (read.reverse ++ v :: w :: vs)) frames) := by
        rw [hi hv.right, List.reverse_cons, List.append_assoc, List.singleton_append]

theorem feed_memberTokens {m : Option String × Json} {ms read : List (Option String × Json)}
    (hm : ∀ n ∈ m :: ms, Passes n.2) :
    (key read frames).feed (memberTokens (m :: ms) ++ [.closeObject])
      = some (after (.object (read.reverse ++ m :: ms)) frames) := by
  induction ms generalizing m read
  case nil =>
    obtain ⟨k, v⟩ := m
    have hv : Passes v := hm (k, v) List.mem_cons_self
    calc (key read frames).feed (memberTokens [(k, v)] ++ [.closeObject])
      _ = (value (.object read k :: frames)).feed (v.tokens ++ [.closeObject]) := rfl
      _ = (after v (.object read k :: frames)).feed [.closeObject] := by rw [feed_append, hv, Option.bind_some]
      _ = some (after (.object (read.reverse ++ [(k, v)])) frames) := by simp [feed, step]
  case cons n ms hi =>
    obtain ⟨k, v⟩ := m
    rw [List.forall_mem_cons] at hm
    have hv : Passes v := hm.left
    calc (key read frames).feed (memberTokens ((k, v) :: n :: ms) ++ [.closeObject])
      _ = (value (.object read k :: frames)).feed
          (v.tokens ++ (.comma :: memberTokens (n :: ms)) ++ [.closeObject]) := rfl
      _ = (after v (.object read k :: frames)).feed (.comma :: memberTokens (n :: ms) ++ [.closeObject]) := by
        rw [List.append_assoc, feed_append, hv, Option.bind_some]
      _ = (key ((k, v) :: read) frames).feed (memberTokens (n :: ms) ++ [.closeObject]) := rfl
      _ = some (after (.object (read.reverse ++ (k, v) :: n :: ms)) frames) := by
        rw [hi hm.right, List.reverse_cons, List.append_assoc, List.singleton_append]

theorem passes (v : Json) : Passes v := by
  induction v using nestedInduction
  case array vs hi =>
    intro frames
    rw [tokens, List.cons_append, feed_cons, step, begin, Option.bind_some]
    cases vs
    case nil       => rfl
    case cons v vs =>
      obtain ⟨token, tokens, ht, hn⟩ := itemTokens_eq_cons v vs
      have hv := @feed_itemTokens frames v vs [] hi
      rw [ht, List.cons_append] at hv ⊢
      rw [feed_arrayStart hn, hv]
      rfl
  case object ms hi =>
    intro frames
    rw [tokens, List.cons_append, feed_cons, step, begin, Option.bind_some]
    cases ms
    case nil       => rfl
    case cons m ms =>
      have hm := @feed_memberTokens frames m ms [] hi
      rw [feed_objectStart, hm]
      rfl
  all_goals
    intro frames
    rw [tokens]
    rfl

end Reader

def Legible (value : Json) : Prop :=
  ∀ token ∈ value.tokens, token.Legible

theorem parse?_render {v : Json} (h : v.Legible) : parse? v.render = some v := by
  have hn : Token.EndsNumber [] := by simp [Token.EndsNumber]
  have hr := Reader.run_render h (Reader.passes v []) hn
  rw [List.append_nil] at hr
  rw [parse?, render, String.toList_ofList, Reader.start, hr, Reader.run]
  simp [Reader.finish]

theorem eq_nil_of_toDigits_eq (n : Nat) : ∀ cs, Nat.toDigits 10 n = '0' :: cs → cs = [] := by
  induction n using Nat.strongRecOn
  case ind n hi =>
    intro cs h
    by_cases hn : n < 10
    case pos =>
      rw [Nat.toDigits_of_lt_base hn] at h
      exact (List.cons.inj h).right.symm
    case neg =>
      have hp : 0 < n / 10 := by omega
      obtain ⟨d, ds, hd⟩ := List.exists_cons_of_ne_nil (@Nat.toDigits_ne_nil (n / 10) 10)
      rw [Nat.toDigits_of_base_le (by decide) (by omega), hd, List.cons_append] at h
      obtain ⟨rfl, _⟩ := List.cons.inj h
      have hz : ds = [] := hi (n / 10) (by omega) ds hd
      have hv : n / 10 = 0 := by
        rw [← @Nat.ofDigitChars_ten_toDigits (n / 10), hd, hz]
        rfl
      omega

theorem Numeral.legible_ofNat (n : Nat) : (ofNat n).Legible where
  whole    := ⟨Nat.toDigits_ne_nil, fun _ => Nat.isDigit_of_mem_toDigits (by decide) (by decide)⟩
  zero     := eq_nil_of_toDigits_eq n
  fraction := by simp [ofNat]
  exponent := by simp [ofNat]

theorem legible_null : null.Legible := by
  simp [Legible, tokens, Token.Legible]

theorem legible_ofText (s : String) : (ofText s).Legible := by
  simp [Legible, ofText, tokens, Token.Legible]

theorem legible_ofNat (n : Nat) : (ofNat n).Legible := by
  simp [Legible, ofNat, tokens, Token.Legible, Numeral.legible_ofNat]

theorem legible_array {vs : List Json} (h : ∀ v ∈ vs, v.Legible) : (array vs).Legible := by
  have hi : ∀ token ∈ itemTokens vs, token.Legible := by
    induction vs
    case nil => simp [itemTokens]
    case cons v vs hi =>
      rw [List.forall_mem_cons] at h
      cases vs
      case nil =>
        rw [itemTokens]
        exact h.left
      case cons =>
        rw [itemTokens, List.forall_mem_append, List.forall_mem_cons]
        exact ⟨h.left, by simp [Token.Legible], hi h.right⟩
  rw [Legible, tokens, List.cons_append, List.forall_mem_cons, List.forall_mem_append, List.forall_mem_singleton]
  refine ⟨?_, hi, ?_⟩ <;> simp [Token.Legible]

theorem legible_object {ms : List (Option String × Json)} (h : ∀ m ∈ ms, m.2.Legible) : (object ms).Legible := by
  have hi : ∀ token ∈ memberTokens ms, token.Legible := by
    induction ms
    case nil => simp [memberTokens]
    case cons m ms hi =>
      rw [List.forall_mem_cons] at h
      cases ms
      case nil =>
        rw [memberTokens, List.forall_mem_cons, List.forall_mem_cons]
        refine ⟨?_, ?_, h.left⟩ <;> simp [Token.Legible]
      case cons =>
        rw [memberTokens, List.forall_mem_append, List.forall_mem_cons, List.forall_mem_cons, List.forall_mem_cons]
        refine ⟨⟨?_, ?_, h.left⟩, ?_, hi h.right⟩ <;> simp [Token.Legible]
  rw [Legible, tokens, List.cons_append, List.forall_mem_cons, List.forall_mem_append, List.forall_mem_singleton]
  refine ⟨?_, hi, ?_⟩ <;> simp [Token.Legible]

theorem legible_ofList {α : Type} {f : α → Json} (h : ∀ a, (f a).Legible) (as : List α) : (ofList f as).Legible := by
  refine legible_array fun v hv => ?_
  obtain ⟨a, _, rfl⟩ := List.mem_map.mp hv
  exact h a

theorem legible_ofOption {α : Type} {f : α → Json} (h : ∀ a, (f a).Legible) (o : Option α) :
    (ofOption f o).Legible := by
  cases o
  case none   => exact legible_null
  case some a => exact h a

theorem legible_ofFields {fields : List (String × Json)} (h : ∀ field ∈ fields, field.2.Legible) :
    (ofFields fields).Legible := by
  refine legible_object fun m hm => ?_
  obtain ⟨field, hf, rfl⟩ := List.mem_map.mp hm
  exact h field hf

end PackageCoupling.Json
