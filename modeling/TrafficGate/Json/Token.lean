import TrafficGate.Json.Value
/-!
  # JSON tokens

  Cutting a text into brackets, marks, words, numbers and strings.

  1. `Token` -- the tokens;
  2. strings: pieces first, and then pairs of surrogates put together;
  3. numbers: a whole part without leading zeros, a fraction and an exponent;
  4. `tokens?` -- all tokens of a text; blanks between them are dropped.

  Main fact: **`length_token?_le`** (a token takes at least its first character).
-/

namespace TrafficGate.Json

/-! ## 1. Tokens -/

/-- A token of JSON. -/
inductive Token where
  | openList
  | closeList
  | openRecord
  | closeRecord
  | colon
  | comma
  | null
  | bool (b : Bool)
  | num (n : Number)
  | str (t : Option Text)
  deriving DecidableEq, Repr

/-! ## 2. Strings -/

/-- A part of a string: a character, or a number of 16 bits that an escape names. -/
inductive Piece where
  | char (c : Char)
  | unit (n : Nat)
  deriving DecidableEq, Repr

/-- The character of an escape with a letter. -/
def unescape? (c : Char) : Option Char :=
  if c = '"' then some '"'
  else if c = '\\' then some '\\'
  else if c = '/' then some '/'
  else if c = 'b' then some (Char.ofNat 8)
  else if c = 'f' then some (Char.ofNat 12)
  else if c = 'n' then some '\n'
  else if c = 'r' then some '\r'
  else if c = 't' then some '\t'
  else none

/-- The number of four hexadecimal digits. -/
def hexUnit? (a b c d : Char) : Option Nat := Numeral.readDigits? 16 0 [a, b, c, d]

/-- The pieces of a string up to its closing quote, and the text behind it. -/
def pieces? : Text → Option (List Piece × Text)
  | [] => none
  | '"' :: rest => some ([], rest)
  | '\\' :: 'u' :: a :: b :: c :: d :: rest =>
    match hexUnit? a b c d with
    | some n => (pieces? rest).map fun p => (.unit n :: p.1, p.2)
    | none => none
  | '\\' :: e :: rest =>
    match unescape? e with
    | some c => (pieces? rest).map fun p => (.char c :: p.1, p.2)
    | none => none
  | c :: rest =>
    if c.toNat < 32 then none else (pieces? rest).map fun p => (.char c :: p.1, p.2)

/-- Whether the number is the first half of a pair. -/
def isHigh (n : Nat) : Bool := 0xD800 ≤ n && n ≤ 0xDBFF

/-- Whether the number is the second half of a pair. -/
def isLow (n : Nat) : Bool := 0xDC00 ≤ n && n ≤ 0xDFFF

/-- The character of a pair. -/
def pairChar (hi lo : Nat) : Char := Char.ofNat (0x10000 + (hi - 0xD800) * 0x400 + (lo - 0xDC00))

/-- The text of the pieces; none when half of a pair stands alone. -/
def joinPieces? : List Piece → Option Text
  | [] => some []
  | .char c :: rest => (joinPieces? rest).map (c :: ·)
  | .unit hi :: .unit lo :: rest =>
    if isHigh hi then
      if isLow lo then (joinPieces? rest).map (pairChar hi lo :: ·) else none
    else if isLow hi then none
    else (joinPieces? (.unit lo :: rest)).map (Char.ofNat hi :: ·)
  | .unit n :: rest =>
    if isHigh n || isLow n then none else (joinPieces? rest).map (Char.ofNat n :: ·)

theorem length_pieces?_lt {t : Text} {ps : List Piece} {rest : Text}
    (h : pieces? t = some (ps, rest)) : rest.length < t.length := by
  induction t using pieces?.induct generalizing ps rest with
  | case1 => simp [pieces?] at h
  | case2 r =>
    simp only [pieces?, Option.some.injEq, Prod.mk.injEq] at h
    simp [h.2]
  | case3 a b c d r n hn ih =>
    simp only [pieces?, hn, Option.map_eq_some_iff] at h
    obtain ⟨⟨ps', r'⟩, hp, he⟩ := h
    cases he
    have := ih hp
    simp only [List.length_cons]
    omega
  | case4 a b c d r hn => simp [pieces?, hn] at h
  | case5 e r hu c hc ih =>
    rw [pieces?.eq_4] at h
    · simp only [hc, Option.map_eq_some_iff] at h
      obtain ⟨⟨ps', r'⟩, hp, he⟩ := h
      cases he
      have := ih hp
      simp only [List.length_cons]
      omega
    · exact hu
  | case6 e r hu hc =>
    rw [pieces?.eq_4] at h
    · simp [hc] at h
    · exact hu
  | case7 c r h1 h2 h3 hlt =>
    rw [pieces?.eq_5] at h
    · simp [hlt] at h
    · exact h1
    · exact h2
    · exact h3
  | case8 c r h1 h2 h3 hlt ih =>
    rw [pieces?.eq_5] at h
    · simp only [hlt, if_false, Option.map_eq_some_iff] at h
      obtain ⟨⟨ps', r'⟩, hp, he⟩ := h
      cases he
      have := ih hp
      simp only [List.length_cons]
      omega
    · exact h1
    · exact h2
    · exact h3

/-! ## 3. Numbers -/

/-- The leading digits of a text and the text behind them. -/
def digitRun (t : Text) : Text × Text := (t.takeWhile Ascii.isDigit, t.dropWhile Ascii.isDigit)

/-- The whole part: a zero alone, or digits that do not start with one. -/
def whole? (t : Text) : Option (Text × Text) :=
  match digitRun t with
  | ([], _) => none
  | ('0' :: _ :: _, _) => none
  | (ds, rest) => some (ds, rest)

/-- The fraction, if a point stands in front; none of it when no digit follows the point. -/
def fraction? (t : Text) : Option (Option Text × Text) :=
  match t with
  | '.' :: rest =>
    match digitRun rest with
    | ([], _) => none
    | (ds, rest) => some (some ds, rest)
  | _ => some (none, t)

/-- The sign in front of an exponent. -/
def exponentSign (t : Text) : Bool × Text :=
  match t with
  | '-' :: rest => (true, rest)
  | '+' :: rest => (false, rest)
  | _ => (false, t)

/-- The exponent, if its letter stands in front. -/
def exponent? (t : Text) : Option (Option Exponent × Text) :=
  match t with
  | c :: rest =>
    if c = 'e' ∨ c = 'E' then
      let (negative, rest) := exponentSign rest
      match digitRun rest with
      | ([], _) => none
      | (digits, rest) => some (some { negative, digits }, rest)
    else some (none, t)
  | [] => some (none, t)

/-- The number at the start of a text. -/
def number? (negative : Bool) (t : Text) : Option (Number × Text) :=
  match whole? t with
  | none => none
  | some (whole, t) =>
    match fraction? t with
    | none => none
    | some (fraction, t) =>
      match exponent? t with
      | none => none
      | some (exponent, t) => some ({ negative, whole, fraction, exponent }, t)

theorem length_digitRun_le (t : Text) : (digitRun t).2.length ≤ t.length :=
  (List.dropWhile_sublist _).length_le

/-- The digits and the text behind them are the text. -/
theorem digitRun_append (t : Text) : (digitRun t).1 ++ (digitRun t).2 = t :=
  List.takeWhile_append_dropWhile

/-- A whole part has a digit at least. -/
theorem length_whole?_lt {t rest ds : Text} (h : whole? t = some (ds, rest)) :
    rest.length < t.length := by
  have ha := congrArg List.length (digitRun_append t)
  rw [List.length_append] at ha
  unfold whole? at h
  split at h
  · cases h
  · cases h
  · next hne _ he =>
    cases h
    rw [he] at ha
    have := List.length_pos_iff.mpr hne
    simp only [] at ha
    omega

theorem length_fraction?_le {t rest : Text} {f : Option Text} (h : fraction? t = some (f, rest)) :
    rest.length ≤ t.length := by
  unfold fraction? at h
  split at h
  · next r =>
    have := length_digitRun_le r
    split at h
    · cases h
    · next he =>
      cases h
      rw [he] at this
      simp only [List.length_cons] at *
      omega
  · cases h
    exact Nat.le_refl _

theorem length_exponentSign_le (t : Text) : (exponentSign t).2.length ≤ t.length := by
  unfold exponentSign
  split <;> simp

theorem length_exponent?_le {t rest : Text} {e : Option Exponent}
    (h : exponent? t = some (e, rest)) : rest.length ≤ t.length := by
  unfold exponent? at h
  split at h
  · next c r =>
    have h1 := length_exponentSign_le r
    have h2 := length_digitRun_le (exponentSign r).2
    split at h
    · simp only [] at h
      split at h
      · cases h
      · next he =>
        cases h
        rw [he] at h2
        simp only [List.length_cons] at *
        omega
    · cases h
      exact Nat.le_refl _
  · cases h
    exact Nat.le_refl _

theorem length_number?_lt {negative : Bool} {t rest : Text} {n : Number}
    (h : number? negative t = some (n, rest)) : rest.length < t.length := by
  unfold number? at h
  split at h
  · cases h
  · next hw =>
    split at h
    · cases h
    · next hf =>
      split at h
      · cases h
      · next he =>
        cases h
        have := length_whole?_lt hw
        have := length_fraction?_le hf
        have := length_exponent?_le he
        omega

/-! ## 4. Texts -/

/-- The blanks between tokens. -/
def isBlank (c : Char) : Bool := c == ' ' || c == '\t' || c == '\n' || c == '\r'

/-- The word at the start of a text, if it stands there. -/
def word? (word : String) (token : Token) (t : Text) : Option (Token × Text) :=
  (Seq.stripStart? word.toList t).map fun rest => (token, rest)

/-- The token of a character that is one by itself. -/
def mark? (c : Char) : Option Token :=
  if c = '[' then some .openList
  else if c = ']' then some .closeList
  else if c = '\x7b' then some .openRecord
  else if c = '\x7d' then some .closeRecord
  else if c = ':' then some .colon
  else if c = ',' then some .comma
  else none

/-- The word that starts with the character `c` and goes on in `rest`. -/
def wordToken? (c : Char) (rest : Text) : Option (Token × Text) :=
  if c = 'n' then word? "ull" .null rest
  else if c = 't' then word? "rue" (.bool true) rest
  else if c = 'f' then word? "alse" (.bool false) rest
  else none

/-- The number that starts with the character `c` and goes on in `rest`. -/
def numberToken? (c : Char) (rest : Text) : Option (Token × Text) :=
  let number := if c = '-' then number? true rest else number? false (c :: rest)
  number.map fun p => (.num p.1, p.2)

/-- The token that starts with the character `c` and goes on in `rest`. -/
def token? (c : Char) (rest : Text) : Option (Token × Text) :=
  match mark? c with
  | some tok => some (tok, rest)
  | none =>
    if c = '"' then (pieces? rest).map fun p => (.str (joinPieces? p.1), p.2)
    else if Ascii.isAlpha c then wordToken? c rest
    else numberToken? c rest

theorem length_word?_le {word : String} {token tok : Token} {t rest : Text}
    (h : word? word token t = some (tok, rest)) : rest.length ≤ t.length := by
  obtain ⟨r, hr, he⟩ := Option.map_eq_some_iff.mp h
  cases he
  rw [Seq.stripStart?_eq_some_iff.mp hr, List.length_append]
  exact Nat.le_add_left _ _

theorem length_wordToken?_le {c : Char} {rest left : Text} {tok : Token}
    (h : wordToken? c rest = some (tok, left)) : left.length ≤ rest.length := by
  unfold wordToken? at h
  split at h
  · exact length_word?_le h
  · split at h
    · exact length_word?_le h
    · split at h
      · exact length_word?_le h
      · cases h

theorem length_numberToken?_le {c : Char} {rest left : Text} {tok : Token}
    (h : numberToken? c rest = some (tok, left)) : left.length ≤ rest.length := by
  obtain ⟨p, hp, he⟩ := Option.map_eq_some_iff.mp h
  cases he
  split at hp
  · exact Nat.le_of_lt (length_number?_lt hp)
  · exact Nat.le_of_lt_succ (length_number?_lt hp)

/-- **A token leaves no more than what follows its first character.** -/
theorem length_token?_le {c : Char} {rest left : Text} {tok : Token}
    (h : token? c rest = some (tok, left)) : left.length ≤ rest.length := by
  unfold token? at h
  split at h
  · cases h
    exact Nat.le_refl _
  · split at h
    · obtain ⟨p, hp, he⟩ := Option.map_eq_some_iff.mp h
      cases he
      exact Nat.le_of_lt (length_pieces?_lt hp)
    · split at h
      · exact length_wordToken?_le h
      · exact length_numberToken?_le h

/-- The tokens of a text; none when some part of it is no token. -/
def tokens? : Text → Option (List Token)
  | [] => some []
  | c :: rest =>
    if isBlank c then tokens? rest
    else
      match _h : token? c rest with
      | none => none
      | some (tok, left) => (tokens? left).map (tok :: ·)
termination_by t => t.length
decreasing_by
  · exact Nat.lt_succ_self _
  · exact Nat.lt_succ_of_le (length_token?_le _h)

end TrafficGate.Json
