import Mathlib.Tactic.Choose
import TrafficGate.Json.Parse
import TrafficGate.Json.Render
import TrafficGate.Proofs.DigitStrings
/-!
  # What is written as JSON is read back

  A value whose strings are texts and whose numbers are integers is written on one line, and reading
  that line gives the value again.

  1. `Writable` -- the values;
  2. `Ends` -- where a numeral ends, and numerals;
  3. strings: each character is a piece, and the pieces are the text;
  4. `Spelled` -- the tokens that a value is written with, and what reading them does;
  5. lists and records, by the tokens of their parts;
  6. whole values;
  7. a value is written without controls, and so on one line.

  Main facts: **`Writable.spelled`**, **`parse?_render`** and **`visible_render`**.
-/

namespace TrafficGate

/-! ## 1. Values -/

namespace Json

/-- A value whose strings and keys are texts and whose numbers are integers. -/
inductive Writable : Json → Prop where
  | null : Writable null
  | bool (b : Bool) : Writable (bool b)
  | int (i : Int) : Writable (int i)
  | text (t : Text) : Writable (text t)
  | arr {values : List Json} (h : ∀ v ∈ values, Writable v) : Writable (arr values)
  | record {members : List (Text × Json)} (h : ∀ m ∈ members, Writable m.2) :
    Writable (record members)

theorem nat_eq_int (n : Nat) : nat n = int n := by
  simp [nat, int, Number.ofInt, Number.ofNat]

theorem Writable.nat (n : Nat) : Writable (nat n) := nat_eq_int n ▸ .int n

theorem Writable.ofOption {α : Type} {f : α → Json} (h : ∀ a, Writable (f a)) (o : Option α) :
    Writable (ofOption f o) := by
  cases o with
  | none => exact .null
  | some a => exact h a

/-! ## 2. Numerals -/

/-- Where a numeral ends: at the end of the text, or in front of a character that goes on no
    numeral. -/
def Ends (rest : Text) : Prop :=
  ∀ c ∈ rest.head?, Ascii.isDigit c = false ∧ c ≠ '.' ∧ c ≠ 'e' ∧ c ≠ 'E'

theorem digitRun_append_of_ends {digits rest : Text} (hd : ∀ c ∈ digits, Ascii.isDigit c = true)
    (hrest : Ends rest) : digitRun (digits ++ rest) = (digits, rest) := by
  have hend : ∀ c ∈ rest.head?, Ascii.isDigit c = false := fun c hc => (hrest c hc).1
  rw [digitRun, Seq.takeWhile_append_of_head hd hend, Seq.dropWhile_append_of_head hd hend]

/-- **The numeral of a natural number is read up to its end.** -/
theorem number?_decimal (negative : Bool) (n : Nat) {rest : Text} (hrest : Ends rest) :
    number? negative (Numeral.decimal n ++ rest) =
      some ({ Number.ofNat n with negative }, rest) := by
  have hwhole : whole? (Numeral.decimal n ++ rest) = some (Numeral.decimal n, rest) := by
    rw [whole?, digitRun_append_of_ends (Numeral.digits_decimal n) hrest]
    split
    · next h => exact absurd (Prod.mk.inj h).1 (Numeral.decimal_ne_nil n)
    · next h =>
      -- Two digits, the first of them a zero: the number is not zero, and zero has one digit only.
      have hzero : n ≠ 0 := by
        rintro rfl
        simp [Numeral.decimal] at h
      exact absurd (by rw [(Prod.mk.inj h).1]; rfl) (Numeral.head?_decimal hzero)
    · next h => cases h; rfl
  have hfraction : fraction? rest = some (none, rest) := by
    unfold fraction?
    split
    · exact absurd rfl (hrest '.' rfl).2.1
    · rfl
  have hexponent : exponent? rest = some (none, rest) := by
    unfold exponent?
    split
    · next c _ =>
      rw [if_neg]
      rintro (he | he)
      · exact (hrest c rfl).2.2.1 he
      · exact (hrest c rfl).2.2.2 he
    · rfl
  simp only [number?, hwhole, hfraction, hexponent, Number.ofNat]

/-! ## 3. Strings -/

/-- How a character is read: by its number if it was written by its number. -/
def pieceOf (c : Char) : Piece :=
  if (letterEscape? c).isNone ∧ c.toNat < 32 then .unit c.toNat else .char c

theorem char_of_toNat {c : Char} {n : Nat} (h : c.toNat = n) : Char.ofNat n = c := by
  rw [← h, Char.ofNat_toNat]

/-- The letter of an escape is read back, and is not the one of a number. -/
theorem unescape?_of_letterEscape? {c e : Char} (h : letterEscape? c = some e) :
    unescape? e = some c ∧ e ≠ 'u' := by
  unfold letterEscape? at h
  split at h
  · next hc => cases h; subst hc; decide
  split at h
  · next hc => cases h; subst hc; decide
  split at h
  · next hc => cases h; rw [← char_of_toNat hc]; decide
  split at h
  · next hc => cases h; rw [← char_of_toNat hc]; decide
  split at h
  · next hc => cases h; subst hc; decide
  split at h
  · next hc => cases h; subst hc; decide
  split at h
  · next hc => cases h; subst hc; decide
  · cases h

/-- The four digits of a number below 32 are read back. -/
theorem hexUnit?_control {n : Nat} (h : n < 32) :
    hexUnit? '0' '0' (Quoted.hexDigit (n / 16)) (Quoted.hexDigit (n % 16)) = some n := by
  revert n
  decide

/-- **A character as it stands in a string is read as its piece.** -/
theorem pieces?_escapeChar (c : Char) (rest : Text) :
    pieces? (escapeChar c ++ rest) = (pieces? rest).map fun p => (pieceOf c :: p.1, p.2) := by
  unfold escapeChar pieceOf
  cases he : letterEscape? c with
  | some e =>
    obtain ⟨hread, hne⟩ := unescape?_of_letterEscape? he
    simp only [List.cons_append, List.nil_append]
    rw [pieces?.eq_4 e rest fun _ _ _ _ _ hu _ => hne hu, hread]
    simp
  | none =>
    by_cases hc : c.toNat < 32
    · have hunit := hexUnit?_control hc
      rw [if_pos hc, if_pos ⟨rfl, hc⟩]
      change pieces? ('\\' :: 'u' :: '0' :: '0' :: Quoted.hexDigit (c.toNat / 16) ::
        Quoted.hexDigit (c.toNat % 16) :: rest) = _
      rw [pieces?.eq_3, hunit]
    · have hquote : c ≠ '"' := by rintro rfl; cases he
      have hslash : c ≠ '\\' := by rintro rfl; cases he
      rw [if_neg hc, if_neg fun h => hc h.2, List.singleton_append]
      rw [pieces?.eq_5 c rest (fun h => hquote h) (fun _ _ _ _ _ h _ => hslash h)
        (fun _ _ h _ => hslash h), if_neg hc]

/-- The text of a piece more. -/
theorem joinPieces?_pieceOf (c : Char) (ps : List Piece) :
    joinPieces? (pieceOf c :: ps) = (joinPieces? ps).map (c :: ·) := by
  unfold pieceOf
  split
  · next h =>
    have hhigh : isHigh c.toNat = false := by simp only [isHigh]; grind
    have hlow : isLow c.toNat = false := by simp only [isLow]; grind
    cases ps with
    | nil =>
      rw [joinPieces?.eq_4 _ _ (by simp), hhigh, hlow, Char.ofNat_toNat]
      rfl
    | cons p ps =>
      cases p with
      | char d =>
        rw [joinPieces?.eq_4 _ _ (by simp), hhigh, hlow, Char.ofNat_toNat]
        rfl
      | unit n =>
        rw [joinPieces?.eq_3, hhigh, hlow, Char.ofNat_toNat]
        rfl
  · rfl

/-- **A text is read back from its pieces.** -/
theorem joinPieces?_map (t : Text) : joinPieces? (t.map pieceOf) = some t := by
  induction t with
  | nil => rfl
  | cons c t ih => rw [List.map_cons, joinPieces?_pieceOf, ih, Option.map_some]

/-- **A string is read up to its closing quote.** -/
theorem pieces?_text (t rest : Text) :
    pieces? (t.flatMap escapeChar ++ '"' :: rest) = some (t.map pieceOf, rest) := by
  induction t with
  | nil => exact pieces?.eq_2 rest
  | cons c t ih =>
    rw [List.flatMap_cons, List.append_assoc, pieces?_escapeChar, ih]
    rfl

/-! ## 4. Tokens -/

/-- A token is cut off the front of a text. -/
theorem tokens?_of_token {c : Char} {rest left : Text} {tok : Token} (hc : isBlank c = false)
    (h : token? c rest = some (tok, left)) :
    tokens? (c :: rest) = (tokens? left).map (tok :: ·) := by
  rw [tokens?, hc]
  simp only [Bool.false_eq_true, if_false]
  split
  · next hn => rw [h] at hn; cases hn
  · next hs => rw [h] at hs; cases hs; rfl

/-- A value is written with these tokens: cutting up its text gives them, and reading them, wherever
    a value may come, gives the value. -/
structure Spelled (j : Json) (toks : List Token) : Prop where
  cut : ∀ {rest}, Ends rest → tokens? (j.render ++ rest) = (tokens? rest).map (toks ++ ·)
  read : ∀ around, run? (.value around) toks = some (complete j around)
  /-- A value does not start with the end of a list. -/
  first : ∀ around, run? (.listStart around) toks = run? (.value (.list [] :: around)) toks

theorem ends_nil : Ends [] := nofun

theorem ends_cons {c : Char} {rest : Text}
    (hc : Ascii.isDigit c = false ∧ c ≠ '.' ∧ c ≠ 'e' ∧ c ≠ 'E') : Ends (c :: rest) := by
  intro d hd
  cases hd
  exact hc

/-- A word or a mark is one token. -/
theorem spelled_null : Spelled null [.null] where
  cut _ := tokens?_of_token rfl rfl
  read _ := rfl
  first _ := rfl

theorem spelled_bool (b : Bool) : Spelled (.bool b) [.bool b] where
  cut _ := by cases b <;> exact tokens?_of_token rfl rfl
  read _ := rfl
  first _ := rfl

theorem spelled_text (t : Text) : Spelled (text t) [.str (some t)] where
  cut {rest} _ := by
    have hpieces := pieces?_text t rest
    refine tokens?_of_token rfl ?_
    simp [token?, mark?, List.append_assoc, hpieces, joinPieces?_map]
  read _ := rfl
  first _ := rfl

theorem ne_of_isDigit {c d : Char} (hd : Ascii.isDigit d = true) (hc : Ascii.isDigit c = false) :
    d ≠ c := by
  rintro rfl
  rw [hd] at hc
  cases hc

/-- What starts with a digit is a number. -/
theorem token?_of_isDigit {d : Char} (hd : Ascii.isDigit d = true) (rest : Text) :
    isBlank d = false ∧
      token? d rest = (number? false (d :: rest)).map fun p => (.num p.1, p.2) := by
  have hne {c : Char} (hc : Ascii.isDigit c = false) : d ≠ c := ne_of_isDigit hd hc
  have halpha : Ascii.isAlpha d = false := by
    simp only [Ascii.isDigit, Ascii.isAlpha, Ascii.isUpper, Ascii.isLower] at hd ⊢
    grind
  have hmark : mark? d = none := by
    simp [mark?, hne (c := '[') rfl, hne (c := ']') rfl, hne (c := '\x7b') rfl,
      hne (c := '\x7d') rfl, hne (c := ':') rfl, hne (c := ',') rfl]
  constructor
  · simp [isBlank, hne (c := ' ') rfl, hne (c := '\t') rfl, hne (c := '\n') rfl,
      hne (c := '\r') rfl]
  · simp [token?, hmark, hne (c := '"') rfl, halpha, numberToken?, hne (c := '-') rfl]

theorem spelled_int (i : Int) : Spelled (int i) [.num (Number.ofInt i)] where
  cut {rest} hrest := by
    obtain ⟨d, ds, hd⟩ := List.exists_cons_of_ne_nil (Numeral.decimal_ne_nil i.natAbs)
    have hread (negative : Bool) := number?_decimal negative i.natAbs hrest
    by_cases hi : i < 0
    · have htext : (int i).render = '-' :: Numeral.decimal i.natAbs := by
        simp [int, render, Number.render, Number.ofInt, Number.ofNat, hi]
      rw [htext]
      refine tokens?_of_token rfl ?_
      simp [token?, mark?, Ascii.isAlpha, Ascii.isUpper, Ascii.isLower, numberToken?, hread,
        Number.ofInt, hi]
    · have htext : (int i).render = Numeral.decimal i.natAbs := by
        simp [int, render, Number.render, Number.ofInt, Number.ofNat, hi]
      have hdigit : Ascii.isDigit d = true :=
        Numeral.digits_decimal i.natAbs d (hd ▸ List.mem_cons_self)
      rw [htext, hd, List.cons_append]
      obtain ⟨hblank, htoken⟩ := token?_of_isDigit hdigit (ds ++ rest)
      refine tokens?_of_token hblank ?_
      rw [htoken, ← List.cons_append, ← hd, hread]
      simp [Number.ofInt, hi]
  read _ := rfl
  first _ := rfl

/-! ## 5. Lists and records -/

theorem renderValues_cons (v : Json) (vs : List Json) :
    renderValues (v :: vs) = v.render ++ vs.flatMap fun w => ',' :: w.render := by
  induction vs generalizing v with
  | nil => simp [renderValues]
  | cons w vs ih =>
    rw [renderValues, ih, List.flatMap_cons, List.cons_append]
    exact List.cons_ne_nil w vs

theorem renderMembers_cons (m : Text × Json) (ms : List (Text × Json)) :
    renderMembers ((m :: ms).map fun m => (some m.1, m.2)) =
      renderText m.1 ++ ':' :: m.2.render ++
        ms.flatMap fun m => ',' :: (renderText m.1 ++ ':' :: m.2.render) := by
  induction ms generalizing m with
  | nil => simp [renderMembers]
  | cons w ms ih =>
    have hrest := ih w
    rw [List.map_cons] at hrest
    rw [List.map_cons, List.map_cons, renderMembers, hrest]
    · simp
    · exact List.cons_ne_nil _ _

/-- Parts with their tokens, each behind a comma. -/
theorem cut_parts {α : Type} {parts : List α} (text : α → Text) {toks : α → List Token}
    (h : ∀ a ∈ parts, ∀ {rest}, Ends rest →
      tokens? (text a ++ rest) = (tokens? rest).map (toks a ++ ·)) {rest : Text}
    (hrest : Ends rest) :
    tokens? (parts.flatMap (fun a => ',' :: text a) ++ rest) =
      (tokens? rest).map ((parts.flatMap fun a => .comma :: toks a) ++ ·) := by
  induction parts with
  | nil => simp
  | cons a parts ih =>
    obtain ⟨ha, hparts⟩ := List.forall_mem_cons.mp h
    have hcomma : Ends (parts.flatMap (fun a => ',' :: text a) ++ rest) := by
      cases parts with
      | nil => exact hrest
      | cons b parts => exact ends_cons ⟨rfl, by decide, by decide, by decide⟩
    rw [List.flatMap_cons, List.cons_append, List.cons_append, List.append_assoc,
      tokens?_of_token (c := ',') rfl rfl, ha hcomma, ih hparts]
    cases tokens? rest <;> simp

/-- The values of a list behind the first one. -/
theorem read_values {values : List Json} {toks : Json → List Token}
    (h : ∀ v ∈ values, Spelled v (toks v)) (before : List Json) (around : List Opened) :
    run? (.listNext before around) (values.flatMap fun v => .comma :: toks v) =
      some (.listNext (values.reverse ++ before) around) := by
  induction values generalizing before with
  | nil => rfl
  | cons v values ih =>
    obtain ⟨hv, hvalues⟩ := List.forall_mem_cons.mp h
    rw [List.flatMap_cons, List.cons_append, run?]
    simp only [step?, Option.bind_some]
    rw [run?_append, hv.read, Option.bind_some, complete, ih hvalues]
    simp

/-- **A list is written with the tokens of its values.** -/
theorem spelled_arr {values : List Json} {toks : Json → List Token}
    (h : ∀ v ∈ values, Spelled v (toks v)) : ∃ all, Spelled (arr values) all := by
  cases values with
  | nil =>
    exact ⟨[.openList, .closeList],
      { cut := fun {rest} _ => by
          simp only [render, renderValues, List.cons_append, List.nil_append]
          rw [tokens?_of_token (c := '[') rfl rfl, tokens?_of_token (c := ']') rfl rfl]
          cases tokens? rest <;> rfl
        read := fun _ => rfl
        first := fun _ => rfl }⟩
  | cons v values =>
    obtain ⟨hv, hvalues⟩ := List.forall_mem_cons.mp h
    refine ⟨.openList :: (toks v ++ ((values.flatMap fun v => .comma :: toks v) ++ [.closeList])),
      { cut := ?cut, read := ?read, first := fun _ => rfl }⟩
    case cut =>
      intro rest _
      have hend : Ends (']' :: rest) := ends_cons ⟨rfl, by decide, by decide, by decide⟩
      have hcomma : Ends ((values.flatMap fun v => ',' :: v.render) ++ ']' :: rest) := by
        cases values with
        | nil => exact hend
        | cons w values => exact ends_cons ⟨rfl, by decide, by decide, by decide⟩
      have hparts := cut_parts render (fun v hmem => (hvalues v hmem).cut) hend
      simp only [render, renderValues_cons, List.cons_append, List.append_assoc, List.nil_append]
      rw [tokens?_of_token (c := '[') rfl rfl, hv.cut hcomma, hparts,
        tokens?_of_token (c := ']') rfl rfl]
      cases tokens? rest <;> simp
    case read =>
      intro around
      simp only [run?, step?, startValue?, Option.bind_some]
      rw [run?_append, hv.first, hv.read, Option.bind_some, run?_append, complete,
        read_values hvalues]
      simp [run?, step?]

/-- The tokens of a member. -/
def memberTokens (toks : Text × Json → List Token) (m : Text × Json) : List Token :=
  .str (some m.1) :: .colon :: toks m

/-- The text of a member. -/
def memberText (m : Text × Json) : Text := renderText m.1 ++ ':' :: m.2.render

theorem cut_member {toks : Text × Json → List Token} {m : Text × Json} (h : Spelled m.2 (toks m))
    {rest : Text} (hrest : Ends rest) :
    tokens? (memberText m ++ rest) = (tokens? rest).map (memberTokens toks m ++ ·) := by
  have hcolon : Ends (':' :: (m.2.render ++ rest)) :=
    ends_cons ⟨rfl, by decide, by decide, by decide⟩
  simp only [memberText, List.append_assoc, List.cons_append]
  change tokens? ((text m.1).render ++ _) = _
  rw [(spelled_text m.1).cut hcolon, tokens?_of_token (c := ':') rfl rfl, h.cut hrest]
  cases tokens? rest <;> rfl

/-- The members of a record behind the first one. -/
theorem read_members {members : List (Text × Json)} {toks : Text × Json → List Token}
    (h : ∀ m ∈ members, Spelled m.2 (toks m)) (before : List (Option Text × Json))
    (around : List Opened) :
    run? (.recordNext before around) (members.flatMap fun m => .comma :: memberTokens toks m) =
      some (.recordNext ((members.map fun m => (some m.1, m.2)).reverse ++ before) around) := by
  induction members generalizing before with
  | nil => rfl
  | cons m members ih =>
    obtain ⟨hm, hmembers⟩ := List.forall_mem_cons.mp h
    simp only [List.flatMap_cons, List.cons_append, memberTokens, run?, step?, Option.bind_some]
    rw [run?_append, hm.read, Option.bind_some, complete]
    exact (ih hmembers _).trans (by simp)

/-- **A record is written with the tokens of its members.** -/
theorem spelled_record {members : List (Text × Json)} {toks : Text × Json → List Token}
    (h : ∀ m ∈ members, Spelled m.2 (toks m)) : ∃ all, Spelled (record members) all := by
  cases members with
  | nil =>
    exact ⟨[.openRecord, .closeRecord],
      { cut := fun {rest} _ => by
          simp only [record, render, List.map_nil, renderMembers, List.cons_append, List.nil_append]
          rw [tokens?_of_token (c := '\x7b') rfl rfl, tokens?_of_token (c := '\x7d') rfl rfl]
          cases tokens? rest <;> rfl
        read := fun _ => rfl
        first := fun _ => rfl }⟩
  | cons m members =>
    obtain ⟨hm, hmembers⟩ := List.forall_mem_cons.mp h
    refine ⟨.openRecord :: (memberTokens toks m ++
        ((members.flatMap fun m => .comma :: memberTokens toks m) ++ [.closeRecord])),
      { cut := ?cut, read := ?read, first := fun _ => rfl }⟩
    case cut =>
      intro rest _
      have hend : Ends ('\x7d' :: rest) := ends_cons ⟨rfl, by decide, by decide, by decide⟩
      have hcomma : Ends ((members.flatMap fun m => ',' :: memberText m) ++ '\x7d' :: rest) := by
        cases members with
        | nil => exact hend
        | cons w members => exact ends_cons ⟨rfl, by decide, by decide, by decide⟩
      have hparts :=
        cut_parts memberText (fun m hmem => cut_member (hmembers m hmem)) hend
      have htext : (record (m :: members)).render = '\x7b' :: (memberText m ++
          ((members.flatMap fun m => ',' :: memberText m) ++ ['\x7d'])) := by
        rw [record, render, renderMembers_cons]
        simp [memberText]
      rw [htext, List.cons_append, tokens?_of_token (c := '\x7b') rfl rfl, List.append_assoc,
        List.append_assoc, List.singleton_append, cut_member hm hcomma, hparts,
        tokens?_of_token (c := '\x7d') rfl rfl]
      cases tokens? rest <;> simp
    case read =>
      intro around
      have hbehind := read_members hmembers [(some m.1, m.2)] around
      simp only [memberTokens] at hbehind
      simp only [memberTokens, List.cons_append, run?, step?, startValue?, Option.bind_some]
      rw [run?_append, hm.read, Option.bind_some, run?_append, complete, hbehind]
      simp [run?, step?, record]

/-! ## 6. Whole values -/

/-- **Every such value is written with tokens that give it when they are read.** -/
theorem Writable.spelled {j : Json} (h : Writable j) : ∃ toks, Spelled j toks := by
  induction h with
  | null => exact ⟨_, spelled_null⟩
  | bool b => exact ⟨_, spelled_bool b⟩
  | int i => exact ⟨_, spelled_int i⟩
  | text t => exact ⟨_, spelled_text t⟩
  | arr _ ih =>
    choose! toks htoks using ih
    exact spelled_arr htoks
  | record _ ih =>
    choose! toks htoks using ih
    exact spelled_record htoks

/-- **What is written is read back.** -/
theorem parse?_render {j : Json} (h : Writable j) : parse? j.render = some j := by
  obtain ⟨toks, htoks⟩ := h.spelled
  have hcut := htoks.cut ends_nil
  rw [List.append_nil, tokens?, Option.map_some, List.append_nil] at hcut
  rw [parse?, hcut, Option.bind_some, ofTokens?, htoks.read]
  rfl

/-! ## 7. Lines -/

/-- A text without controls. In particular it has no line feed. -/
def Visible (t : Text) : Prop := ∀ c ∈ t, 32 ≤ c.toNat

instance : DecidablePred Visible := fun t =>
  decidable_of_iff ((t.all fun c => decide (32 ≤ c.toNat)) = true) (by simp [Visible])

theorem Visible.append {s t : Text} (hs : Visible s) (ht : Visible t) : Visible (s ++ t) :=
  List.forall_mem_append.mpr ⟨hs, ht⟩

theorem Visible.cons {c : Char} {t : Text} (hc : 32 ≤ c.toNat) (ht : Visible t) :
    Visible (c :: t) :=
  List.forall_mem_cons.mpr ⟨hc, ht⟩

theorem visible_nil : Visible [] := nofun

theorem Visible.flatMap {α : Type} {parts : List α} {text : α → Text}
    (h : ∀ a ∈ parts, Visible (text a)) : Visible (parts.flatMap text) := by
  intro c hc
  obtain ⟨a, ha, hmem⟩ := List.mem_flatMap.mp hc
  exact h a ha c hmem

theorem visible_control {n : Nat} (h : n < 32) :
    Visible ("\\u00".toList ++ [Quoted.hexDigit (n / 16), Quoted.hexDigit (n % 16)]) := by
  revert n
  decide

theorem visible_escapeChar (c : Char) : Visible (escapeChar c) := by
  unfold escapeChar
  split
  · next e he =>
    have hletter : 32 ≤ e.toNat := by
      unfold letterEscape? at he
      repeat' split at he
      all_goals cases he
      all_goals decide
    exact (visible_nil.cons hletter).cons (by decide)
  · split
    · next hc => exact visible_control hc
    · next hc => exact visible_nil.cons (Nat.not_lt.mp hc)

theorem visible_renderText (t : Text) : Visible (renderText t) :=
  ((Visible.flatMap fun c _ => visible_escapeChar c).append (visible_nil.cons (by decide))).cons
    (by decide)

theorem visible_decimal (n : Nat) : Visible (Numeral.decimal n) := by
  intro c hc
  have hdigit := Numeral.digits_decimal n c hc
  simp only [Ascii.isDigit, Bool.and_eq_true, decide_eq_true_eq] at hdigit
  omega

/-- **A value is written on one line.** -/
theorem visible_render {j : Json} (h : Writable j) : Visible j.render := by
  induction h with
  | null => decide
  | bool b => cases b <;> decide
  | int i =>
    simp only [int, render, Number.render, Number.ofInt, Number.ofNat, List.append_nil]
    split
    · exact (visible_decimal _).cons (by decide)
    · exact visible_decimal _
  | text t => exact visible_renderText t
  | @arr values _ ih =>
    refine (Visible.append ?_ (visible_nil.cons (by decide))).cons (by decide)
    cases values with
    | nil => exact visible_nil
    | cons v values =>
      obtain ⟨hv, hvalues⟩ := List.forall_mem_cons.mp ih
      rw [renderValues_cons]
      exact hv.append (.flatMap fun w hw => (hvalues w hw).cons (by decide))
  | @record members _ ih =>
    refine (Visible.append ?_ (visible_nil.cons (by decide))).cons (by decide)
    cases members with
    | nil => exact visible_nil
    | cons m members =>
      obtain ⟨hm, hmembers⟩ := List.forall_mem_cons.mp ih
      have hmember {m : Text × Json} (hm : Visible m.2.render) : Visible (memberText m) :=
        (visible_renderText m.1).append (hm.cons (by decide))
      rw [renderMembers_cons]
      exact (hmember hm).append
        (.flatMap fun w hw => (hmember (hmembers w hw)).cons (by decide))

end Json

end TrafficGate
