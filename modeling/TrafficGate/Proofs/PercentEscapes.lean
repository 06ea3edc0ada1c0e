import Mathlib.Data.List.Forall2
import TrafficGate.Proofs.DigitStrings
import TrafficGate.Proofs.WrittenTexts
import TrafficGate.Url.Percent
/-!
  # What percent-decoding takes for an escape

  A text is decoded when all its escapes can be, and the bytes that come out are a text again; else
  it is left as it is. An escape is a percent sign and two hexadecimal digits. As the digits are read
  like any numeral, a plus sign and one digit are taken for an escape as well.

  1. escapes, and the byte that one stands for;
  2. `Resolves` -- bytes whose escapes and plus signs are replaced;
  3. `Decodes` and `ExactAt` -- decoding a text by escapes of a kind;
  4. texts all of whose bytes are escaped.

  Main facts: **`unescape?_eq_some_iff`**, **`percentDecode_exact`** and
  **`exists_signed_escape`**.
-/

namespace TrafficGate.Url

/-! ## 1. Escapes -/

/-- Two hexadecimal digits, in either case, stand for the byte of their value. -/
def TwoDigits (a b byte : UInt8) : Prop :=
  ∃ high low, Numeral.digitIn? 16 (Latin1.char a) = some high ∧
    Numeral.digitIn? 16 (Latin1.char b) = some low ∧ byte = UInt8.ofNat (high * 16 + low)

/-- A plus sign and one hexadecimal digit, for the byte of its value. -/
def SignAndDigit (a b byte : UInt8) : Prop :=
  a = 0x2B ∧ ∃ low, Numeral.digitIn? 16 (Latin1.char b) = some low ∧ byte = UInt8.ofNat low

/-- What is taken for an escape of the byte. -/
def AsRead (a b byte : UInt8) : Prop := TwoDigits a b byte ∨ SignAndDigit a b byte

theorem readBelow?_digits (t : Text) :
    Numeral.readBelow? 16 256 0 t = (Numeral.readDigits? 16 0 t).filter (· < 256) :=
  Numeral.readBelow?_eq_filter (by decide) (by decide) t

/-- One digit is read as its value. -/
theorem readBelow?_one (b : Char) :
    Numeral.readBelow? 16 256 0 [b] = Numeral.digitIn? 16 b := by
  rw [readBelow?_digits]
  simp only [Numeral.readDigits?]
  cases hb : Numeral.digitIn? 16 b with
  | none => rfl
  | some low =>
    have hlow := Numeral.digitIn?_lt hb
    simp only [Nat.zero_mul, Nat.zero_add, Option.filter]
    rw [if_pos (by simp; omega)]

/-- Two digits are read as their value. -/
theorem readBelow?_two_iff {a b : Char} {n : Nat} :
    Numeral.readBelow? 16 256 0 [a, b] = some n ↔
      ∃ high low, Numeral.digitIn? 16 a = some high ∧ Numeral.digitIn? 16 b = some low ∧
        n = high * 16 + low := by
  rw [readBelow?_digits, Option.filter_eq_some_iff]
  simp only [Numeral.readDigits?]
  constructor
  · rintro ⟨hread, -⟩
    cases ha : Numeral.digitIn? 16 a with
    | none => rw [ha] at hread; cases hread
    | some high =>
      cases hb : Numeral.digitIn? 16 b with
      | none => rw [ha, hb] at hread; cases hread
      | some low =>
        rw [ha, hb] at hread
        simp only [Nat.zero_mul, Nat.zero_add, Option.some.injEq] at hread
        exact ⟨high, low, rfl, rfl, hread.symm⟩
  · rintro ⟨high, low, ha, hb, rfl⟩
    have hhigh := Numeral.digitIn?_lt ha
    have hlow := Numeral.digitIn?_lt hb
    simp only [ha, hb, Nat.zero_mul, Nat.zero_add, decide_eq_true_eq, true_and]
    omega

/-- A numeral without a sign is read as it stands. -/
theorem readBase?_of_ne_plus {c : Char} (h : c ≠ '+') (r : Text) :
    Numeral.readBase? 16 256 (c :: r) = Numeral.readBelow? 16 256 0 (c :: r) := by
  have hdrop : Numeral.dropPlus (c :: r) = c :: r := by
    unfold Numeral.dropPlus
    split
    · next he => exact absurd (List.cons.inj he).1 h
    · rfl
  rw [Numeral.readBase?, hdrop]
  rfl

/-- **What is taken for an escape** are two digits, or a plus sign and a digit. -/
theorem escapedByte?_eq_some_iff {a b byte : UInt8} :
    escapedByte? a b = some byte ↔ AsRead a b byte := by
  rw [escapedByte?, Option.map_eq_some_iff]
  by_cases ha : a = 0x2B
  · -- the sign is passed over, and no digit
    subst ha
    have hread : Numeral.readBase? 16 256 (Latin1.decode [0x2B, b]) =
        Numeral.digitIn? 16 (Latin1.char b) := readBelow?_one (Latin1.char b)
    have hsign : Numeral.digitIn? 16 (Latin1.char 0x2B) = none := by decide
    rw [hread]
    constructor
    · rintro ⟨low, hlow, rfl⟩
      exact .inr ⟨rfl, low, hlow, rfl⟩
    · rintro (⟨high, _, hhigh, -⟩ | ⟨-, low, hlow, rfl⟩)
      · rw [hsign] at hhigh
        cases hhigh
      · exact ⟨low, hlow, rfl⟩
  · have hchar : Latin1.char a ≠ '+' := fun he =>
      ha (Latin1.char_injective (b := 0x2B) he)
    have hread : Numeral.readBase? 16 256 (Latin1.decode [a, b]) =
        Numeral.readBelow? 16 256 0 [Latin1.char a, Latin1.char b] :=
      readBase?_of_ne_plus hchar _
    rw [hread]
    constructor
    · rintro ⟨n, hn, rfl⟩
      obtain ⟨high, low, hhigh, hlow, rfl⟩ := readBelow?_two_iff.mp hn
      exact .inl ⟨high, low, hhigh, hlow, rfl⟩
    · rintro (⟨high, low, hhigh, hlow, rfl⟩ | ⟨he, -⟩)
      · exact ⟨_, readBelow?_two_iff.mpr ⟨high, low, hhigh, hlow, rfl⟩, rfl⟩
      · exact absurd he ha

/-! ## 2. Bytes without escapes -/

/-- The bytes with every escape replaced by the byte that it stands for and every plus sign by a
    space, from the left; an escape takes three bytes, and no percent sign stands alone. -/
inductive Resolves (escape : UInt8 → UInt8 → UInt8 → Prop) : Bytes → Bytes → Prop where
  | nil : Resolves escape [] []
  | escape {a b byte : UInt8} {rest out : Bytes} (h : escape a b byte)
      (hrest : Resolves escape rest out) :
      Resolves escape (0x25 :: a :: b :: rest) (byte :: out)
  | space {rest out : Bytes} (hrest : Resolves escape rest out) :
      Resolves escape (0x2B :: rest) (0x20 :: out)
  | plain {c : UInt8} {rest out : Bytes} (hpercent : c ≠ 0x25) (hplus : c ≠ 0x2B)
      (hrest : Resolves escape rest out) : Resolves escape (c :: rest) (c :: out)

/-- What is an escape in one way may be one in another. -/
theorem Resolves.mono {escape other : UInt8 → UInt8 → UInt8 → Prop} {bs out : Bytes}
    (h : Resolves escape bs out) (hmono : ∀ a b byte, escape a b byte → other a b byte) :
    Resolves other bs out := by
  induction h with
  | nil => exact .nil
  | escape h _ ih => exact .escape (hmono _ _ _ h) ih
  | space _ ih => exact .space ih
  | plain hpercent hplus _ ih => exact .plain hpercent hplus ih

theorem unescape?_plain {c : UInt8} (hpercent : c ≠ 0x25) (hplus : c ≠ 0x2B) (rest : Bytes) :
    unescape? (c :: rest) = (unescape? rest).map (c :: ·) := by
  conv => lhs; unfold unescape?
  split
  · next he => cases he
  · next he => exact absurd (List.cons.inj he).1 hpercent
  · next he => exact absurd (List.cons.inj he).1 hpercent
  · next he => exact absurd (List.cons.inj he).1 hplus
  · next he => cases he; rfl

/-- **Decoding bytes is replacing what is taken for an escape.** -/
theorem unescape?_eq_some_iff {bs out : Bytes} :
    unescape? bs = some out ↔ Resolves AsRead bs out := by
  constructor
  · intro h
    fun_induction unescape? bs generalizing out with
    | case1 =>
      cases h
      exact .nil
    | case2 a b rest byte hbyte ih =>
      obtain ⟨out', hout, rfl⟩ := Option.map_eq_some_iff.mp h
      exact .escape (escapedByte?_eq_some_iff.mp hbyte) (ih hout)
    | case3 | case4 => cases h
    | case5 rest ih =>
      obtain ⟨out', hout, rfl⟩ := Option.map_eq_some_iff.mp h
      exact .space (ih hout)
    | case6 c rest _ hpercent hplus ih =>
      obtain ⟨out', hout, rfl⟩ := Option.map_eq_some_iff.mp h
      exact .plain hpercent hplus (ih hout)
  · intro h
    induction h with
    | nil => rfl
    | escape h _ ih => simp only [unescape?, escapedByte?_eq_some_iff.mpr h, ih, Option.map_some]
    | space _ ih => simp only [unescape?, ih, Option.map_some]
    | plain hpercent hplus _ ih => rw [unescape?_plain hpercent hplus, ih, Option.map_some]

theorem Resolves.length_le {escape : UInt8 → UInt8 → UInt8 → Prop} {bs out : Bytes}
    (h : Resolves escape bs out) : out.length ≤ bs.length := by
  induction h with
  | nil => exact Nat.le_refl 0
  | escape _ _ ih =>
    simp only [List.length_cons]
    omega
  | space _ ih | plain _ _ _ ih => exact Nat.succ_le_succ ih

/-- Bytes that become no shorter have no escapes, of whatever kind. -/
theorem Resolves.of_length_le {escape other : UInt8 → UInt8 → UInt8 → Prop} {bs out : Bytes}
    (h : Resolves escape bs out) (hlength : bs.length ≤ out.length) : Resolves other bs out := by
  induction h with
  | nil => exact .nil
  | escape _ hrest _ =>
    have hle := hrest.length_le
    simp only [List.length_cons] at hlength
    omega
  | space _ ih => exact .space (ih (Nat.le_of_succ_le_succ hlength))
  | plain hpercent hplus _ ih => exact .plain hpercent hplus (ih (Nat.le_of_succ_le_succ hlength))

/-! ## 3. Texts -/

/-- A text decodes to another: its bytes, with escapes and plus signs replaced, are the bytes of
    that text. -/
def Decodes (escape : UInt8 → UInt8 → UInt8 → Prop) (t s : Text) : Prop :=
  Resolves escape (Utf8.encode t) (Utf8.encode s)

/-- Decoding a text by escapes of this kind is exact: it gives what the text decodes to, and the text
    itself if it decodes to nothing. -/
def ExactAt (escape : UInt8 → UInt8 → UInt8 → Prop) (t : Text) : Prop :=
  (∀ s, Decodes escape t s → percentDecode t = s) ∧
    ((¬ ∃ s, Decodes escape t s) → percentDecode t = t)

theorem exactAt_asRead (t : Text) : ExactAt AsRead t := by
  refine ⟨fun s hs => ?_, fun hnone => ?_⟩
  · rw [percentDecode, unescape?_eq_some_iff.mpr hs, Option.bind_some, Utf8.decode?_encode,
      Option.getD_some]
  · have hundecoded : (unescape? (Utf8.encode t)).bind Utf8.decode? = none := by
      rw [Option.eq_none_iff_forall_ne_some]
      intro s hs
      obtain ⟨bytes, hbytes, htext⟩ := Option.bind_eq_some_iff.mp hs
      obtain rfl := Utf8.decode?_eq_some_iff.mp htext
      exact hnone ⟨s, unescape?_eq_some_iff.mp hbytes⟩
    rw [percentDecode, hundecoded, Option.getD_none]

/-- A text that decodes to itself has no escapes. -/
theorem Decodes.of_self {escape other : UInt8 → UInt8 → UInt8 → Prop} {t : Text}
    (h : Decodes escape t t) : Decodes other t t := Resolves.of_length_le h (Nat.le_refl _)

/-- **Escapes of two digits are all that a text is decoded by, exactly if none of its decodings takes
    a sign for a digit.** -/
theorem exactAt_twoDigits_iff (t : Text) :
    ExactAt TwoDigits t ↔ ∀ s, Decodes AsRead t s → Decodes TwoDigits t s := by
  obtain ⟨hread, hkept⟩ := exactAt_asRead t
  constructor
  · rintro ⟨_, hself⟩ s hs
    by_cases hsome : ∃ s', Decodes TwoDigits t s'
    · obtain ⟨s', hs'⟩ := hsome
      have hsame := hread s' (hs'.mono fun _ _ _ => .inl)
      rw [hread s hs] at hsame
      rwa [hsame]
    · -- then the text is its own decoding, and has no escapes
      obtain rfl : s = t := (hread s hs).symm.trans (hself hsome)
      exact hs.of_self
  · intro hdigits
    refine ⟨fun s hs => hread s (hs.mono fun _ _ _ => .inl), fun hnone => hkept ?_⟩
    rintro ⟨s, hs⟩
    exact hnone ⟨s, hdigits s hs⟩

/-! ## 4. Texts that are all escapes -/

/-- The text is an escape of the byte: a percent sign and its two digits, in either case. -/
def IsEscape (b : UInt8) (t : Text) : Prop :=
  ∃ high low, t = ['%', high, low] ∧ Numeral.digitIn? 16 high = some (b.toNat / 16) ∧
    Numeral.digitIn? 16 low = some (b.toNat % 16)

/-- A digit is written as the byte of its number. -/
theorem encodeChar_of_digit {c : Char} {d : Nat} (h : Numeral.digitIn? 16 c = some d) :
    ∃ b, Utf8.encodeChar c = [b] ∧ Latin1.char b = c := by
  have hrange := Numeral.toNat_of_digitIn? h
  have hbyte := Utf8.toNat_byte (show c.toNat < 256 by omega)
  refine ⟨UInt8.ofNat c.toNat, ?_, ?_⟩
  · simp only [Utf8.encodeChar]
    rw [if_pos (by omega)]
  · rw [Latin1.char, hbyte, Char.ofNat_toNat]

theorem resolves_escape {b : UInt8} {t : Text} (h : IsEscape b t) {rest out : Bytes}
    (hrest : Resolves TwoDigits rest out) :
    Resolves TwoDigits (Utf8.encode t ++ rest) (b :: out) := by
  obtain ⟨high, low, rfl, hhigh, hlow⟩ := h
  obtain ⟨a, ha, hachar⟩ := encodeChar_of_digit hhigh
  obtain ⟨c, hc, hcchar⟩ := encodeChar_of_digit hlow
  have hbytes : Utf8.encode ['%', high, low] ++ rest = 0x25 :: a :: c :: rest := by
    rw [Utf8.encode_cons, Utf8.encode_cons, Utf8.encode_cons, ha, hc]
    rfl
  have hvalue : b = UInt8.ofNat (b.toNat / 16 * 16 + b.toNat % 16) := by
    rw [Nat.div_add_mod', UInt8.ofNat_toNat]
  rw [hbytes]
  exact .escape ⟨_, _, hachar.symm ▸ hhigh, hcchar.symm ▸ hlow, hvalue⟩ hrest

/-- **Escapes of bytes resolve to the bytes.** -/
theorem resolves_escapes {bs : Bytes} {escapes : List Text}
    (h : List.Forall₂ IsEscape bs escapes) :
    Resolves TwoDigits (Utf8.encode escapes.flatten) bs := by
  induction h with
  | nil => exact .nil
  | cons hb _ ih =>
    rw [List.flatten_cons, Utf8.encode_append]
    exact resolves_escape hb ih

/-- **Percent-decoding is exact.** It gives what a text decodes to by what is taken for an escape, and
    the text itself if it decodes to nothing. Escapes of two digits are all that counts, exactly if
    none of the decodings of the text takes a plus sign for a digit. From escapes of all its bytes
    the text is given back. -/
theorem percentDecode_exact (t : Text) :
    ExactAt AsRead t ∧
    (ExactAt TwoDigits t ↔ ∀ s, Decodes AsRead t s → Decodes TwoDigits t s) ∧
    ∀ escapes, List.Forall₂ IsEscape (Utf8.encode t) escapes →
      percentDecode escapes.flatten = t := by
  refine ⟨exactAt_asRead t, exactAt_twoDigits_iff t, fun escapes h => ?_⟩
  have hdecodes : Decodes TwoDigits escapes.flatten t := resolves_escapes h
  exact (exactAt_asRead _).1 t (hdecodes.mono fun _ _ _ => .inl)

/-- A letter of two bytes is read from its escapes, in digits of either case, and a percent sign
    that stands alone keeps a text as it is. -/
theorem percentDecode_exact_accented :
    percentDecode "caf%C3%a9+%2B".toList = "caf\u00e9 +".toList ∧
      percentDecode "%C3%a9".toList = "\u00e9".toList ∧
      percentDecode "%C3%a9 100%".toList = "%C3%a9 100%".toList := by
  refine ⟨?_, ?_, ?_⟩
  · exact (percentDecode_exact _).1.1 _ (unescape?_eq_some_iff.mp (by decide +kernel))
  · refine (percentDecode_exact "\u00e9".toList).2.2 ["%C3".toList, "%a9".toList] ?_
    exact .cons ⟨'C', '3', rfl, by decide, by decide⟩ (.cons ⟨'a', '9', rfl, by decide, by decide⟩ .nil)
  · refine (percentDecode_exact _).1.2 ?_
    rintro ⟨s, hs⟩
    have hbytes : unescape? (Utf8.encode "%C3%a9 100%".toList) = none := by decide +kernel
    have hsome := unescape?_eq_some_iff.mpr hs
    rw [hbytes] at hsome
    cases hsome

/-- **A sign is taken for a digit**: a percent sign, a plus sign and a digit are decoded, though no
    two digits stand behind the percent sign. -/
theorem exists_signed_escape :
    ∃ t, t = "%+5".toList ∧ (¬ ∃ s, Decodes TwoDigits t s) ∧
      percentDecode t = [Char.ofNat 5] ∧ ¬ ExactAt TwoDigits t := by
  have hnone : ¬ ∃ s, Decodes TwoDigits "%+5".toList s := by
    rintro ⟨s, hs⟩
    have hbytes : Utf8.encode "%+5".toList = [0x25, 0x2B, 0x35] := by decide
    rw [Decodes, hbytes] at hs
    generalize Utf8.encode s = out at hs
    cases hs with
    | escape h _ =>
      obtain ⟨high, _, hhigh, -⟩ := h
      have hsign : Numeral.digitIn? 16 (Latin1.char 0x2B) = none := by decide
      rw [hsign] at hhigh
      cases hhigh
    | plain hpercent => exact hpercent rfl
  have hread : percentDecode "%+5".toList = [Char.ofNat 5] := by decide +kernel
  refine ⟨_, rfl, hnone, hread, fun hexact => ?_⟩
  have hkept := hexact.2 hnone
  rw [hread] at hkept
  exact absurd hkept (by decide)

end TrafficGate.Url
