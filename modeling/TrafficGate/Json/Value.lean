import TrafficGate.Json.Double
import TrafficGate.Text.Numeral
/-!
  # JSON values

  Numbers keep their written parts, records the order of their members and repeated keys. A string
  that names half of a surrogate pair alone has no text; it is kept as a string without one, since
  some readers skip over it.

  1. `Number` -- sign, whole part, fraction and exponent as digits, and what is read off them;
  2. `Json` -- the values;
  3. what a strict reader asks of a value: texts in all strings, numbers that a double holds, and
     no more than a given depth of nesting.

  Main facts: **`Number.natural?_ofNat`** and **`int?_int`** (a number is read back from its JSON).
-/

namespace TrafficGate

namespace Json

/-! ## 1. Numbers -/

/-- The power of ten behind a number, as it is written. -/
structure Exponent where
  negative : Bool
  digits : Text
  deriving DecidableEq, Repr

/-- A number as it is written. -/
structure Number where
  negative : Bool
  /-- The digits in front of the point. -/
  whole : Text
  /-- The digits behind the point, when there is one. -/
  fraction : Option Text
  exponent : Option Exponent
  deriving DecidableEq, Repr

namespace Number

/-- The number of a natural number. -/
def ofNat (n : Nat) : Number :=
  { negative := false, whole := Numeral.decimal n, fraction := none, exponent := none }

/-- The number of an integer. -/
def ofInt (i : Int) : Number := { ofNat i.natAbs with negative := decide (i < 0) }

/-- Whether only a whole part is written. -/
def isPlain (n : Number) : Bool := n.fraction.isNone && n.exponent.isNone

/-- The natural number below 2^64 that is written, without sign, point and exponent. -/
def natural? (n : Number) : Option Nat :=
  if !n.negative && n.isPlain then Numeral.readBelow? 10 Numeral.wordBound 0 n.whole else none

/-- The integer that is written, without point and exponent. -/
def integer? (n : Number) : Option Int :=
  if n.isPlain then
    (Numeral.readDigits? 10 0 n.whole).map fun k => if n.negative then -(k : Int) else (k : Int)
  else none

/-- The number of the digits behind `n` as far as 64 bits hold it, and the digits behind those. -/
def fillWord (n : Nat) : Text → Nat × Text
  | [] => (n, [])
  | c :: r =>
    let next := n * 10 + (c.toNat - 48)
    if next < Numeral.wordBound then fillWord next r else (n, c :: r)

/-- The digits of a number as far as 64 bits hold them, and the power of ten that belongs to them:
    the whole part counts with all its digits, those of the fraction that find no room are lost. -/
def significand (n : Number) : Nat × Int :=
  let (head, left) := fillWord 0 n.whole
  match n.fraction with
  | none => (head, left.length)
  | some f =>
    let (all, lost) := fillWord head f
    (all, (left.length : Int) + lost.length - f.length)

/-- The exponent below 2^31 that is written; none for a larger one. -/
def exponentSize? (e : Exponent) : Option Nat := Numeral.readBelow? 10 2147483648 0 e.digits

/-- Whether the number fits a double when it is made of its significand and a power of ten. -/
def isFinite (n : Number) : Bool :=
  let (digits, scale) := n.significand
  let fits (scale : Int) : Bool := decide (scale < 0) || Double.fits digits scale.toNat
  match n.exponent with
  | none => fits scale
  | some e =>
    match exponentSize? e with
    | some k => fits (if e.negative then scale - k else scale + k)
    | none => e.negative || digits == 0

/-- **A natural number below 2^64 is read back from its number.** -/
theorem natural?_ofNat {n : Nat} (h : n < Numeral.wordBound) : (ofNat n).natural? = some n := by
  have hr := Numeral.readBelow?_eq_filter (show 0 < 10 by omega)
    (Nat.lt_of_le_of_lt (Nat.zero_le n) h) (Numeral.decimal n)
  rw [Numeral.readDigits?_decimal] at hr
  simp [natural?, ofNat, isPlain, hr, Option.filter, h]

/-- **An integer is read back from its number.** -/
theorem integer?_ofInt (i : Int) : (ofInt i).integer? = some i := by
  have hr : Numeral.readDigits? 10 0 (ofInt i).whole = some i.natAbs :=
    Numeral.readDigits?_decimal i.natAbs
  have hi : (if (ofInt i).negative then -(i.natAbs : Int) else (i.natAbs : Int)) = i := by
    by_cases h : i < 0
    · rw [if_pos (show (ofInt i).negative = true from decide_eq_true h)]
      omega
    · rw [if_neg (show ¬(ofInt i).negative = true from fun n => h (of_decide_eq_true n))]
      omega
  rw [integer?, if_pos (show (ofInt i).isPlain = true from rfl), hr]
  exact congrArg some hi

end Number

end Json

/-! ## 2. Values -/

/-- A JSON value. The text of a string or key is missing when it names half of a surrogate pair. -/
inductive Json where
  | null
  | bool (b : Bool)
  | num (n : Json.Number)
  | str (t : Option Text)
  | arr (values : List Json)
  | obj (members : List (Option Text × Json))
  deriving Repr

namespace Json

/-- The string of a text. -/
def text (t : Text) : Json := str (some t)

/-- The number of a natural number. -/
def nat (n : Nat) : Json := num (Number.ofNat n)

/-- The number of an integer. -/
def int (i : Int) : Json := num (Number.ofInt i)

/-- A value or null. -/
def ofOption {α : Type} (f : α → Json) : Option α → Json
  | none => null
  | some a => f a

/-- The record of the members. -/
def record (members : List (Text × Json)) : Json := obj (members.map fun m => (some m.1, m.2))

/-- The text of a string. -/
def text? : Json → Option Text
  | str t => t
  | _ => none

/-- The name that a value gives: a string, or a record with the name as its only key and nothing in
    it. -/
def name? : Json → Option Text
  | str t => t
  | obj [(t, null)] => t
  | _ => none

/-- The truth value of one. -/
def bool? : Json → Option Bool
  | bool b => some b
  | _ => none

/-- The natural number below 2^64 of one. -/
def nat? : Json → Option Nat
  | num n => n.natural?
  | _ => none

/-- The integer of a number that is written without point and exponent. -/
def int? : Json → Option Int
  | num n => n.integer?
  | _ => none

/-- **An integer is read back.** -/
theorem int?_int (i : Int) : (int i).int? = some i := Number.integer?_ofInt i

/-- A value read with `reader`, or none for null. -/
def orNull {α : Type} (reader : Json → Option α) : Json → Option (Option α)
  | null => some none
  | j => (reader j).map some

/-- A text or null is read back. -/
theorem orNull_ofOption_text (t : Option Text) : orNull text? (ofOption text t) = some t := by
  cases t <;> rfl

/-- An integer or null is read back. -/
theorem orNull_ofOption_int (i : Option Int) : orNull int? (ofOption int i) = some i := by
  cases i with
  | none => rfl
  | some i =>
    have h := int?_int i
    simp only [ofOption, orNull, int] at *
    simp [h]

/-- The elements of a list. -/
def elements? : Json → Option (List Json)
  | arr values => some values
  | _ => none

/-- The texts of a list of strings. -/
def texts? (j : Json) : Option (List Text) := j.elements?.bind fun values => values.mapM text?

/-! ## 3. Strict readers -/

mutual

/-- Whether every string and key has a text and every number fits a double. -/
def isSound : Json → Bool
  | null => true
  | bool _ => true
  | num n => n.isFinite
  | str t => t.isSome
  | arr values => allSound values
  | obj members => allMembersSound members

/-- Whether all values are sound. -/
def allSound : List Json → Bool
  | [] => true
  | v :: rest => v.isSound && allSound rest

/-- Whether all members are sound. -/
def allMembersSound : List (Option Text × Json) → Bool
  | [] => true
  | (k, v) :: rest => k.isSome && v.isSound && allMembersSound rest

end

mutual

/-- How deep lists and records are nested. -/
def depth : Json → Nat
  | arr values => 1 + maxDepth values
  | obj members => 1 + maxMemberDepth members
  | _ => 0

/-- The greatest depth of the values. -/
def maxDepth : List Json → Nat
  | [] => 0
  | v :: rest => max v.depth (maxDepth rest)

/-- The greatest depth of the members. -/
def maxMemberDepth : List (Option Text × Json) → Nat
  | [] => 0
  | (_, v) :: rest => max v.depth (maxMemberDepth rest)

end

end Json

end TrafficGate
