import TrafficGate.Rule.Kind
import TrafficGate.Text.Search
/-!
  # Conditions on the rows of a table

  The functions on texts with which the table of rules is searched. They count characters, not bytes,
  and from 1; a text ends for them at its first NUL, if it has one. Letters are lowered only if they
  are ASCII ones, and two texts are equal if all their characters are.

  1. `charCount`, `substr` and `substrFrom`, `instr`;
  2. `selects` -- the condition for each kind of rule.

  Main facts: **`substr_prefix`** (the first characters are a prefix) and **`instr_eq`** (a text inside
  another is found at its first occurrence).
-/

namespace TrafficGate.Store.Condition

/-! ## 1. Functions -/

/-- The characters of a text that are counted: those in front of the first NUL. -/
def counted (t : Text) : Text := t.takeWhile fun c => c.toNat != 0

/-- How many characters a text has. -/
def charCount (t : Text) : Nat := (counted t).length

/-- How many characters stand in front of the one with the number `start`. The first one has the
    number 1, the last one has the number -1. -/
def inFront (t : Text) (start : Int) : Int := if start < 0 then charCount t + start else start - 1

/-- The characters with the numbers from `start` on, `count` of them. Those that would stand in front
    of the text are counted, too. -/
def substr (t : Text) (start : Int) (count : Nat) : Text :=
  let front := inFront t start
  ((counted t).drop front.toNat).take ((front + count).toNat - front.toNat)

/-- All characters with the numbers from `start` on. -/
def substrFrom (t : Text) (start : Int) : Text := (counted t).drop (inFront t start).toNat

/-- The number of the character at which the pattern starts first in the text; 0 if nowhere. -/
def instr (t pat : Text) : Nat := (Search.place? pat t).elim 0 (· + 1)

/-- **Of a text without NUL the first characters are a prefix.** -/
theorem substr_prefix {t : Text} (h : counted t = t) (count : Nat) :
    substr t 1 count = t.take count := by
  simp [substr, inFront, h]

/-- **The number found is that of the first character of the first occurrence.** -/
theorem instr_eq (t pat : Text) : instr t pat = (Seq.indexOf? pat t).elim 0 (· + 1) := by
  rw [instr, Search.place?_eq_indexOf?]

/-! ## 2. The condition -/

/-- Whether a rule of the kind is one that the search for a value selects. -/
def selects (kind : Rule.Kind) (rule value : Text) : Bool :=
  match kind with
  | .url => substr value 1 (charCount rule) == rule
  | .domain =>
    value == rule ||
      (decide (charCount rule < charCount value) &&
        substrFrom value (-(charCount rule : Int) - 1) == '.' :: rule)
  | .keyword => decide (0 < instr (Ascii.lower value) rule)

end TrafficGate.Store.Condition
