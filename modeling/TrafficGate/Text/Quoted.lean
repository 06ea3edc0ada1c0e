import TrafficGate.Text.Unseen
/-!
  # Quoted texts

  How a text is shown inside a message: between double quotes, on one line, with every character
  that would not be seen written by its number.

  1. hexadecimal digits;
  2. the escape of one character;
  3. the quoted text.

  Main fact: **`escape_of_plain`** (a character that is neither special nor unseen stands for
  itself).
-/

namespace TrafficGate.Quoted

/-! ## 1. Hexadecimal digits -/

/-- The small hexadecimal digit of a number below sixteen. -/
def hexDigit (n : Nat) : Char := Char.ofNat (if n < 10 then 48 + n else 87 + n)

/-- The hexadecimal digits of a number, without leading zeros. -/
def hexDigits (n : Nat) : Text :=
  if n < 16 then [hexDigit n] else hexDigits (n / 16) ++ [hexDigit (n % 16)]

/-! ## 2. One character -/

/-- The escapes with a letter of their own: the quote, the backslash, and the controls NUL, tab,
    line feed and carriage return. -/
def shortEscape? (c : Char) : Option Char :=
  if c = '"' then some '"'
  else if c = '\\' then some '\\'
  else if c = '\x00' then some '0'
  else if c = '\t' then some 't'
  else if c = '\n' then some 'n'
  else if c = '\r' then some 'r'
  else none

/-- A character as it stands between quotes. -/
def escape (c : Char) : Text :=
  match shortEscape? c with
  | some e => ['\\', e]
  | none =>
    if Unseen.isUnseen c then "\\u\x7b".toList ++ hexDigits c.toNat ++ "\x7d".toList else [c]

/-- **A character that is neither special nor unseen stands for itself.** -/
theorem escape_of_plain {c : Char} (hs : shortEscape? c = none) (hu : Unseen.isUnseen c = false) :
    escape c = [c] := by
  simp [escape, hs, hu]

/-! ## 3. The whole text -/

/-- The text between double quotes, every character escaped as it needs. -/
def quote (t : Text) : Text := '"' :: (t.flatMap escape ++ ['"'])

end TrafficGate.Quoted
