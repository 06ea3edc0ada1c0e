import TrafficGate.Json.Value
import TrafficGate.Text.Quoted
/-!
  # Writing JSON

  The compact form: no blanks, members in their order. In strings only the quote, the backslash and
  the controls below the space are escaped, the latter by a letter where there is one and by four
  hexadecimal digits else.

  Main fact: **`escapeChar_of_plain`** (every other character stands for itself).
-/

namespace TrafficGate.Json

/-- The escapes with a letter of their own. -/
def letterEscape? (c : Char) : Option Char :=
  if c = '"' then some '"'
  else if c = '\\' then some '\\'
  else if c.toNat = 8 then some 'b'
  else if c.toNat = 12 then some 'f'
  else if c = '\n' then some 'n'
  else if c = '\r' then some 'r'
  else if c = '\t' then some 't'
  else none

/-- A character as it stands in a string. -/
def escapeChar (c : Char) : Text :=
  match letterEscape? c with
  | some e => ['\\', e]
  | none =>
    if c.toNat < 32 then
      "\\u00".toList ++ [Quoted.hexDigit (c.toNat / 16), Quoted.hexDigit (c.toNat % 16)]
    else [c]

/-- **A character that needs no escape stands for itself.** -/
theorem escapeChar_of_plain {c : Char} (hl : letterEscape? c = none) (hc : 32 ≤ c.toNat) :
    escapeChar c = [c] := by
  simp [escapeChar, hl, Nat.not_lt.mpr hc]

/-- A string as it is written. -/
def renderText (t : Text) : Text := '"' :: (t.flatMap escapeChar ++ ['"'])

namespace Number

/-- A number as it is written. -/
def render (n : Number) : Text :=
  (if n.negative then ['-'] else []) ++ n.whole ++
    (match n.fraction with
      | none => []
      | some f => '.' :: f) ++
    (match n.exponent with
      | none => []
      | some e => 'e' :: (if e.negative then '-' :: e.digits else e.digits))

end Number

mutual

/-- A value as it is written. -/
def render : Json → Text
  | null => "null".toList
  | bool b => if b then "true".toList else "false".toList
  | num n => n.render
  | str t => renderText (t.getD [])
  | arr values => '[' :: (renderValues values ++ [']'])
  | obj members => '\x7b' :: (renderMembers members ++ ['\x7d'])

/-- Values as they stand in a list. -/
def renderValues : List Json → Text
  | [] => []
  | [v] => v.render
  | v :: rest => v.render ++ ',' :: renderValues rest

/-- Members as they stand in a record. -/
def renderMembers : List (Option Text × Json) → Text
  | [] => []
  | [(k, v)] => renderText (k.getD []) ++ ':' :: v.render
  | (k, v) :: rest => renderText (k.getD []) ++ ':' :: v.render ++ ',' :: renderMembers rest

end

end TrafficGate.Json
