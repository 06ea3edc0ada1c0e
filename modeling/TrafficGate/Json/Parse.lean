import TrafficGate.Json.Token
/-!
  # Reading JSON

  A machine over tokens with a stack of open lists and records; its state says what may come next.

  1. `State` -- what may come next, and what is open around it;
  2. `step` -- what a token does;
  3. `parse?` -- the value of a text; nothing may follow it.

  Main facts: **`run?_append`** (reading in two parts) and **`parse?_eq_none_of_tokens?`** (a text
  that is not made of tokens has no value).
-/

namespace TrafficGate.Json

/-! ## 1. States -/

/-- A list or record that is open, what it holds so far with the last first. A record in which a
    value is being read knows the key of it. -/
inductive Opened where
  | list (values : List Json)
  | member (members : List (Option Text × Json)) (key : Option Text)
  deriving Repr

/-- What may come next. -/
inductive State where
  /-- A value. -/
  | value (around : List Opened)
  /-- A value, or the end of the list that was just opened. -/
  | listStart (around : List Opened)
  /-- A comma or the end of the list. -/
  | listNext (values : List Json) (around : List Opened)
  /-- A key, or the end of the record that was just opened. -/
  | recordStart (around : List Opened)
  /-- A key. -/
  | key (members : List (Option Text × Json)) (around : List Opened)
  /-- The colon behind a key. -/
  | colon (members : List (Option Text × Json)) (key : Option Text) (around : List Opened)
  /-- A comma or the end of the record. -/
  | recordNext (members : List (Option Text × Json)) (around : List Opened)
  /-- Nothing: the value is read. -/
  | done (v : Json)
  deriving Repr

/-! ## 2. Steps -/

/-- The state behind a value that is complete. -/
def complete (v : Json) : List Opened → State
  | [] => .done v
  | .list values :: around => .listNext (v :: values) around
  | .member members key :: around => .recordNext ((key, v) :: members) around

/-- The state behind the first token of a value. -/
def startValue? (around : List Opened) : Token → Option State
  | .openList => some (.listStart around)
  | .openRecord => some (.recordStart around)
  | .null => some (complete .null around)
  | .bool b => some (complete (.bool b) around)
  | .num n => some (complete (.num n) around)
  | .str t => some (complete (.str t) around)
  | _ => none

/-- The state behind the next token; none when it may not come. -/
def step? : State → Token → Option State
  | .value around, tok => startValue? around tok
  | .listStart around, .closeList => some (complete (.arr []) around)
  | .listStart around, tok => startValue? (.list [] :: around) tok
  | .listNext values around, .comma => some (.value (.list values :: around))
  | .listNext values around, .closeList => some (complete (.arr values.reverse) around)
  | .recordStart around, .closeRecord => some (complete (.obj []) around)
  | .recordStart around, .str k => some (.colon [] k around)
  | .key members around, .str k => some (.colon members k around)
  | .colon members k around, .colon => some (.value (.member members k :: around))
  | .recordNext members around, .comma => some (.key members around)
  | .recordNext members around, .closeRecord => some (complete (.obj members.reverse) around)
  | _, _ => none

/-- The state behind all the tokens. -/
def run? (s : State) : List Token → Option State
  | [] => some s
  | tok :: rest => (step? s tok).bind fun s' => run? s' rest

/-- **Reading tokens in two parts.** -/
theorem run?_append (s : State) (a b : List Token) :
    run? s (a ++ b) = (run? s a).bind fun s' => run? s' b := by
  induction a generalizing s with
  | nil => rfl
  | cons tok a ih =>
    simp only [List.cons_append, run?]
    cases step? s tok with
    | none => rfl
    | some s' => exact ih s'

/-! ## 3. Texts -/

/-- The value that was read, if it is complete. -/
def State.value? : State → Option Json
  | .done v => some v
  | _ => none

/-- The value of the tokens. -/
def ofTokens? (tokens : List Token) : Option Json := (run? (.value []) tokens).bind State.value?

/-- The value of a text. -/
def parse? (t : Text) : Option Json := (tokens? t).bind ofTokens?

/-- How deep a text may be nested for a strict reader. -/
def maxNesting : Nat := 127

/-- The value of a text for a strict reader, which wants texts in all strings, numbers that a double
    holds, and no deep nesting. -/
def parseStrict? (t : Text) : Option Json :=
  (parse? t).filter fun v => v.isSound && decide (v.depth ≤ maxNesting)

/-- **A text that is not made of tokens has no value.** -/
theorem parse?_eq_none_of_tokens? {t : Text} (h : tokens? t = none) : parse? t = none := by
  simp [parse?, h]

end TrafficGate.Json
