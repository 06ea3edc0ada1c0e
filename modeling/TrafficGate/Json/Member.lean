import TrafficGate.Json.Value
/-!
  # Members of a record

  Looking up the members of a record for a reader that minds repeated keys.

  1. `only?` -- the value of a key that comes once, and readers for what it may be;
  2. `flag?` -- a truth value that may be missing.

  Main facts: **`only?_of_values`** (when a value is found) and **`read?_eq_bind`** (a value is
  found and then read).
-/

namespace TrafficGate.Json

/-- The members of a record. -/
abbrev Members := List (Option Text × Json)

namespace Members

/-- All values of a key. -/
def values (key : Text) (members : Members) : List Json :=
  (members.filter fun m => m.1 == some key).map (·.2)

/-- The value of a key that comes exactly once. -/
def only? (key : Text) (members : Members) : Option Json :=
  match members.values key with
  | [v] => some v
  | _ => none

/-- The value of a key that comes exactly once, read with `reader`. -/
def read? {α : Type} (reader : Json → Option α) (key : Text) (members : Members) : Option α :=
  (members.only? key).bind reader

/-- The natural number of a key. -/
def nat? (key : Text) (members : Members) : Option Nat := members.read? Json.nat? key

/-- The truth value of a key. -/
def bool? (key : Text) (members : Members) : Option Bool := members.read? Json.bool? key

/-- The text of a key. -/
def text? (key : Text) (members : Members) : Option Text := members.read? Json.text? key

/-- The name of a key. -/
def name? (key : Text) (members : Members) : Option Text := members.read? Json.name? key

/-- The list of texts of a key. -/
def texts? (key : Text) (members : Members) : Option (List Text) := members.read? Json.texts? key

/-- The value of a key that comes at most once, or none when it is missing or null. -/
def optional? {α : Type} (reader : Json → Option α) (key : Text) (members : Members) :
    Option (Option α) :=
  match members.values key with
  | [] => some none
  | [v] => orNull reader v
  | _ => none

/-- **A value is found and then read.** -/
theorem read?_eq_bind {α : Type} (reader : Json → Option α) (key : Text) (members : Members) :
    members.read? reader key = (members.only? key).bind reader := rfl

/-- The truth value of a key that comes at most once; false when it is missing. -/
def flag? (key : Text) (members : Members) : Option Bool :=
  match members.values key with
  | [] => some false
  | [v] => v.bool?
  | _ => none

/-- **The value of a key that comes once is found.** -/
theorem only?_of_values {key : Text} {members : Members} {v : Json}
    (h : members.values key = [v]) : members.only? key = some v := by
  simp [only?, h]

end Members

end TrafficGate.Json
