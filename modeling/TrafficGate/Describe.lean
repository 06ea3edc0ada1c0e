import TrafficGate.Text.Numeral
/-!
  # Descriptions

  One line of text about a value, for logs: a name, and fields in braces.

  Main fact: **`fieldList_cons_cons`** (fields stand side by side).
-/

namespace TrafficGate.Describe

/-- A field with its value. -/
def field (name : String) (value : Text) : Text := name.toList ++ ": ".toList ++ value

/-- A number. -/
def nat (n : Nat) : Text := Numeral.decimal n

/-- A truth value. -/
def bool (b : Bool) : Text := if b then "true".toList else "false".toList

/-- Fields side by side. -/
def fieldList (fields : List Text) : Text := ", ".toList.intercalate fields

/-- A name with fields in braces. -/
def record (name : String) (fields : List Text) : Text :=
  name.toList ++ " \x7b ".toList ++ fieldList fields ++ " \x7d".toList

/-- A name with fields in braces, of which more are not shown. -/
def openRecord (name : String) (fields : List Text) : Text := record name (fields ++ ["..".toList])

/-- **Fields stand side by side.** -/
theorem fieldList_cons_cons (a b : Text) (rest : List Text) :
    fieldList (a :: b :: rest) = a ++ ", ".toList ++ fieldList (b :: rest) := by
  simp [fieldList, List.intercalate, List.intersperse]

end TrafficGate.Describe
