import TrafficGate.Text.Numeral
/-!
  # Faults of the store

  Why a request to the store was not carried out, and what an engine is told then.

  1. `Fault` -- the causes, with their texts;
  2. `Refusal` -- what an engine is told.

  Main fact: **`toRefusal_invalidInput`** (input that was refused is reported as such).
-/

namespace TrafficGate.Store

/-! ## 1. Causes -/

/-- Why a request to the store was not carried out. -/
inductive Fault where
  /-- A text in the given column of a row could not be understood. -/
  | badColumn (index : Nat) (reason : Text)
  /-- A row that must be there is not. -/
  | noRow
  /-- The tables do not allow it: one is missing or already there, a row is there twice, or a number
      is out of its range. -/
  | refused
  /-- The file of the store could not be used. -/
  | io (reason : Text)
  /-- What the request is about does not exist. -/
  | notFound (what : Text)
  /-- The input makes no sense. -/
  | invalidInput (reason : Text)
  /-- The store cannot be used as it is set up. -/
  | config (reason : Text)
  deriving DecidableEq, Repr

namespace Fault

/-- The texts of the causes below a fault, the outermost first. -/
def causes : Fault → List Text
  | badColumn index reason =>
    ["Conversion error from type Text at index: ".toList ++ Numeral.decimal index ++
      ", ".toList ++ reason, reason]
  | noRow => ["Query returned no rows".toList]
  | refused => ["the tables do not allow it".toList]
  | io reason => [reason]
  | notFound _ | invalidInput _ | config _ => []

/-- What goes before the text of a fault. -/
def label : Fault → Text
  | badColumn _ _ | noRow | refused => "Database error".toList
  | io _ => "IO error".toList
  | notFound _ => "Record not found".toList
  | invalidInput _ => "Invalid input".toList
  | config _ => "Configuration error".toList

/-- What a fault is about. -/
def detail (f : Fault) : Text :=
  match f with
  | notFound text | invalidInput text | config text => text
  | _ => f.causes.headD []

/-- The text of a fault. -/
def message (f : Fault) : Text := f.label ++ ": ".toList ++ f.detail

/-- The fault after a request broke off in the middle: the connection is not used again. -/
def poisoned : Fault := config "Connection pool poisoned".toList

end Fault

/-! ## 2. Refusals -/

/-- What an engine is told about a fault. -/
inductive Refusal where
  | unavailable (reason : Text)
  | invalidData (reason : Text)
  | rejected (reason : Text)
  deriving DecidableEq, Repr

/-- The text of a refusal. -/
def Refusal.message : Refusal → Text
  | unavailable reason => "Store unavailable: ".toList ++ reason
  | invalidData reason => "Invalid store data: ".toList ++ reason
  | rejected reason => "Store rejected payload: ".toList ++ reason

/-- What an engine is told: refused input and unreadable rows as such, all else as a store that
    cannot be reached. -/
def Fault.toRefusal : Fault → Refusal
  | invalidInput reason => .rejected reason
  | badColumn _ reason => .invalidData reason
  | fault => .unavailable fault.message

/-- **Input that was refused is reported as such.** -/
theorem Fault.toRefusal_invalidInput (reason : Text) :
    (Fault.invalidInput reason).toRefusal = .rejected reason := rfl

end TrafficGate.Store
