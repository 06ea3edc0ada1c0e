import TrafficGate.Store.Condition
import TrafficGate.Store.Fault
import TrafficGate.Text.Largest
import TrafficGate.Text.Order
import TrafficGate.Text.Quoted
import TrafficGate.Time.Timestamp
/-!
  # The table of rules

  Rules that are kept, each with a number that is never given again.

  1. rows as they are stored, and rules as they are read from them;
  2. adding: a rule that is there is switched on again instead, and the number that it would have
     got stays unused;
  3. switching on and off, removing, listing;
  4. `findMatch?` -- the rule that matches a value: of those switched on the one of the most
     characters, and of those the first.

  Main fact: **`selects_of_findMatch?`** (a found rule meets the condition of its kind).
-/

namespace TrafficGate.Store

/-! ## 1. Rows -/

/-- A rule as it is stored. -/
structure RuleRow where
  id : Int
  kindName : Text
  value : Text
  enabled : Int
  note : Option Text
  createdAt : Text
  deriving DecidableEq, Repr

/-- A rule as it is read. -/
structure StoredRule where
  id : Int
  kind : Rule.Kind
  value : Text
  enabled : Bool
  note : Option Text
  createdAt : Time.Timestamp
  deriving DecidableEq, Repr

/-- The table of rules. -/
structure Rules where
  /-- The rows in the order in which they were added. -/
  rows : List RuleRow
  /-- The last number that was given. -/
  lastId : Int
  deriving DecidableEq, Repr

/-- The time that a row names, in one of two forms; the present when it names none. -/
def readTime (now : Time.Timestamp) (t : Text) : Time.Timestamp :=
  match Time.Timestamp.read? t with
  | some time => time
  | none => (Time.Timestamp.readPlain? t).getD now

/-- Whether a number is one of 32 bits with a sign. -/
def fits32 (n : Int) : Bool := decide (-2147483648 ≤ n) && decide (n < 2147483648)

/-- The rule of a row. -/
def RuleRow.read (now : Time.Timestamp) (r : RuleRow) : Except Fault StoredRule :=
  match Rule.Kind.parse? r.kindName with
  | none => .error (.badColumn 1 ("unknown rule type ".toList ++ Quoted.quote r.kindName))
  | some kind =>
    if fits32 r.enabled then
      .ok { id := r.id, kind, value := r.value, enabled := decide (r.enabled ≠ 0), note := r.note,
            createdAt := readTime now r.createdAt }
    else .error .refused

namespace Rules

/-- A table without rules. -/
def empty : Rules := { rows := [], lastId := 0 }

/-! ## 2. Adding -/

/-- Whether a row is the one of a name and a value. -/
def isFor (kindName value : Text) (r : RuleRow) : Bool := r.kindName = kindName ∧ r.value = value

/-- The row of a name and a value. -/
def find? (kindName value : Text) (t : Rules) : Option RuleRow := t.rows.find? (isFor kindName value)

/-- The table with a row switched on. -/
def enable (kindName value : Text) (t : Rules) : Rules :=
  { t with
    rows := t.rows.map fun r => if isFor kindName value r then { r with enabled := 1 } else r }

/-- The table with a new row at its end. -/
def append (kindName value : Text) (enabled : Int) (note : Option Text) (createdAt : Text)
    (t : Rules) : Rules :=
  { rows := t.rows ++ [{ id := t.lastId + 1, kindName, value, enabled, note, createdAt }],
    lastId := t.lastId + 1 }

/-- Adds a rule and gives its number. An empty one is refused; one that is there is switched on. -/
def insert (kind : Rule.Kind) (value : Text) (note : Option Text) (now : Time.Timestamp)
    (t : Rules) : Except Fault Int × Rules :=
  let value := kind.normalize value
  if value.isEmpty then
    (.error (.invalidInput ("empty ".toList ++ kind.name ++ " rule".toList)), t)
  else
    match t.find? kind.name value with
    | some row => (.ok row.id, { t.enable kind.name value with lastId := t.lastId + 1 })
    | none => (.ok (t.lastId + 1), t.append kind.name value 1 note now.plain)

/-- Adds a row as it is given. A row that is there is refused. -/
def insertRow (kindName value : Text) (enabled : Int) (note : Option Text) (createdAt : Text)
    (t : Rules) : Except Fault Unit × Rules :=
  match t.find? kindName value with
  | some _ => (.error .refused, t)
  | none => (.ok (), t.append kindName value enabled note createdAt)

/-! ## 3. Administration -/

/-- The fault of a number that no rule has. -/
def unknown (id : Int) : Fault := .notFound ("Rule with id ".toList ++ Numeral.integer id)

/-- The rule of a number. -/
def get (id : Int) (now : Time.Timestamp) (t : Rules) : Except Fault (Option StoredRule) :=
  match t.rows.find? fun r => r.id == id with
  | none => .ok none
  | some row =>
    match row.read now with
    | .ok rule => .ok (some rule)
    | .error fault => .error fault

/-- Switches a rule on or off. -/
def setEnabled (id : Int) (on : Bool) (t : Rules) : Except Fault Unit × Rules :=
  if t.rows.any fun r => r.id == id then
    (.ok (), { t with
      rows := t.rows.map fun r => if r.id = id then { r with enabled := if on then 1 else 0 } else r })
  else (.error (unknown id), t)

/-- Removes a rule. -/
def remove (id : Int) (t : Rules) : Except Fault Unit × Rules :=
  if t.rows.any fun r => r.id == id then
    (.ok (), { t with rows := t.rows.filter fun r => r.id != id })
  else (.error (unknown id), t)

/-- Removes the rule of a kind and value, which is brought into its normal form, and tells whether
    there was one. -/
def removeValue (kind : Rule.Kind) (value : Text) (t : Rules) : Bool × Rules :=
  match t.find? kind.name (kind.normalize value) with
  | some row => (true, (t.remove row.id).2)
  | none => (false, t)

/-- Whether a row comes before another in a list: by name, then by value. -/
def listedBefore (a b : RuleRow) : Bool :=
  if a.kindName = b.kindName then Text.le a.value b.value else Text.le a.kindName b.kindName

/-- The rules, of one kind if one is given, by name and value. Rows that cannot be read are left
    out. -/
def list (kind : Option Rule.Kind) (now : Time.Timestamp) (t : Rules) : List StoredRule :=
  let wanted (r : RuleRow) : Bool :=
    match kind with
    | none => true
    | some k => r.kindName == k.name
  ((t.rows.filter wanted).mergeSort listedBefore).filterMap fun r =>
    match r.read now with
    | .ok rule => some rule
    | .error _ => none

/-- How many rules there are. -/
def count (t : Rules) : Nat := t.rows.length

/-! ## 4. Matching -/

/-- Whether a row is switched on, of the kind, not empty, and selected for the value. -/
def applies (kind : Rule.Kind) (value : Text) (r : RuleRow) : Bool :=
  r.enabled == 1 && r.kindName == kind.name && !r.value.isEmpty &&
    Condition.selects kind r.value value

/-- Of two rows the one of more characters; the first when they are equally long. -/
def longer (best : Option RuleRow) (r : RuleRow) : Option RuleRow :=
  match best with
  | none => some r
  | some b =>
    if Condition.charCount b.value < Condition.charCount r.value then some r else some b

/-- The rule that matches a value. -/
def findMatch? (kind : Rule.Kind) (value : Text) (t : Rules) : Option Rule :=
  ((t.rows.filter (applies kind value)).foldl longer none).map fun r => { kind, value := r.value }

theorem prefers_longer : Seq.Prefers (fun row => Condition.charCount row.value) longer where
  first _ := rfl
  keeps best x := by
    by_cases h : Condition.charCount best.value < Condition.charCount x.value
    · exact ⟨x, if_pos h, .inr rfl, Nat.le_of_lt h, Nat.le_refl _⟩
    · exact ⟨best, if_neg h, .inl rfl, Nat.le_refl _, Nat.le_of_not_lt h⟩

/-- **A found rule meets the condition of its kind.** -/
theorem selects_of_findMatch? {kind : Rule.Kind} {value : Text} {t : Rules} {rule : Rule}
    (h : t.findMatch? kind value = some rule) :
    rule.kind = kind ∧ Condition.selects kind rule.value value = true := by
  obtain ⟨r, hr, rfl⟩ := Option.map_eq_some_iff.mp h
  have ha := (List.mem_filter.mp (prefers_longer.foldl_eq_some hr).1).2
  simp only [applies, Bool.and_eq_true] at ha
  exact ⟨rfl, ha.2⟩

end Rules

end TrafficGate.Store
