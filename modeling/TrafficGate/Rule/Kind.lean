import TrafficGate.Text.Keyword
import TrafficGate.Text.Blank
import TrafficGate.Text.Search
import TrafficGate.Text.Seq
/-!
  # Rules

  What is blocked: a URL and everything that starts with it, a domain and everything below it, or
  a keyword anywhere.

  1. `Kind` -- the three kinds, and the order in which they are asked;
  2. `normalize` -- the form in which a rule is kept;
  3. `covers` -- whether a rule in that form matches a value.

  Main facts: **`ofName?_name`** (the name of a kind is read back) and **`covers_nil`** (an empty
  rule matches nothing).
-/

namespace TrafficGate

namespace Rule

/-! ## 1. Kinds -/

/-- The kind of a rule. -/
inductive Kind where
  | url
  | domain
  | keyword
  deriving DecidableEq, Repr

end Rule

/-- A rule: what it is about. Also the answer to a query: the rule that matched. -/
structure Rule where
  kind : Rule.Kind
  value : Text
  deriving DecidableEq, Repr

namespace Rule.Kind

/-- Every kind, in the order in which a value is looked up. -/
def all : List Kind := [url, domain, keyword]

/-- The name of a kind. -/
def name : Kind → Text
  | url => "url".toList
  | domain => "domain".toList
  | keyword => "keyword".toList

/-- The kind of a name, spelled exactly. -/
def ofName? (t : Text) : Option Kind := all.find? fun k => k.name == t

/-- The kind of a name in any case. -/
def parse? (t : Text) : Option Kind := ofName? (Keyword.fold t)

/-- **The name of a kind is read back.** -/
theorem ofName?_name (k : Kind) : ofName? k.name = some k := by cases k <;> decide

/-- The name of a kind is read back in any case. -/
theorem parse?_name (k : Kind) : parse? k.name = some k := by cases k <;> decide

/-! ## 2. Normal forms -/

/-- The text without the dots at its end. -/
def dropDots (t : Text) : Text := (t.reverse.dropWhile (· == '.')).reverse

/-- The text without one wildcard label in front. -/
def dropWildcard (t : Text) : Text := (Seq.stripStart? "*.".toList t).getD t

/-- The form in which a rule of the kind is kept: trimmed; a domain in small letters without a
    wildcard in front and dots at the end; a keyword in small letters. -/
def normalize (k : Kind) (t : Text) : Text :=
  let t := Text.trim t
  match k with
  | url => t
  | domain => Ascii.lower (dropDots (dropWildcard t))
  | keyword => Ascii.lower t

/-! ## 3. Matching -/

/-- Whether a name is the domain or lies below it. -/
def isUnder (domain name : Text) : Bool :=
  name == domain ||
    match Seq.stripEnd? domain name with
    | some front => front.getLast? == some '.'
    | none => false

/-- Whether a rule that is kept matches a value. An empty rule matches nothing. -/
def covers (k : Kind) (rule value : Text) : Bool :=
  !rule.isEmpty &&
    match k with
    | url => rule.isPrefixOf value
    | domain => isUnder rule value
    | keyword => Search.occurs rule (Ascii.lower value)

/-- **An empty rule matches nothing.** -/
theorem covers_nil (k : Kind) (value : Text) : k.covers [] value = false := rfl

end Rule.Kind

end TrafficGate
