import TrafficGate.Rule.Kind
import TrafficGate.Text.Largest
import TrafficGate.Text.Utf8
/-!
  # Where rules come from

  A source answers whether a rule of a kind matches a value. Asking may change the world around it,
  may fail, and may break off.

  1. `Reply` and `Source`;
  2. `Book` -- a source in memory: the rules in the order in which they were added, and how often
     they were asked for.

  Of several rules that match, the one of the most bytes answers, and of those the last added.

  Main facts: **`answer?_covers`** (the answer matches) and **`rules_query`** (asking changes
  no rules).
-/

namespace TrafficGate.Rule

/-! ## 1. Sources -/

/-- What asking a source gives. -/
inductive Reply where
  /-- The rule that matches, if there is one. -/
  | answer (rule : Option Rule)
  /-- The source could not tell. -/
  | failed
  /-- The source broke off. -/
  | crashed
  deriving DecidableEq, Repr

/-- A source of rules in the world `W`. -/
structure Source (W : Type) where
  query : Kind → Text → W → Reply × W

/-! ## 2. Rules in memory -/

/-- Rules in memory. -/
structure Book where
  /-- The rules, in their normal form, in the order in which they were added. -/
  rules : List Rule
  /-- How often the book was asked. -/
  queries : Nat
  deriving DecidableEq, Repr

namespace Book

/-- No rules. -/
def empty : Book := { rules := [], queries := 0 }

/-- Adds a rule. -/
def add (kind : Kind) (value : Text) (b : Book) : Book :=
  { b with rules := b.rules ++ [{ kind, value := kind.normalize value }] }

/-- Whether a rule is the one of the kind and value. -/
def isFor (kind : Kind) (value : Text) (r : Rule) : Bool :=
  r.kind = kind ∧ r.value = kind.normalize value

/-- Removes every rule of the kind and value. -/
def remove (kind : Kind) (value : Text) (b : Book) : Book :=
  { b with rules := b.rules.filter fun r => !isFor kind value r }

/-- Whether there is a rule of the kind and value. -/
def has (kind : Kind) (value : Text) (b : Book) : Bool := b.rules.any (isFor kind value)

/-- Of two rules the one of more bytes; the later one when they are equally long. -/
def longer (best : Option Rule) (r : Rule) : Option Rule :=
  match best with
  | none => some r
  | some b => if Utf8.size b.value ≤ Utf8.size r.value then some r else some b

/-- Whether a rule is of the kind and matches the value. -/
def applies (kind : Kind) (value : Text) (r : Rule) : Bool :=
  r.kind = kind && kind.covers r.value value

/-- The rule that answers. -/
def answer? (kind : Kind) (value : Text) (b : Book) : Option Rule :=
  (b.rules.filter (applies kind value)).foldl longer none

/-- Asks the book. -/
def query (kind : Kind) (value : Text) (b : Book) : Option Rule × Book :=
  (b.answer? kind value, { b with queries := b.queries + 1 })

/-- The book as a source. -/
def source : Source Book where
  query kind value b := ((.answer (b.query kind value).1), (b.query kind value).2)

/-- **Asking changes no rules.** -/
theorem rules_query (kind : Kind) (value : Text) (b : Book) :
    (b.query kind value).2.rules = b.rules := rfl

theorem prefers_longer : Seq.Prefers (fun r => Utf8.size r.value) longer where
  first _ := rfl
  keeps best x := by
    by_cases h : Utf8.size best.value ≤ Utf8.size x.value
    · exact ⟨x, if_pos h, .inr rfl, h, Nat.le_refl _⟩
    · exact ⟨best, if_neg h, .inl rfl, Nat.le_refl _, Nat.le_of_not_le h⟩

theorem applies_iff {kind : Kind} {value : Text} {r : Rule} :
    applies kind value r = true ↔ r.kind = kind ∧ kind.covers r.value value = true := by
  rw [applies, Bool.and_eq_true, decide_eq_true_eq]

/-- **The rule that answers is in the book, of the kind asked for, and matches.** -/
theorem answer?_covers {kind : Kind} {value : Text} {b : Book} {r : Rule}
    (h : b.answer? kind value = some r) :
    r ∈ b.rules ∧ r.kind = kind ∧ kind.covers r.value value = true := by
  obtain ⟨hmem, happlies⟩ := List.mem_filter.mp (prefers_longer.foldl_eq_some h).1
  exact ⟨hmem, applies_iff.mp happlies⟩

end Book

end TrafficGate.Rule
