import TrafficGate.Rule.Source
import TrafficGate.Store.Rules
/-!
  # The longest of the rules that match

  A book and a table each go through the rules that match and keep the longest one so far. They
  measure it differently, in bytes and in characters, and prefer different ones of equally long
  rules; that the one kept at the end is a longest one does not depend on either.

  1. what a book answers;
  2. what a table answers.

  Main facts: **`Book.reports_query`**, **`Rules.findMatch?_eq_none_iff`** and
  **`Rules.charCount_le_of_findMatch?`**.
-/

namespace TrafficGate

/-! ## 1. Books -/

namespace Rule.Book

variable {kind : Kind} {value : Text} {b : Book} {r : Rule}

/-- **A book answers nothing only if none of its rules of the kind matches.** -/
theorem answer?_eq_none_iff :
    b.answer? kind value = none ↔
      ∀ r ∈ b.rules, r.kind = kind → kind.covers r.value value = false := by
  rw [answer?, prefers_longer.foldl_eq_none_iff, List.filter_eq_nil_iff]
  simp only [applies_iff, not_and, Bool.not_eq_true]

/-- **The rule that answers is of the most bytes** of those of its kind that match. -/
theorem size_le_of_answer? (h : b.answer? kind value = some r) {other : Rule}
    (hmem : other ∈ b.rules) (hkind : other.kind = kind)
    (hcovers : kind.covers other.value value = true) :
    Utf8.size other.value ≤ Utf8.size r.value :=
  (prefers_longer.foldl_eq_some h).2 other
    (List.mem_filter.mpr ⟨hmem, applies_iff.mpr ⟨hkind, hcovers⟩⟩)

/-- What a book has to answer: one of its rules of the kind that match, of which none has more bytes,
    or nothing if none matches. -/
def Reports (b : Book) (kind : Kind) (value : Text) : Option Rule → Prop
  | some r => r ∈ b.rules ∧ r.kind = kind ∧ kind.covers r.value value = true ∧
      ∀ other ∈ b.rules, other.kind = kind → kind.covers other.value value = true →
        Utf8.size other.value ≤ Utf8.size r.value
  | none => ∀ r ∈ b.rules, r.kind = kind → kind.covers r.value value = false

/-- **A book answers with a longest of its rules that match.** -/
theorem reports_query (b : Book) (kind : Kind) (value : Text) :
    b.Reports kind value (b.query kind value).1 := by
  change b.Reports kind value (b.answer? kind value)
  cases h : b.answer? kind value with
  | none => exact answer?_eq_none_iff.mp h
  | some r =>
    obtain ⟨hmem, hkind, hcovers⟩ := answer?_covers h
    exact ⟨hmem, hkind, hcovers, fun other => size_le_of_answer? h⟩

end Rule.Book

/-! ## 2. Tables -/

namespace Store.Rules

variable {kind : Rule.Kind} {value : Text} {t : Rules} {rule : Rule} {row : RuleRow}

/-- **A table answers nothing only if none of its rows applies.** -/
theorem findMatch?_eq_none_iff :
    t.findMatch? kind value = none ↔ ∀ row ∈ t.rows, applies kind value row = false := by
  rw [findMatch?, Option.map_eq_none_iff, prefers_longer.foldl_eq_none_iff,
    List.filter_eq_nil_iff]
  simp only [Bool.not_eq_true]

/-- **The rule that is found is of the most characters** of those that apply. -/
theorem charCount_le_of_findMatch? (h : t.findMatch? kind value = some rule) :
    (∃ row ∈ t.rows, applies kind value row = true ∧ rule = { kind, value := row.value }) ∧
      ∀ row ∈ t.rows, applies kind value row = true →
        Condition.charCount row.value ≤ Condition.charCount rule.value := by
  obtain ⟨row, hrow, rfl⟩ := Option.map_eq_some_iff.mp h
  obtain ⟨hmem, hlongest⟩ := prefers_longer.foldl_eq_some hrow
  obtain ⟨hrows, happlies⟩ := List.mem_filter.mp hmem
  exact ⟨⟨row, hrows, happlies, rfl⟩, fun other hother ha =>
    hlongest other (List.mem_filter.mpr ⟨hother, ha⟩)⟩

end Store.Rules

end TrafficGate
