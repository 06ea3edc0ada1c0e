import TrafficGate.Proofs.LongestRule
import TrafficGate.Proofs.RuleConditions
/-!
  # A table and a book of the same rules

  The same rules are added to a table and to a book, and removed from both. A book keeps a rule as
  often as it was added and forgets all copies at once; a table keeps one row for it, finds that row
  by name and value, and removes it by its number.

  1. `Mirrors` -- what the two have in common;
  2. one step: adding and removing keep it;
  3. runs of `Edit`s;
  4. what the two answer.

  Main facts: **`Mirrors.insert`**, **`Mirrors.removeValue`**, **`Edit.mirrors`** and
  **`Edit.same_decisions`**.
-/

namespace TrafficGate

theorem Rule.Kind.name_injective {k l : Rule.Kind} (h : k.name = l.name) : k = l := by
  have hl := ofName?_name l
  rw [← h, ofName?_name k] at hl
  exact Option.some.inj hl

theorem Rule.Book.isFor_iff {kind : Rule.Kind} {value : Text} {r : Rule} :
    isFor kind value r = true ↔ r = { kind, value := kind.normalize value } := by
  obtain ⟨k, v⟩ := r
  simp [isFor]

namespace Store

variable {t : Rules} {b : Rule.Book}

/-! ## 1. The same rules -/

/-- The table and the book hold the same rules. Every row is switched on, and rows are told apart by
    their numbers exactly as by name and value. No rule is empty or has a NUL. -/
structure Mirrors (t : Rules) (b : Rule.Book) : Prop where
  enabled : ∀ row ∈ t.rows, row.enabled = 1
  same : ∀ kind value, (∃ row ∈ t.rows, Rules.isFor kind.name value row = true) ↔
    { kind, value : Rule } ∈ b.rules
  written : ∀ r ∈ b.rules, r.value ≠ [] ∧ r.value.NulFree
  given : ∀ row ∈ t.rows, row.id ≤ t.lastId
  ids : ∀ row ∈ t.rows, ∀ other ∈ t.rows,
    row.id = other.id ↔ row.kindName = other.kindName ∧ row.value = other.value

theorem Rules.isFor_iff {kindName value : Text} {row : RuleRow} :
    isFor kindName value row = true ↔ row.kindName = kindName ∧ row.value = value := by
  rw [isFor, decide_eq_true_eq]

theorem mirrors_empty : Mirrors Rules.empty Rule.Book.empty where
  enabled := nofun
  same _ _ := iff_of_false nofun nofun
  written := nofun
  given := nofun
  ids := nofun

namespace Mirrors

/-! ## 2. One step -/

/-- Switching on changes nothing where all is on. -/
theorem enable_eq (h : Mirrors t b) (kindName value : Text) : t.enable kindName value = t := by
  have hrow : ∀ row ∈ t.rows,
      (if Rules.isFor kindName value row then { row with enabled := 1 } else row) = row := by
    intro row hmem
    split
    · rw [← h.enabled row hmem]
    · rfl
  rw [Rules.enable, List.map_congr_left hrow, List.map_id']

/-- A rule that is there is added once more to the book only. -/
theorem add_known (h : Mirrors t b) {kind : Rule.Kind} {value : Text} {row : RuleRow}
    (hrow : t.find? kind.name (kind.normalize value) = some row) :
    Mirrors { t with lastId := t.lastId + 1 } (b.add kind value) := by
  have hknown : { kind, value := kind.normalize value : Rule } ∈ b.rules :=
    (h.same _ _).mp ⟨row, List.mem_of_find?_eq_some hrow, List.find?_some hrow⟩
  have hmem (r : Rule) : r ∈ (b.add kind value).rules ↔ r ∈ b.rules := by
    rw [Rule.Book.add, List.mem_append, List.mem_singleton]
    exact ⟨fun hr => hr.elim id fun he => he ▸ hknown, .inl⟩
  exact
    { enabled := h.enabled
      same k v := (h.same k v).trans (hmem _).symm
      written r hr := h.written r ((hmem r).mp hr)
      given row hrow := Int.le_trans (h.given row hrow) (Int.le_add_one (Int.le_refl _))
      ids := h.ids }

/-- A new rule gets a row at the end, with a number that no row has. -/
theorem append (h : Mirrors t b) {kind : Rule.Kind} {value : Text} {note : Option Text}
    {createdAt : Text} (hne : kind.normalize value ≠ []) (hnul : value.NulFree)
    (hnew : t.find? kind.name (kind.normalize value) = none) :
    Mirrors (t.append kind.name (kind.normalize value) 1 note createdAt) (b.add kind value) := by
  have hother : ∀ row ∈ t.rows,
      ¬ (row.kindName = kind.name ∧ row.value = kind.normalize value) := by
    intro row hrow
    rw [← Rules.isFor_iff]
    exact List.find?_eq_none.mp hnew row hrow
  have hfresh : ∀ row ∈ t.rows, row.id ≠ t.lastId + 1 := by
    intro row hrow
    have := h.given row hrow
    omega
  refine { enabled := ?enabled, same := ?same, written := ?written, given := ?given, ids := ?ids }
  case enabled =>
    intro row hrow
    rcases List.mem_append.mp hrow with hold | hlast
    · exact h.enabled row hold
    · rw [List.mem_singleton.mp hlast]
  case same =>
    intro k v
    rw [Rules.append, Rule.Book.add, List.mem_append, List.mem_singleton, ← h.same]
    simp only [List.mem_append, or_and_right, exists_or, List.mem_singleton, exists_eq_left,
      Rules.isFor_iff, Rule.mk.injEq]
    refine or_congr_right ⟨?_, ?_⟩
    · rintro ⟨hname, rfl⟩
      exact ⟨(Rule.Kind.name_injective hname).symm, rfl⟩
    · rintro ⟨rfl, rfl⟩
      exact ⟨rfl, rfl⟩
  case written =>
    intro r hr
    rcases List.mem_append.mp hr with hold | hlast
    · exact h.written r hold
    · rw [List.mem_singleton.mp hlast]
      exact ⟨hne, hnul.normalize kind⟩
  case given =>
    intro row hrow
    rcases List.mem_append.mp hrow with hold | hlast
    · exact Int.le_trans (h.given row hold) (Int.le_add_one (Int.le_refl _))
    · rw [List.mem_singleton.mp hlast]
      exact Int.le_refl _
  case ids =>
    intro row hrow other hmem
    rcases List.mem_append.mp hrow with hold | hlast <;>
      rcases List.mem_append.mp hmem with hold' | hlast'
    · exact h.ids row hold other hold'
    · rw [List.mem_singleton.mp hlast']
      exact iff_of_false (hfresh row hold) (hother row hold)
    · rw [List.mem_singleton.mp hlast]
      refine iff_of_false (hfresh other hold').symm fun he => hother other hold' ?_
      exact ⟨he.1.symm, he.2.symm⟩
    · rw [List.mem_singleton.mp hlast, List.mem_singleton.mp hlast']
      simp

/-- **Adding a rule keeps it.** -/
theorem insert (h : Mirrors t b) {kind : Rule.Kind} {value : Text} (note : Option Text)
    (now : Time.Timestamp) (hne : kind.normalize value ≠ []) (hnul : value.NulFree) :
    Mirrors (t.insert kind value note now).2 (b.add kind value) := by
  have hempty : ¬ (kind.normalize value).isEmpty = true :=
    fun he => hne (List.isEmpty_iff.mp he)
  simp only [Rules.insert, if_neg hempty]
  cases hfind : t.find? kind.name (kind.normalize value) with
  | some row =>
    simp only [h.enable_eq]
    exact h.add_known hfind
  | none => exact h.append hne hnul hfind

/-- The rows that are left when one of them is removed by its number. -/
theorem mem_remove (h : Mirrors t b) {kindName value : Text} {row other : RuleRow}
    (hrow : t.find? kindName value = some row) :
    other ∈ (t.remove row.id).2.rows ↔
      other ∈ t.rows ∧ ¬ Rules.isFor kindName value other = true := by
  have hmem := List.mem_of_find?_eq_some hrow
  have hfor := Rules.isFor_iff.mp (List.find?_some hrow)
  have hany : t.rows.any (fun r => r.id == row.id) = true :=
    List.any_eq_true.mpr ⟨row, hmem, beq_self_eq_true _⟩
  rw [Rules.remove, if_pos hany, List.mem_filter, bne_iff_ne]
  refine and_congr_right fun hother => not_congr ?_
  rw [h.ids other hother row hmem, hfor.1, hfor.2, Rules.isFor_iff]

/-- **Removing a rule keeps it.** -/
theorem removeValue (h : Mirrors t b) (kind : Rule.Kind) (value : Text) :
    Mirrors (t.removeValue kind value).2 (b.remove kind value) := by
  -- In the table there is at most the row that was found, in the book as many copies as were added.
  have hbook (r : Rule) : r ∈ (b.remove kind value).rules ↔
      r ∈ b.rules ∧ r ≠ { kind, value := kind.normalize value } := by
    rw [Rule.Book.remove, List.mem_filter, Bool.not_eq_true', ← Bool.not_eq_true,
      Rule.Book.isFor_iff]
  cases hfind : t.find? kind.name (kind.normalize value) with
  | none =>
    have hgone : { kind, value := kind.normalize value : Rule } ∉ b.rules := by
      rw [← h.same]
      rintro ⟨row, hrow, hfor⟩
      exact List.find?_eq_none.mp hfind row hrow hfor
    have hall (r : Rule) : r ∈ (b.remove kind value).rules ↔ r ∈ b.rules := by
      rw [hbook]
      exact ⟨And.left, fun hr => ⟨hr, fun he => hgone (he ▸ hr)⟩⟩
    rw [Rules.removeValue, hfind]
    exact { h with
      same := fun k v => (h.same k v).trans (hall _).symm
      written := fun r hr => h.written r ((hall r).mp hr) }
  | some row =>
    have hrest (other : RuleRow) : other ∈ (t.remove row.id).2.rows ↔ other ∈ t.rows ∧
        ¬ Rules.isFor kind.name (kind.normalize value) other = true := h.mem_remove hfind
    have hlast : (t.remove row.id).2.lastId = t.lastId := by
      rw [Rules.remove]
      split <;> rfl
    rw [Rules.removeValue, hfind]
    refine { enabled := ?enabled, same := ?same, written := ?written, given := ?given, ids := ?ids }
    case enabled =>
      intro other hmem
      exact h.enabled other ((hrest other).mp hmem).1
    case same =>
      intro k v
      rw [hbook, ← h.same]
      constructor
      · rintro ⟨other, hmem, hfor⟩
        obtain ⟨hmem, hnot⟩ := (hrest other).mp hmem
        refine ⟨⟨other, hmem, hfor⟩, ?_⟩
        rintro ⟨⟩
        exact hnot hfor
      · rintro ⟨⟨other, hmem, hfor⟩, hne⟩
        refine ⟨other, (hrest other).mpr ⟨hmem, fun hremoved => hne ?_⟩, hfor⟩
        obtain ⟨hname, hvalue⟩ := Rules.isFor_iff.mp hfor
        obtain ⟨hname', hvalue'⟩ := Rules.isFor_iff.mp hremoved
        rw [Rule.Kind.name_injective (hname.symm.trans hname'), ← hvalue, hvalue']
    case written =>
      intro r hr
      exact h.written r ((hbook r).mp hr).1
    case given =>
      intro other hmem
      rw [hlast]
      exact h.given other ((hrest other).mp hmem).1
    case ids =>
      intro a ha c hc
      exact h.ids a ((hrest a).mp ha).1 c ((hrest c).mp hc).1

end Mirrors

/-! ## 3. Runs -/

/-- A change to the rules. -/
inductive Edit where
  | add (kind : Rule.Kind) (value : Text) (note : Option Text) (now : Time.Timestamp)
  | remove (kind : Rule.Kind) (value : Text)

namespace Edit

/-- What is added is not empty in its normal form, and has no NUL. -/
def Written : Edit → Prop
  | add kind value _ _ => kind.normalize value ≠ [] ∧ value.NulFree
  | remove _ _ => True

instance : DecidablePred Written
  | add kind value _ _ =>
    inferInstanceAs (Decidable (kind.normalize value ≠ [] ∧ value.NulFree))
  | remove _ _ => isTrue trivial

/-- The change, made to a table. -/
def onTable (t : Rules) : Edit → Rules
  | add kind value note now => (t.insert kind value note now).2
  | remove kind value => (t.removeValue kind value).2

/-- The change, made to a book. -/
def onBook (b : Rule.Book) : Edit → Rule.Book
  | add kind value _ _ => b.add kind value
  | remove kind value => b.remove kind value

/-- The table after some changes. -/
def table (edits : List Edit) : Rules := edits.foldl onTable Rules.empty

/-- The book after some changes. -/
def book (edits : List Edit) : Rule.Book := edits.foldl onBook Rule.Book.empty

theorem step_mirrors {e : Edit} (he : e.Written) (h : Mirrors t b) :
    Mirrors (onTable t e) (onBook b e) := by
  cases e with
  | add kind value note now => exact h.insert note now he.1 he.2
  | remove kind value => exact h.removeValue kind value

theorem foldl_mirrors {edits : List Edit} (hedits : ∀ e ∈ edits, e.Written) (h : Mirrors t b) :
    Mirrors (edits.foldl onTable t) (edits.foldl onBook b) := by
  induction edits generalizing t b with
  | nil => exact h
  | cons e edits ih =>
    exact ih (fun e he => hedits e (List.mem_cons_of_mem _ he))
      (step_mirrors (hedits e List.mem_cons_self) h)

/-- **After any changes the table and the book hold the same rules.** -/
theorem mirrors {edits : List Edit} (hedits : ∀ e ∈ edits, e.Written) :
    Mirrors (table edits) (book edits) :=
  foldl_mirrors hedits mirrors_empty

end Edit

/-! ## 4. Answers -/

namespace Mirrors

variable {kind : Rule.Kind} {value : Text}

/-- The rules that apply are the same. -/
theorem applies_iff (h : Mirrors t b) (hv : value.NulFree) {rule : Text} :
    (∃ row ∈ t.rows, Rules.applies kind value row = true ∧ row.value = rule) ↔
      { kind, value := rule : Rule } ∈ b.rules ∧ kind.covers rule value = true := by
  rw [← h.same]
  constructor
  · rintro ⟨row, hrow, ha, rfl⟩
    simp only [Rules.applies, Bool.and_eq_true, beq_iff_eq] at ha
    obtain ⟨⟨⟨-, hname⟩, -⟩, hsel⟩ := ha
    have hfor : Rules.isFor kind.name row.value row = true := Rules.isFor_iff.mpr ⟨hname, rfl⟩
    obtain ⟨hne, hnul⟩ := h.written _ ((h.same kind row.value).mp ⟨row, hrow, hfor⟩)
    exact ⟨⟨row, hrow, hfor⟩, kind.selects_eq_covers hne hnul hv ▸ hsel⟩
  · rintro ⟨⟨row, hrow, hfor⟩, hcov⟩
    obtain ⟨hne, hnul⟩ := h.written _ ((h.same kind rule).mp ⟨row, hrow, hfor⟩)
    obtain ⟨hname, rfl⟩ := Rules.isFor_iff.mp hfor
    refine ⟨row, hrow, ?_, rfl⟩
    have hsome : row.value.isEmpty = false := List.isEmpty_eq_false_iff.mpr hne
    rw [Rules.applies, h.enabled row hrow, hname, hsome, kind.selects_eq_covers hne hnul hv, hcov]
    simp

/-- The one finds nothing exactly where the other does not answer. -/
theorem findMatch?_eq_none_iff (h : Mirrors t b) (hv : value.NulFree) :
    t.findMatch? kind value = none ↔ b.answer? kind value = none := by
  rw [Rules.findMatch?_eq_none_iff, Rule.Book.answer?_eq_none_iff]
  constructor
  · intro hnone r hr hkind
    subst hkind
    rw [← Bool.not_eq_true]
    intro hcov
    obtain ⟨row, hrow, ha, _⟩ := (h.applies_iff hv).mpr ⟨hr, hcov⟩
    exact absurd ha (by rw [hnone row hrow]; exact Bool.false_ne_true)
  · intro hnone row hrow
    rw [← Bool.not_eq_true]
    intro ha
    obtain ⟨hmem, hcov⟩ := (h.applies_iff hv).mp ⟨row, hrow, ha, rfl⟩
    exact absurd hcov (by rw [hnone _ hmem rfl]; exact Bool.false_ne_true)

/-- For URL and domain rules they answer the same: there is only one longest rule. -/
theorem findMatch?_eq_answer? (h : Mirrors t b) (hv : value.NulFree) (hkind : kind ≠ .keyword) :
    t.findMatch? kind value = b.answer? kind value := by
  cases hb : b.answer? kind value with
  | none => exact (h.findMatch?_eq_none_iff hv).mpr hb
  | some r =>
    cases ht : t.findMatch? kind value with
    | none =>
      rw [(h.findMatch?_eq_none_iff hv).mp ht] at hb
      cases hb
    | some found =>
      obtain ⟨hr, rfl, hcov⟩ := Rule.Book.answer?_covers hb
      obtain ⟨⟨row, hrow, ha, rfl⟩, hlongest⟩ := Rules.charCount_le_of_findMatch? ht
      obtain ⟨hfound, hcov'⟩ := (h.applies_iff hv).mp ⟨row, hrow, ha, rfl⟩
      obtain ⟨row', hrow', ha', hvalue⟩ := (h.applies_iff hv).mpr ⟨hr, hcov⟩
      have hchars := hlongest row' hrow' ha'
      rw [hvalue, Condition.charCount_eq (h.written r hr).2,
        Condition.charCount_eq (h.written _ hfound).2] at hchars
      have hbytes := Rule.Book.size_le_of_answer? hb hfound rfl hcov'
      have heq : row.value = r.value := Rule.Kind.eq_of_covers hkind hcov' hcov hchars hbytes
      simp only [heq]

end Mirrors

/-- **A table and a book decide alike.** After the same changes the one finds a rule for a value
    exactly when the other does, and for URL and domain rules they find the same one. -/
theorem Edit.same_decisions {edits : List Edit} (hedits : ∀ e ∈ edits, e.Written)
    (kind : Rule.Kind) {value : Text} (hv : value.NulFree) :
    ((table edits).findMatch? kind value).isSome = ((book edits).query kind value).1.isSome ∧
      (kind ≠ .keyword →
        (table edits).findMatch? kind value = ((book edits).query kind value).1) := by
  have h := mirrors hedits
  refine ⟨?_, h.findMatch?_eq_answer? hv⟩
  rw [Bool.eq_iff_iff, Option.isSome_iff_ne_none, Option.isSome_iff_ne_none]
  exact not_congr (h.findMatch?_eq_none_iff hv)

/-- Two rules that match a name are added, the first of them twice; the second one is removed. -/
def Edit.twoDomains : List Edit :=
  [.add .domain "Example.com".toList none ⟨0, 0⟩, .add .domain "*.b.example.com.".toList none ⟨0, 0⟩,
    .add .domain "example.com".toList none ⟨0, 0⟩, .remove .domain "b.example.com".toList]

/-- The table and the book find the rule that is left. -/
theorem Edit.same_decisions_two_domains :
    (table twoDomains).findMatch? .domain "a.b.example.com".toList =
      ((book twoDomains).query .domain "a.b.example.com".toList).1 :=
  (same_decisions (by decide) .domain (by decide)).2 (by decide)

example : (Edit.table Edit.twoDomains).findMatch? .domain "a.b.example.com".toList =
    some { kind := .domain, value := "example.com".toList } := by
  decide

end Store

end TrafficGate
