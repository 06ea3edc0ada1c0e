import Mathlib.Data.List.Nodup
import TrafficGate.Proofs.LongestRule
import TrafficGate.Store.Database
import TrafficGate.Proofs.RuleStores
/-!
  # What a table of rules keeps

  A table of rules is changed by three calls: a rule is added, switched on or off, or removed. Rules
  are told apart by kind and value, and rows by their numbers; adding a rule that is there uses up a
  number without giving it, and removing a rule frees the rule but not its number.

  1. the row of a number, and the rows of the others;
  2. `Call` and `Meets` -- what one call does to the table;
  3. `Ledger` and `Kept` -- a table with all numbers that were given, and what they keep;
  4. one call keeps it;
  5. every sequence of calls.

  Main facts: **`Ledger.Kept.meets`**, **`Ledger.Kept.step`** and **`Ledger.run_kept`**.
-/

namespace TrafficGate.Store

namespace Rules

/-! ## 1. Rows by number -/

/-- The row of a number. -/
def row? (id : Int) (t : Rules) : Option RuleRow := t.rows.find? fun r => r.id == id

/-- The rows of all other numbers, in their order. -/
def others (id : Int) (t : Rules) : List RuleRow := t.rows.filter fun r => r.id != id

/-- The table with the row of a number switched on or off. -/
def switch (id enabled : Int) (t : Rules) : Rules :=
  { t with rows := t.rows.map fun r => if r.id = id then { r with enabled } else r }

variable {t : Rules} {id : Int} {row : RuleRow}

theorem any_id_eq_isSome (id : Int) (t : Rules) :
    (t.rows.any fun r => r.id == id) = (t.row? id).isSome := by
  rw [row?, List.isSome_find?]

theorem row?_eq_none_iff : t.row? id = none ↔ ∀ row ∈ t.rows, row.id ≠ id := by
  simp only [row?, List.find?_eq_none, beq_iff_eq, ne_eq]

theorem id_of_row? (h : t.row? id = some row) : row.id = id := by
  simpa using List.find?_some h

theorem mem_of_row? (h : t.row? id = some row) : row ∈ t.rows := List.mem_of_find?_eq_some h

/-- Where no two rows share a number, each is found by its own. -/
theorem row?_eq_some_of_mem (hids : (t.rows.map RuleRow.id).Nodup) (h : row ∈ t.rows) :
    t.row? row.id = some row := by
  cases hfind : t.row? row.id with
  | none => exact absurd rfl (row?_eq_none_iff.mp hfind row h)
  | some other =>
    rw [List.inj_on_of_nodup_map hids (mem_of_row? hfind) h (id_of_row? hfind)]

theorem map_id_switch (id enabled : Int) (t : Rules) :
    (t.switch id enabled).rows.map RuleRow.id = t.rows.map RuleRow.id := by
  simp only [switch, List.map_map]
  refine List.map_congr_left fun r _ => ?_
  simp only [Function.comp_apply]
  split <;> rfl

theorem row?_switch (id enabled : Int) (t : Rules) :
    (t.switch id enabled).row? id = (t.row? id).map fun r => { r with enabled } := by
  simp only [row?, switch, List.find?_map]
  have hsame : ((fun r : RuleRow => r.id == id) ∘ fun r =>
      if r.id = id then { r with enabled } else r) = fun r => r.id == id := by
    funext r
    simp only [Function.comp_apply]
    split <;> rfl
  rw [hsame]
  cases hfind : t.rows.find? fun r => r.id == id with
  | none => rfl
  | some r => simp only [Option.map_some, if_pos (id_of_row? hfind)]

theorem others_switch (id enabled : Int) (t : Rules) :
    (t.switch id enabled).others id = t.others id := by
  simp only [others, switch, List.filter_map]
  have hsame : ((fun r : RuleRow => r.id != id) ∘ fun r =>
      if r.id = id then { r with enabled } else r) = fun r => r.id != id := by
    funext r
    simp only [Function.comp_apply]
    split <;> rfl
  rw [hsame]
  refine (List.map_congr_left fun r hr => ?_).trans (List.map_id' _)
  rw [if_neg (by simpa using (List.mem_filter.mp hr).2)]

/-- A row that is switched on or off comes from one of the same number and rule. -/
theorem mem_switch {enabled : Int} (h : row ∈ (t.switch id enabled).rows) :
    ∃ old ∈ t.rows, row.id = old.id ∧ row.kindName = old.kindName ∧ row.value = old.value := by
  obtain ⟨old, hold, rfl⟩ := List.mem_map.mp h
  refine ⟨old, hold, ?_⟩
  split <;> exact ⟨rfl, rfl, rfl⟩

end Rules

/-! ## 2. Calls -/

/-- A call that changes the table of rules. -/
inductive Call where
  | insert (kind : Rule.Kind) (value : Text) (note : Option Text) (now : Time.Timestamp)
  | setEnabled (id : Int) (on : Bool)
  | remove (id : Int)

namespace Call

open Rules

/-- The table behind a call. -/
def after (t : Rules) : Call → Rules
  | insert kind value note now => (t.insert kind value note now).2
  | setEnabled id on => (t.setEnabled id on).2
  | remove id => (t.remove id).2

/-- The number that a call gives, with the rule for which it gives it. -/
def given? (t : Rules) : Call → Option (Int × Rule)
  | insert kind value note now =>
    match (t.insert kind value note now).1 with
    | .ok id => some (id, { kind, value := kind.normalize value })
    | .error _ => none
  | setEnabled .. | remove .. => none

/-- The row that a rule has once it is added: the one that it had, switched on, or a new one. -/
def rowFor (kind : Rule.Kind) (value : Text) (note : Option Text) (now : Time.Timestamp) (id : Int)
    (t : Rules) : RuleRow :=
  match t.find? kind.name (kind.normalize value) with
  | some old => { old with enabled := 1 }
  | none =>
    { id, kindName := kind.name, value := kind.normalize value, enabled := 1, note,
      createdAt := now.plain }

/-- **What a call does**. A rule that is not empty in its normal form gets a number, under which it is
    then found; an empty one is refused. A number that is there has its row changed or removed, and
    one that is not there is a fault. All other rows stay as they are, and what fails changes
    nothing. -/
def Meets (t : Rules) : Call → Prop
  | insert kind value note now =>
    if kind.normalize value = [] then
      t.insert kind value note now =
        (.error (.invalidInput ("empty ".toList ++ kind.name ++ " rule".toList)), t)
    else
      ∃ id row, (t.insert kind value note now).1 = .ok id ∧
        (t.insert kind value note now).2.row? id = some row ∧
        row.kindName = kind.name ∧ row.value = kind.normalize value ∧ row.enabled = 1 ∧
        row = rowFor kind value note now id t ∧
        (t.insert kind value note now).2.others id = t.others id
  | setEnabled id on =>
    match t.row? id with
    | some row =>
      (t.setEnabled id on).1 = .ok () ∧
        (t.setEnabled id on).2.row? id = some { row with enabled := if on then 1 else 0 } ∧
        (t.setEnabled id on).2.others id = t.others id
    | none => t.setEnabled id on = (.error (unknown id), t)
  | remove id =>
    match t.row? id with
    | some _ =>
      (t.remove id).1 = .ok () ∧ (t.remove id).2.row? id = none ∧
        (t.remove id).2.others id = t.others id
    | none => t.remove id = (.error (unknown id), t)

variable {t : Rules} {kind : Rule.Kind} {value : Text} {note : Option Text} {now : Time.Timestamp}
  {id : Int} {row : RuleRow}

theorem setEnabled_eq (id : Int) (on : Bool) (t : Rules) :
    t.setEnabled id on =
      if (t.row? id).isSome then (.ok (), t.switch id (if on then 1 else 0))
      else (.error (unknown id), t) := by
  rw [Rules.setEnabled, any_id_eq_isSome]
  rfl

theorem remove_eq (id : Int) (t : Rules) :
    t.remove id =
      if (t.row? id).isSome then (.ok (), { t with rows := t.others id })
      else (.error (unknown id), t) := by
  rw [Rules.remove, any_id_eq_isSome]
  rfl

theorem insert_empty (h : kind.normalize value = []) :
    t.insert kind value note now =
      (.error (.invalidInput ("empty ".toList ++ kind.name ++ " rule".toList)), t) := by
  rw [Rules.insert, h]
  rfl

/-- A new rule gets the next number. -/
theorem insert_new (hne : kind.normalize value ≠ [])
    (h : t.find? kind.name (kind.normalize value) = none) :
    t.insert kind value note now =
      (.ok (t.lastId + 1), t.append kind.name (kind.normalize value) 1 note now.plain) := by
  simp only [Rules.insert, h, List.isEmpty_iff, if_neg hne]

end Call

/-! ## 3. Numbers that were given -/

/-- A table, and all that adding to it has returned so far: numbers, each with its rule. -/
structure Ledger where
  table : Rules
  given : List (Int × Rule)

namespace Ledger

open Rules

/-- What a table and its numbers keep. No two rows share a number or a rule. Every row is of a rule
    in its normal form, which is not empty and for which its number was given. No number was given
    for two rules, and none is left to be given again. -/
structure Kept (l : Ledger) : Prop where
  ids : (l.table.rows.map RuleRow.id).Nodup
  rules : (l.table.rows.map fun r => (r.kindName, r.value)).Nodup
  written : ∀ row ∈ l.table.rows, ∃ kind text,
    row.kindName = kind.name ∧ row.value = kind.normalize text ∧ row.value ≠ [] ∧
      (row.id, { kind, value := row.value }) ∈ l.given
  single : ∀ id rule rule', (id, rule) ∈ l.given → (id, rule') ∈ l.given → rule = rule'
  below : ∀ id rule, (id, rule) ∈ l.given → id ≤ l.table.lastId

/-- The table and its numbers behind one more call. -/
def step (l : Ledger) (c : Call) : Ledger :=
  { table := c.after l.table, given := l.given ++ (c.given? l.table).toList }

/-- New tables, changed by some calls. -/
def run (calls : List Call) : Ledger :=
  calls.foldl step { table := Tables.fresh.rules, given := [] }

theorem kept_fresh : Kept { table := Tables.fresh.rules, given := [] } where
  ids := List.nodup_nil
  rules := List.nodup_nil
  written := nofun
  single := nofun
  below := nofun

namespace Kept

variable {l : Ledger} {kind : Rule.Kind} {value : Text} {note : Option Text} {now : Time.Timestamp}
  {id : Int} {row : RuleRow}

theorem id_le (h : l.Kept) (hrow : row ∈ l.table.rows) : row.id ≤ l.table.lastId := by
  obtain ⟨kind, _, _, _, _, hgiven⟩ := h.written row hrow
  exact h.below _ _ hgiven

/-- The next number is the one of no row. -/
theorem row?_next (h : l.Kept) : l.table.row? (l.table.lastId + 1) = none := by
  rw [row?_eq_none_iff]
  intro row hrow he
  have := h.id_le hrow
  omega

/-- Two rows of one rule are one. -/
theorem eq_of_rule (h : l.Kept) {a b : RuleRow} (ha : a ∈ l.table.rows) (hb : b ∈ l.table.rows)
    (hname : a.kindName = b.kindName) (hvalue : a.value = b.value) : a = b :=
  List.inj_on_of_nodup_map h.rules ha hb (Prod.ext hname hvalue)

/-- Switching on the row of a rule is switching on the row of its number. -/
theorem enable_eq (h : l.Kept) {kindName value : Text}
    (hrow : l.table.find? kindName value = some row) :
    l.table.enable kindName value = l.table.switch row.id 1 := by
  have hmem := List.mem_of_find?_eq_some hrow
  obtain ⟨hname, hvalue⟩ := isFor_iff.mp (List.find?_some hrow)
  have hsame : ∀ r ∈ l.table.rows, isFor kindName value r = true ↔ r.id = row.id := by
    intro r hr
    rw [isFor_iff]
    constructor
    · rintro ⟨hn, hv⟩
      rw [h.eq_of_rule hr hmem (hn.trans hname.symm) (hv.trans hvalue.symm)]
    · intro hid
      rw [List.inj_on_of_nodup_map h.ids hr hmem hid]
      exact ⟨hname, hvalue⟩
  rw [enable, switch]
  congr 1
  refine List.map_congr_left fun r hr => ?_
  simp only [hsame r hr]

/-- A rule that is there keeps its number, and uses one up. -/
theorem insert_known (h : l.Kept) (hne : kind.normalize value ≠ [])
    (hrow : l.table.find? kind.name (kind.normalize value) = some row) :
    l.table.insert kind value note now =
      (.ok row.id, { l.table.switch row.id 1 with lastId := l.table.lastId + 1 }) := by
  simp only [Rules.insert, hrow, List.isEmpty_iff, if_neg hne, h.enable_eq hrow]

/-! ## 4. One call -/

/-- Inserting a rule that is there switches its row on. -/
theorem meets_insert_known (h : l.Kept) (hne : kind.normalize value ≠ []) {row : RuleRow}
    (hfind : l.table.find? kind.name (kind.normalize value) = some row) :
    (Call.insert kind value note now).Meets l.table := by
  obtain ⟨hname, hvalue⟩ := isFor_iff.mp (List.find?_some hfind)
  have hrow := row?_eq_some_of_mem h.ids (List.mem_of_find?_eq_some hfind)
  have hswitched := row?_switch row.id 1 l.table
  rw [hrow] at hswitched
  rw [Call.Meets, if_neg hne]
  refine ⟨row.id, { row with enabled := 1 }, ?_⟩
  rw [h.insert_known hne hfind]
  refine ⟨rfl, hswitched, hname, hvalue, rfl, ?_, others_switch row.id 1 l.table⟩
  rw [Call.rowFor, hfind]

/-- Inserting another rule gives it a row with the next number. -/
theorem meets_insert_new (h : l.Kept) (hne : kind.normalize value ≠ [])
    (hfind : l.table.find? kind.name (kind.normalize value) = none) :
    (Call.insert kind value note now).Meets l.table := by
  have hnext := h.row?_next
  rw [Call.Meets, if_neg hne]
  refine ⟨l.table.lastId + 1,
    { id := l.table.lastId + 1, kindName := kind.name, value := kind.normalize value,
      enabled := 1, note, createdAt := now.plain }, ?_⟩
  rw [Call.insert_new hne hfind]
  refine ⟨rfl, ?_, rfl, rfl, rfl, ?_, ?_⟩
  · simp only [row?, append, List.find?_append] at hnext ⊢
    rw [hnext]
    simp
  · rw [Call.rowFor, hfind]
  · simp [others, append]

/-- **Every call does what it is to do.** -/
theorem meets (h : l.Kept) (c : Call) : c.Meets l.table := by
  cases c with
  | insert kind value note now =>
    by_cases hempty : kind.normalize value = []
    · rw [Call.Meets, if_pos hempty]
      exact Call.insert_empty hempty
    · cases hfind : l.table.find? kind.name (kind.normalize value) with
      | some row => exact h.meets_insert_known hempty hfind
      | none => exact h.meets_insert_new hempty hfind
  | setEnabled id on =>
    rw [Call.Meets, Call.setEnabled_eq]
    have hswitched := row?_switch id (if on then 1 else 0) l.table
    cases hrow : l.table.row? id with
    | some row =>
      rw [hrow] at hswitched
      exact ⟨rfl, hswitched, others_switch id _ l.table⟩
    | none => rfl
  | remove id =>
    rw [Call.Meets, Call.remove_eq]
    cases hrow : l.table.row? id with
    | some row =>
      refine ⟨rfl, row?_eq_none_iff.mpr fun r hr => ?_, ?_⟩
      · simpa using (List.mem_filter.mp hr).2
      · simp only [Option.isSome_some, if_true, others, List.filter_filter, Bool.and_self]
    | none => rfl

/-- A row switched on or off keeps what a table keeps. -/
theorem switch (h : l.Kept) (id enabled : Int) :
    Kept { l with table := l.table.switch id enabled } where
  ids := by
    rw [map_id_switch]
    exact h.ids
  rules := by
    have hsame : ((l.table.switch id enabled).rows.map fun r => (r.kindName, r.value)) =
        l.table.rows.map fun r => (r.kindName, r.value) := by
      simp only [Rules.switch, List.map_map]
      refine List.map_congr_left fun r _ => ?_
      simp only [Function.comp_apply]
      split <;> rfl
    rw [hsame]
    exact h.rules
  written row hrow := by
    obtain ⟨old, hold, hid, hname, hvalue⟩ := mem_switch hrow
    rw [hid, hname, hvalue]
    exact h.written old hold
  single := h.single
  below := h.below

/-- A number that is used up was not given. -/
theorem skip (h : l.Kept) : Kept { l with table := { l.table with lastId := l.table.lastId + 1 } } :=
  { h with
    below := fun id rule hg => Int.le_trans (h.below id rule hg) (Int.le_add_one (Int.le_refl _)) }

/-- A rule that is there gets its number once more. -/
theorem regive (h : l.Kept) {rule : Rule} (hgiven : (id, rule) ∈ l.given) :
    Kept { l with given := l.given ++ [(id, rule)] } := by
  have hmem (g : Int × Rule) : g ∈ l.given ++ [(id, rule)] ↔ g ∈ l.given := by
    rw [List.mem_append, List.mem_singleton]
    exact ⟨fun hg => hg.elim (fun hg => hg) fun he => he ▸ hgiven, .inl⟩
  exact
    { h with
      written := fun row hrow => by simpa only [hmem] using h.written row hrow
      single := fun id rule rule' hr hr' =>
        h.single id rule rule' ((hmem _).mp hr) ((hmem _).mp hr')
      below := fun id rule hr => h.below id rule ((hmem _).mp hr) }

/-- A new rule gets the next number, and a row at the end. -/
theorem append (h : l.Kept) {createdAt : Text} (hne : kind.normalize value ≠ [])
    (hnew : l.table.find? kind.name (kind.normalize value) = none) :
    Kept
      { table := l.table.append kind.name (kind.normalize value) 1 note createdAt
        given := l.given ++ [(l.table.lastId + 1, { kind, value := kind.normalize value })] } := by
  refine { ids := ?ids, rules := ?rules, written := ?written, single := ?single, below := ?below }
  case ids =>
    have hnext := row?_eq_none_iff.mp h.row?_next
    simp only [Rules.append, List.map_append, List.map_cons, List.map_nil]
    refine List.nodup_append.mpr ⟨h.ids, List.nodup_singleton _, ?_⟩
    rintro _ hid _ hlast rfl
    obtain ⟨row, hrow, hrid⟩ := List.mem_map.mp hid
    exact hnext row hrow (hrid.trans (List.mem_singleton.mp hlast))
  case rules =>
    simp only [Rules.append, List.map_append, List.map_cons, List.map_nil]
    refine List.nodup_append.mpr ⟨h.rules, List.nodup_singleton _, ?_⟩
    rintro _ hrule _ hlast rfl
    obtain ⟨row, hrow, he⟩ := List.mem_map.mp hrule
    rw [List.mem_singleton.mp hlast] at he
    exact List.find?_eq_none.mp hnew row hrow (isFor_iff.mpr (Prod.mk.inj he))
  case written =>
    intro row hrow
    rcases List.mem_append.mp hrow with hold | hlast
    · obtain ⟨k, text, hname, hvalue, hsome, hgiven⟩ := h.written row hold
      exact ⟨k, text, hname, hvalue, hsome, List.mem_append_left _ hgiven⟩
    · rw [List.mem_singleton.mp hlast]
      exact ⟨kind, value, rfl, rfl, hne, List.mem_append_right _ (List.mem_singleton_self _)⟩
  case single =>
    -- The next number is above all that were given.
    intro id rule rule' hr hr'
    rcases List.mem_append.mp hr with hold | hlast <;>
      rcases List.mem_append.mp hr' with hold' | hlast'
    · exact h.single id rule rule' hold hold'
    · have hid := (Prod.mk.inj (List.mem_singleton.mp hlast')).1
      have := h.below id rule hold
      omega
    · have hid := (Prod.mk.inj (List.mem_singleton.mp hlast)).1
      have := h.below id rule' hold'
      omega
    · rw [(Prod.mk.inj (List.mem_singleton.mp hlast)).2,
        (Prod.mk.inj (List.mem_singleton.mp hlast')).2]
  case below =>
    intro id rule hr
    simp only [Rules.append]
    rcases List.mem_append.mp hr with hold | hlast
    · exact Int.le_trans (h.below id rule hold) (by omega)
    · exact Int.le_of_eq (Prod.mk.inj (List.mem_singleton.mp hlast)).1

/-- Removing a row frees its rule; its number stays given. -/
theorem remove (h : l.Kept) (id : Int) :
    Kept { l with table := { l.table with rows := l.table.others id } } where
  ids := h.ids.sublist (List.filter_sublist.map _)
  rules := h.rules.sublist (List.filter_sublist.map _)
  written row hrow := h.written row (List.mem_filter.mp hrow).1
  single := h.single
  below := h.below

/-- **One call keeps what a table keeps.** -/
theorem step (h : l.Kept) (c : Call) : (l.step c).Kept := by
  cases c with
  | insert kind value note now =>
    by_cases hne : kind.normalize value = []
    · simpa only [Ledger.step, Call.after, Call.given?, Call.insert_empty hne, Option.toList_none,
        List.append_nil] using h
    · cases hfind : l.table.find? kind.name (kind.normalize value) with
      | some row =>
        obtain ⟨k, _, hname, _, _, hgiven⟩ := h.written row (List.mem_of_find?_eq_some hfind)
        obtain ⟨hname', hvalue⟩ := isFor_iff.mp (List.find?_some hfind)
        rw [Rule.Kind.name_injective (hname.symm.trans hname'), hvalue] at hgiven
        simp only [Ledger.step, Call.after, Call.given?, h.insert_known hne hfind]
        exact ((h.switch row.id 1).skip).regive hgiven
      | none =>
        simp only [Ledger.step, Call.after, Call.given?, Call.insert_new hne hfind]
        exact h.append hne hfind
  | setEnabled id on =>
    simp only [Ledger.step, Call.after, Call.given?, Option.toList_none, List.append_nil,
      Call.setEnabled_eq]
    split
    · exact h.switch id _
    · exact h
  | remove id =>
    simp only [Ledger.step, Call.after, Call.given?, Option.toList_none, List.append_nil,
      Call.remove_eq]
    split
    · exact h.remove id
    · exact h

end Kept

/-! ## 5. Every sequence of calls -/

theorem Kept.foldl {l : Ledger} (h : l.Kept) (calls : List Call) :
    (calls.foldl Ledger.step l).Kept := by
  induction calls generalizing l with
  | nil => exact h
  | cons c calls ih => exact ih (h.step c)

theorem kept_run (calls : List Call) : (run calls).Kept := kept_fresh.foldl calls

end Ledger

namespace Rules

/-- A rule that is found is the one of a row of its kind that is switched on. -/
theorem row_of_findMatch? {kind : Rule.Kind} {value : Text} {t : Rules} {rule : Rule}
    (h : t.findMatch? kind value = some rule) :
    rule.kind = kind ∧
      ∃ row ∈ t.rows, row.kindName = kind.name ∧ row.enabled = 1 ∧ row.value = rule.value := by
  obtain ⟨⟨row, hrow, happlies, rfl⟩, _⟩ := charCount_le_of_findMatch? h
  simp only [applies, Bool.and_eq_true, beq_iff_eq] at happlies
  exact ⟨rfl, row, hrow, happlies.1.1.2, happlies.1.1.1, rfl⟩

end Rules

/-- **A table of rules after any calls**: it keeps what a table and its numbers keep, the next call
    does what it is to do, whichever it is, and what is found is the rule of a row that is switched
    on. -/
theorem Ledger.run_kept (calls : List Call) :
    (run calls).Kept ∧ (∀ c : Call, c.Meets (run calls).table) ∧
      ∀ kind value rule, (run calls).table.findMatch? kind value = some rule →
        rule.kind = kind ∧ ∃ row ∈ (run calls).table.rows,
          row.kindName = kind.name ∧ row.enabled = 1 ∧ row.value = rule.value :=
  ⟨kept_run calls, (kept_run calls).meets, fun _ _ _ => Rules.row_of_findMatch?⟩

/-- Adding a rule once more uses up the second number, and the first is not given again. -/
example : ((Ledger.run [.insert .domain "a.test".toList none ⟨0, 0⟩,
    .insert .domain "*.A.test.".toList none ⟨0, 0⟩, .remove 1,
    .insert .domain "a.b".toList none ⟨0, 0⟩]).given.map Prod.fst) = [1, 1, 3] := by
  decide

end TrafficGate.Store
