/-!
  # Tables

  A finite map as the list of its rows, in the order in which the keys first came. Rows are looked
  up by key; setting a key that is there replaces its row in place.

  Main facts: **`find?_set_self`**, **`find?_set_other`**, **`find?_erase_self`** and
  **`find?_erase_other`** (what a look-up gives after a change).
-/

namespace TrafficGate

/-- A finite map as the list of its rows. -/
abbrev Table (κ α : Type) := List (κ × α)

namespace Table

variable {κ α : Type} [DecidableEq κ]

/-- The value of a key. -/
def find? (k : κ) : Table κ α → Option α
  | [] => none
  | (k', a) :: rows => if k' = k then some a else find? k rows

/-- The table with the value of a key set. -/
def set (k : κ) (a : α) : Table κ α → Table κ α
  | [] => [(k, a)]
  | (k', a') :: rows => if k' = k then (k, a) :: rows else (k', a') :: set k a rows

/-- The table without the rows of a key. -/
def erase (k : κ) (t : Table κ α) : Table κ α := t.filter fun row => row.1 ≠ k

@[simp] theorem find?_nil (k : κ) : find? k ([] : Table κ α) = none := rfl

/-- **A set value is found.** -/
theorem find?_set_self (k : κ) (a : α) (t : Table κ α) : find? k (set k a t) = some a := by
  induction t with
  | nil => simp [set, find?]
  | cons row rows ih =>
    obtain ⟨k', a'⟩ := row
    by_cases h : k' = k
    · simp [set, find?, h]
    · simp [set, find?, h, ih]

/-- **Setting one key leaves the others as they are.** -/
theorem find?_set_other {k j : κ} (h : j ≠ k) (a : α) (t : Table κ α) :
    find? j (set k a t) = find? j t := by
  induction t with
  | nil => simp [set, find?, Ne.symm h]
  | cons row rows ih =>
    obtain ⟨k', a'⟩ := row
    by_cases hk : k' = k
    · simp [set, find?, hk, Ne.symm h]
    · simp only [set, hk, if_false, find?, ih]

/-- **An erased key has no value.** -/
theorem find?_erase_self (k : κ) (t : Table κ α) : find? k (erase k t) = none := by
  induction t with
  | nil => rfl
  | cons row rows ih =>
    obtain ⟨k', a'⟩ := row
    by_cases h : k' = k
    · simpa [erase, h] using ih
    · simpa [erase, h, find?] using ih

/-- **Erasing one key leaves the others as they are.** -/
theorem find?_erase_other {k j : κ} (h : j ≠ k) (t : Table κ α) :
    find? j (erase k t) = find? j t := by
  induction t with
  | nil => rfl
  | cons row rows ih =>
    obtain ⟨k', a'⟩ := row
    by_cases hk : k' = k
    · subst hk
      simpa [erase, find?, Ne.symm h] using ih
    · by_cases hj : k' = j
      · simp [erase, find?, hj, h]
      · simpa [erase, find?, hk, hj] using ih

end Table

end TrafficGate
