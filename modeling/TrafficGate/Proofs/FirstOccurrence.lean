import TrafficGate.Http.Carve
/-!
  # First occurrences

  Where a search stops, said without the search: at the first place at which the pattern starts.
  From that, what a search found it finds whatever bytes come behind, and a search that starts late
  finds the same when nothing starts before.

  1. `indexOf?` and `cut?` -- in any list;
  2. `findTerminator?` -- the empty line behind a head.

  Main facts: **`indexOf?_eq_some_iff`**, **`indexOf?_append`**, **`cut?_append`**,
  **`cut?_front`**, **`findTerminator?_append`** and **`findTerminator?_of_quiet`**.
-/

namespace TrafficGate

namespace Seq

/-! ## 1. In any list -/

variable {α : Type} [DecidableEq α]

omit [DecidableEq α] in
/-- A pattern that fits into the front part of a list starts there or not, whatever comes behind. -/
theorem prefix_append_iff {pat l : List α} (h : pat.length ≤ l.length) (more : List α) :
    pat <+: l ++ more ↔ pat <+: l := by
  constructor
  · intro hp
    exact List.prefix_of_prefix_length_le hp (List.prefix_append l more) h
  · intro hp
    exact hp.trans (List.prefix_append l more)

/-- **Nothing is found where the pattern starts nowhere.** -/
theorem indexOf?_eq_none_iff {pat l : List α} :
    indexOf? pat l = none ↔ ∀ j, ¬ pat <+: l.drop j := by
  induction l with
  | nil => simp [indexOf?, List.prefix_nil]
  | cons x xs ih =>
    simp only [indexOf?, List.isPrefixOf_iff_prefix]
    constructor
    · intro h j
      split at h
      · cases h
      · next hp =>
        cases j with
        | zero => exact hp
        | succ j => exact ih.mp (Option.map_eq_none_iff.mp h) j
    · intro h
      have h0 : ¬ pat <+: x :: xs := h 0
      rw [if_neg h0, Option.map_eq_none_iff]
      exact ih.mpr fun j => h (j + 1)

/-- **The place found is the first at which the pattern starts.** -/
theorem indexOf?_eq_some_iff {pat l : List α} {i : Nat} :
    indexOf? pat l = some i ↔ pat <+: l.drop i ∧ ∀ j < i, ¬ pat <+: l.drop j := by
  induction l generalizing i with
  | nil =>
    cases i with
    | zero => simp [indexOf?, List.prefix_nil]
    | succ i =>
      simp only [indexOf?, List.drop_nil, List.prefix_nil]
      constructor
      · intro h
        split at h <;> cases h
      · intro h
        exact absurd h.1 (h.2 0 (Nat.succ_pos i))
  | cons x xs ih =>
    simp only [indexOf?, List.isPrefixOf_iff_prefix]
    by_cases hp : pat <+: x :: xs
    · rw [if_pos hp]
      constructor
      · rintro ⟨⟩
        exact ⟨hp, fun j hj => absurd hj (Nat.not_lt_zero j)⟩
      · intro h
        cases i with
        | zero => rfl
        | succ i => exact absurd hp (h.2 0 (Nat.succ_pos i))
    · rw [if_neg hp]
      cases i with
      | zero => simp [hp]
      | succ i =>
        rw [Option.map_eq_some_iff]
        constructor
        · rintro ⟨j, hj, he⟩
          obtain rfl : j = i := Nat.succ.inj he
          obtain ⟨h1, h2⟩ := ih.mp hj
          refine ⟨h1, fun k hk => ?_⟩
          cases k with
          | zero => exact hp
          | succ k => exact h2 k (Nat.lt_of_succ_lt_succ hk)
        · rintro ⟨h1, h2⟩
          exact ⟨i, ih.mpr ⟨h1, fun k hk => h2 (k + 1) (Nat.succ_lt_succ hk)⟩, rfl⟩

/-- **What is found is found whatever comes behind.** -/
theorem indexOf?_append {pat l : List α} {i : Nat} (h : indexOf? pat l = some i)
    (more : List α) : indexOf? pat (l ++ more) = some i := by
  have hroom := indexOf?_add_le h
  obtain ⟨hat, hbefore⟩ := indexOf?_eq_some_iff.mp h
  refine indexOf?_eq_some_iff.mpr ⟨?_, fun j hj hp => hbefore j hj ?_⟩
  · rw [List.drop_append_of_le_length (by omega)]
    exact hat.trans (List.prefix_append _ _)
  · rw [List.drop_append_of_le_length (by omega)] at hp
    exact (prefix_append_iff (by rw [List.length_drop]; omega) more).mp hp

/-- **A cut stays where it is; what comes behind is left behind it.** -/
theorem cut?_append {pat l before after : List α} (h : cut? pat l = some (before, after))
    (more : List α) : cut? pat (l ++ more) = some (before, after ++ more) := by
  obtain ⟨i, hi, he⟩ := Option.map_eq_some_iff.mp h
  obtain ⟨rfl, rfl⟩ := Prod.mk.inj he
  have hroom := indexOf?_add_le hi
  rw [cut?, indexOf?_append hi more, Option.map_some,
    List.take_append_of_le_length (by omega), List.drop_append_of_le_length (by omega)]

/-- **What is cut off at its first pattern is cut off there whatever comes behind.** -/
theorem cut?_front {pat l before after : List α} (h : cut? pat l = some (before, after))
    (more : List α) : cut? pat (before ++ pat ++ more) = some (before, more) := by
  obtain ⟨i, hi, he⟩ := Option.map_eq_some_iff.mp h
  obtain ⟨hbefore, _⟩ := Prod.mk.inj he
  obtain ⟨_, hquiet⟩ := indexOf?_eq_some_iff.mp hi
  have hroom := indexOf?_add_le hi
  have hlen : before.length = i := by
    rw [← hbefore, List.length_take]
    omega
  have hl : l = before ++ pat ++ after := cut?_eq_some h
  have hfound : indexOf? pat (before ++ pat) = some before.length := by
    refine indexOf?_eq_some_iff.mpr ⟨?_, fun j hj hp => hquiet j (by omega) ?_⟩
    · exact ⟨[], by rw [List.append_nil, List.drop_left]⟩
    · rw [hl, List.drop_append_of_le_length (by rw [List.length_append]; omega)]
      exact hp.trans (List.prefix_append _ _)
  have hfront : cut? pat (before ++ pat) = some (before, []) := by
    rw [cut?, hfound, Option.map_some, List.take_left, ← List.length_append, List.drop_length]
  exact cut?_append hfront more

end Seq

namespace Http

/-! ## 2. The empty line behind a head -/

theorem findTerminator?_eq_none_iff {data : Bytes} {start : Nat} :
    findTerminator? data start = none ↔ ∀ j, start ≤ j → ¬ terminator <+: data.drop j := by
  rw [findTerminator?, Option.map_eq_none_iff, Seq.indexOf?_eq_none_iff]
  simp only [List.drop_drop]
  constructor
  · intro h j hj
    have := h (j - start)
    rwa [Nat.add_sub_cancel' hj] at this
  · intro h j
    exact h (start + j) (Nat.le_add_right start j)

/-- **The empty line found is the first one at or behind the start.** -/
theorem findTerminator?_eq_some_iff {data : Bytes} {start i : Nat} :
    findTerminator? data start = some i ↔
      start ≤ i ∧ terminator <+: data.drop i ∧
        ∀ j, start ≤ j → j < i → ¬ terminator <+: data.drop j := by
  rw [findTerminator?, Option.map_eq_some_iff]
  simp only [Seq.indexOf?_eq_some_iff, List.drop_drop]
  constructor
  · rintro ⟨k, ⟨hat, hbefore⟩, rfl⟩
    refine ⟨Nat.le_add_right start k, hat, fun j hj hlt => ?_⟩
    have := hbefore (j - start) (by omega)
    rwa [Nat.add_sub_cancel' hj] at this
  · rintro ⟨hle, hat, hbefore⟩
    refine ⟨i - start, ⟨?_, fun j hj => hbefore (start + j) (by omega) (by omega)⟩,
      Nat.add_sub_cancel' hle⟩
    rwa [Nat.add_sub_cancel' hle]

/-- **An empty line that is found is found whatever comes behind.** -/
theorem findTerminator?_append {data : Bytes} {start i : Nat}
    (h : findTerminator? data start = some i) (more : Bytes) :
    findTerminator? (data ++ more) start = some i := by
  obtain ⟨j, hj, rfl⟩ := Option.map_eq_some_iff.mp h
  have hroom := findTerminator?_le h
  rw [findTerminator?, List.drop_append_of_le_length (by omega), Seq.indexOf?_append hj,
    Option.map_some]

/-- A search that starts behind the bytes starts at their end. -/
theorem findTerminator?_min (data : Bytes) (start : Nat) :
    findTerminator? data (min start data.length) = findTerminator? data start := by
  rcases Nat.le_total start data.length with hle | hle
  · rw [Nat.min_eq_left hle]
  · rw [Nat.min_eq_right hle, findTerminator?, findTerminator?, List.drop_eq_nil_of_le hle,
      List.drop_length]
    rfl

/-- **A search may start late when no empty line starts before.** -/
theorem findTerminator?_of_quiet {data : Bytes} {start : Nat}
    (h : ∀ j < start, ¬ terminator <+: data.drop j) :
    findTerminator? data start = findTerminator? data 0 := by
  cases hs : findTerminator? data start with
  | none =>
    rw [findTerminator?_eq_none_iff] at hs
    refine (findTerminator?_eq_none_iff.mpr fun j _ => ?_).symm
    by_cases hj : j < start
    · exact h j hj
    · exact hs j (Nat.le_of_not_lt hj)
  | some i =>
    obtain ⟨_, hat, hbefore⟩ := findTerminator?_eq_some_iff.mp hs
    refine (findTerminator?_eq_some_iff.mpr ⟨Nat.zero_le i, hat, fun j _ hj => ?_⟩).symm
    by_cases hlt : j < start
    · exact h j hlt
    · exact hbefore j (Nat.le_of_not_lt hlt) hj

end Http

end TrafficGate
