/-!
  # A largest element

  A list is gone through and of two elements one is kept that is as large as both. Which of two
  equally large ones that is does not matter: what is kept at the end is in the list, and nothing in
  it is larger.

  1. `Prefers` -- a choice between two;
  2. what it keeps of a list.

  Main facts: **`foldl_eq_none_iff`** and **`foldl_eq_some`**.
-/

namespace TrafficGate.Seq

variable {α : Type}

/-! ## 1. A choice between two -/

/-- The choice keeps one of the two that is as large as both. -/
structure Prefers (size : α → Nat) (choose : Option α → α → Option α) : Prop where
  first : ∀ x, choose none x = some x
  keeps : ∀ best x, ∃ c, choose (some best) x = some c ∧ (c = best ∨ c = x) ∧
    size best ≤ size c ∧ size x ≤ size c

/-! ## 2. A choice in a list -/

namespace Prefers

variable {size : α → Nat} {choose : Option α → α → Option α}

/-- Something is kept once there is something. -/
theorem exists_foldl (h : Prefers size choose) (l : List α) (best : α) :
    ∃ c, l.foldl choose (some best) = some c := by
  induction l generalizing best with
  | nil => exact ⟨best, rfl⟩
  | cons x l ih =>
    obtain ⟨c, hc, _⟩ := h.keeps best x
    rw [List.foldl_cons, hc]
    exact ih c

theorem foldl_eq_none_iff (h : Prefers size choose) {l : List α} :
    l.foldl choose none = none ↔ l = [] := by
  cases l with
  | nil => simp
  | cons x l =>
    obtain ⟨c, hc⟩ := h.exists_foldl l x
    rw [List.foldl_cons, h.first, hc]
    simp

theorem foldl_some (h : Prefers size choose) {l : List α} {best c : α}
    (hc : l.foldl choose (some best) = some c) :
    (c = best ∨ c ∈ l) ∧ size best ≤ size c ∧ ∀ x ∈ l, size x ≤ size c := by
  induction l generalizing best with
  | nil =>
    cases hc
    exact ⟨.inl rfl, Nat.le_refl _, nofun⟩
  | cons x l ih =>
    obtain ⟨d, hd, hwhich, hbest, hx⟩ := h.keeps best x
    rw [List.foldl_cons, hd] at hc
    obtain ⟨hmem, hle, hrest⟩ := ih hc
    refine ⟨?_, Nat.le_trans hbest hle, ?_⟩
    · rcases hmem with hcd | hmem
      · rcases hwhich with hdbest | hdx
        · exact .inl (hcd.trans hdbest)
        · rw [hcd, hdx]
          exact .inr List.mem_cons_self
      · exact .inr (List.mem_cons_of_mem x hmem)
    · rintro y (_ | ⟨_, hy⟩)
      · exact Nat.le_trans hx hle
      · exact hrest y hy

/-- **What is kept of a list is in it, and nothing in it is larger.** -/
theorem foldl_eq_some (h : Prefers size choose) {l : List α} {c : α}
    (hc : l.foldl choose none = some c) : c ∈ l ∧ ∀ x ∈ l, size x ≤ size c := by
  cases l with
  | nil => cases hc
  | cons x l =>
    rw [List.foldl_cons, h.first] at hc
    obtain ⟨hmem, hle, hrest⟩ := h.foldl_some hc
    refine ⟨?_, ?_⟩
    · rcases hmem with rfl | hmem
      · exact List.mem_cons_self
      · exact List.mem_cons_of_mem x hmem
    · rintro y (_ | ⟨_, hy⟩)
      · exact hle
      · exact hrest y hy

end Prefers

end TrafficGate.Seq
