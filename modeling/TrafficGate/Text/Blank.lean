import TrafficGate.Text.Ascii
/-!
  # White space

  The Unicode property White_Space and the trimming that goes by it. Header values, rule texts,
  capture lines and DNS names are trimmed by this rule, not by the ASCII one.

  Main facts: **`trim_trim`** (a trimmed text is not trimmed further) and
  **`trim_eq_self_of_ends`** (a text whose two ends are not white space stays as it is).
-/

namespace TrafficGate

namespace Blank

/-- The Unicode property White_Space: the ASCII controls 9 to 13, space, NEL, the no-break space,
    the Ogham space, the spaces of General Punctuation and the ideographic space. -/
def isBlank (c : Char) : Bool :=
  let n := c.toNat
  (9 ≤ n && n ≤ 13) || n == 0x20 || n == 0x85 || n == 0xA0 || n == 0x1680 ||
    (0x2000 ≤ n && n ≤ 0x200A) || n == 0x2028 || n == 0x2029 || n == 0x202F || n == 0x205F ||
    n == 0x3000

end Blank

namespace Text

/-- The text without the white space at its start. -/
def trimStart (t : Text) : Text := t.dropWhile Blank.isBlank

/-- The text without the white space at its end. -/
def trimEnd (t : Text) : Text := (t.reverse.dropWhile Blank.isBlank).reverse

/-- The text without the white space at its two ends. -/
def trim (t : Text) : Text := trimEnd (trimStart t)

theorem trim_sublist (t : Text) : (trim t).Sublist t := by
  have hend : (trimEnd (trimStart t)).Sublist (trimStart t) := by
    rw [trimEnd, ← List.reverse_sublist, List.reverse_reverse]
    exact List.dropWhile_sublist _
  exact hend.trans (List.dropWhile_sublist _)

theorem trimStart_eq_self {c : Char} {t : Text} (h : Blank.isBlank c = false) :
    trimStart (c :: t) = c :: t := by
  simp [trimStart, h]

/-- What `trimStart` leaves is empty or starts with a character that is not white space. -/
theorem trimStart_head (t : Text) :
    trimStart t = [] ∨ ∃ c r, trimStart t = c :: r ∧ Blank.isBlank c = false := by
  cases h : trimStart t with
  | nil => exact Or.inl rfl
  | cons c r =>
    unfold trimStart at h
    have hne : t.dropWhile Blank.isBlank ≠ [] := by rw [h]; exact List.cons_ne_nil _ _
    have := List.head_dropWhile_not Blank.isBlank hne
    simp only [h, List.head_cons] at this
    exact Or.inr ⟨c, r, rfl, this⟩

theorem trimStart_trimStart (t : Text) : trimStart (trimStart t) = trimStart t := by
  rcases trimStart_head t with h | ⟨c, r, h, hc⟩
  · rw [h]; rfl
  · rw [h, trimStart_eq_self hc]

theorem trimEnd_eq_reverse (t : Text) : trimEnd t = (trimStart t.reverse).reverse := rfl

theorem trimEnd_trimEnd (t : Text) : trimEnd (trimEnd t) = trimEnd t := by
  simp [trimEnd_eq_reverse, trimStart_trimStart]

/-- Trimming at the end does not bring white space back to the start. -/
theorem trimStart_trimEnd_of_head {c : Char} {t : Text} (h : Blank.isBlank c = false) :
    trimStart (trimEnd (c :: t)) = trimEnd (c :: t) := by
  have hne : ∃ s, trimEnd (c :: t) = c :: s := by
    simp only [trimEnd, List.reverse_cons, List.dropWhile_append]
    split
    · exact ⟨[], by simp [h]⟩
    · exact ⟨_, by simp only [List.reverse_append, List.reverse_cons, List.reverse_nil,
        List.nil_append, List.cons_append]; rfl⟩
  obtain ⟨s, hs⟩ := hne
  rw [hs, trimStart_eq_self h]

/-- **A trimmed text is not trimmed further.** -/
theorem trim_trim (t : Text) : trim (trim t) = trim t := by
  rcases trimStart_head t with h | ⟨c, r, h, hc⟩
  · have ht : trim t = [] := by rw [trim, h]; rfl
    rw [ht]
    rfl
  · simp only [trim, h, trimStart_trimEnd_of_head hc, trimEnd_trimEnd]

/-- **A text whose two ends are not white space is its own trimmed form.** -/
theorem trim_eq_self_of_ends {t : Text} (hs : trimStart t = t) (he : trimEnd t = t) :
    trim t = t := by
  rw [trim, hs, he]

/-- A text without white space stays as it is. -/
theorem trim_of_not_blank {t : Text} (h : ∀ c ∈ t, Blank.isBlank c = false) : trim t = t := by
  have hkeep : ∀ s : Text, (∀ c ∈ s, Blank.isBlank c = false) → trimStart s = s := by
    intro s hs
    cases s with
    | nil => rfl
    | cons c s => exact trimStart_eq_self (hs c List.mem_cons_self)
  refine trim_eq_self_of_ends (hkeep t h) ?_
  rw [trimEnd_eq_reverse, hkeep _ fun c hc => h c (List.mem_reverse.mp hc), List.reverse_reverse]

end Text

end TrafficGate
