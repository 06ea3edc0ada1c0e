import TrafficGate.Text.Ascii
/-!
  # The order of texts

  Texts are ordered by their characters from the left, characters by their numbers. This is also the
  order of the UTF-8 bytes.

  Main facts: **`le_total`** (of two texts one comes first) and **`le_refl`**.
-/

namespace TrafficGate.Text

/-- Whether the first text comes before the second or is the same. -/
def le : Text → Text → Bool
  | [], _ => true
  | _ :: _, [] => false
  | c :: s, d :: t => if c = d then le s t else decide (c.toNat < d.toNat)

/-- Whether the first text comes before the second and is not the same. -/
def lt (s t : Text) : Bool := !le t s

/-- **A text does not come before itself only.** -/
theorem le_refl (t : Text) : le t t = true := by
  induction t with
  | nil => rfl
  | cons c t ih => simp [le, ih]

/-- **Of two texts one comes first.** -/
theorem le_total (s t : Text) : (le s t || le t s) = true := by
  induction s generalizing t with
  | nil => rfl
  | cons c s ih =>
    cases t with
    | nil => simp [le]
    | cons d t =>
      by_cases h : c = d
      · subst h
        simpa [le] using ih t
      · have hn : c.toNat ≠ d.toNat := fun he => h (Char.toNat_inj.mp he)
        simp only [le, h, if_false, Ne.symm h, Bool.or_eq_true, decide_eq_true_eq]
        omega

end TrafficGate.Text
