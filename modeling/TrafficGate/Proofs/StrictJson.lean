import TrafficGate.Proofs.JsonTexts
/-!
  # What a strict reader takes

  A strict reader of JSON wants texts in all strings, numbers that a double holds, and no deep
  nesting. What is written has texts only, and a natural number of 64 bits is far below the largest
  double.

  1. `fillWord` and `nearest` at numbers of 64 bits;
  2. values that are written and taken.

  Main facts: **`significand_ofNat`**, **`isFinite_ofNat`** and **`parseStrict?_render`**.
-/

namespace TrafficGate

/-! ## 1. Numbers -/

namespace Double

/-- The last place of a number of 64 bits is worth 2^11 at most. -/
theorem unit_le {n : Nat} (hn : n < Numeral.wordBound) : unit n ≤ Nat.pow 2 11 := by
  refine Nat.pow_le_pow_right (by decide) ?_
  have hlog : n.log2 < 64 := by
    rcases Nat.eq_zero_or_pos n with rfl | hpos
    · decide
    · exact (Nat.log2_lt (Nat.ne_of_gt hpos)).mpr hn
  simp only [precision]
  omega

/-- **A number of 64 bits has a double.** -/
theorem fits_of_lt {n : Nat} (hn : n < Numeral.wordBound) : fits n 0 = true := by
  have hnear := nearest_le n
  have hunit := unit_le hn
  have hone : nearest (Nat.pow 10 0) = 1 := nearest_of_lt (by decide)
  have hroom : Numeral.wordBound + Nat.pow 2 11 < bound := by decide +kernel
  simp only [fits, hone, Nat.mul_one, Bool.or_eq_true, Bool.and_eq_true, decide_eq_true_eq]
  exact .inr ⟨Nat.zero_le _, by omega⟩

end Double

namespace Json

namespace Number

/-- Digits with a value of 64 bits all find room. -/
theorem fillWord_of_readDigits? {acc n : Nat} {t : Text}
    (h : Numeral.readDigits? 10 acc t = some n) (hn : n < Numeral.wordBound) :
    fillWord acc t = (n, []) := by
  induction t generalizing acc with
  | nil =>
    cases h
    rfl
  | cons c t ih =>
    rw [Numeral.readDigits?] at h
    cases hd : Numeral.digitIn? 10 c with
    | none =>
      rw [hd] at h
      cases h
    | some d =>
      rw [hd] at h
      obtain ⟨-, rfl⟩ := Numeral.digitIn?_ten_iff.mp hd
      have hle := Numeral.le_of_readDigits? (by decide) h
      rw [fillWord, if_pos (Nat.lt_of_le_of_lt hle hn)]
      exact ih h

/-- **A natural number of 64 bits keeps all its digits.** -/
theorem significand_ofNat {n : Nat} (hn : n < Numeral.wordBound) :
    (ofNat n).significand = (n, 0) := by
  have hfill : fillWord 0 (ofNat n).whole = (n, []) :=
    fillWord_of_readDigits? (Numeral.readDigits?_decimal n) hn
  simp only [significand, hfill]
  rfl

theorem isFinite_ofNat {n : Nat} (hn : n < Numeral.wordBound) : (ofNat n).isFinite = true := by
  have hfits : Double.fits n (Int.toNat 0) = true := Double.fits_of_lt hn
  simp only [isFinite, significand_ofNat hn, hfits, Bool.or_true]
  rfl

end Number

/-! ## 2. Values -/

/-- **What is written is read back by a strict reader**, if the value is one that it takes. -/
theorem parseStrict?_render {j : Json} (h : Writable j) (hsound : j.isSound = true)
    (hdepth : j.depth ≤ maxNesting) : parseStrict? j.render = some j := by
  rw [parseStrict?, parse?_render h, Option.filter_some, if_pos]
  rw [hsound, Bool.true_and]
  exact decide_eq_true hdepth

section Texts

variable (ts : List Text)

theorem allSound_texts : allSound (ts.map text) = true := by
  induction ts with
  | nil => rfl
  | cons t ts ih => exact ih

theorem maxDepth_texts : maxDepth (ts.map text) = 0 := by
  induction ts with
  | nil => rfl
  | cons t ts ih =>
    rw [List.map_cons, maxDepth, ih]
    rfl

theorem texts?_texts : (arr (ts.map text)).texts? = some ts := by
  change (ts.map text).mapM text? = some ts
  induction ts with
  | nil => rfl
  | cons t ts ih =>
    rw [List.map_cons, List.mapM_cons, ih]
    rfl

end Texts

end Json

end TrafficGate
