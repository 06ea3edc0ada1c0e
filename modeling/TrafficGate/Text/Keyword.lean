import TrafficGate.Text.Ascii
/-!
  # Keywords in any case

  Names of kinds, transports and the like are read in any case. The case map is the full one of
  Unicode as far as an ASCII word can tell: besides the ASCII capitals only the Kelvin sign has an
  ASCII small letter, `k`; every other character stays outside ASCII when it is lowered.

  Main fact: **`fold_of_lower`** (a word of small letters is its own folded form).
-/

namespace TrafficGate.Keyword

/-- The small letter of a character: the ASCII one, and `k` for the Kelvin sign. -/
def foldChar (c : Char) : Char :=
  if c.toNat = 0x212A then 'k' else Ascii.lowerChar c

/-- The text in small letters. -/
def fold (t : Text) : Text := t.map foldChar

/-- The value that the table gives for the word `t`, in any case. -/
def find? {α : Type} (table : List (Text × α)) (t : Text) : Option α :=
  (table.find? fun row => row.1 == fold t).map (·.2)

theorem foldChar_of_not_upper {c : Char} (hk : c.toNat ≠ 0x212A) (hu : Ascii.isUpper c = false) :
    foldChar c = c := by
  simp [foldChar, hk, Ascii.lowerChar, hu]

/-- **A word without capitals is its own folded form.** -/
theorem fold_of_lower {t : Text}
    (h : ∀ c ∈ t, c.toNat ≠ 0x212A ∧ Ascii.isUpper c = false) : fold t = t := by
  induction t with
  | nil => rfl
  | cons c t ih =>
    have hc := h c List.mem_cons_self
    have ht := ih fun d hd => h d (List.mem_cons_of_mem _ hd)
    simp only [fold, List.map_cons, foldChar_of_not_upper hc.1 hc.2] at ht ⊢
    rw [ht]

end TrafficGate.Keyword
