import TrafficGate.Http.Resync
import TrafficGate.Proofs.FirstOccurrence
/-!
  # Starts of lines

  Where a search for the next message stops, said without the search: at the first line that starts
  like one. From that, what it finds in the last bytes of a stream is what it finds in the stream, if
  these bytes start with a line, or are enough to show a start that is cut off.

  1. `looksLikeStart` -- how many bytes it looks at, and that a start lies in one line;
  2. `StartsAt` -- a line that starts like a message, and `findStart?` as the first of them;
  3. more bytes behind;
  4. fewer bytes in front.

  Main facts: **`findStart?_eq_some_iff`**, **`findStart?_append`** and **`findStart?_behind`**.
-/

namespace TrafficGate.Http

variable {side : Side} {data : Bytes} {i : Nat}

/-! ## 1. How a message starts -/

theorem looksLikeStart_iff_exists :
    looksLikeStart side data = true ↔ ∃ o ∈ openings side, Utf8.encode o <+: data := by
  rw [looksLikeStart, List.any_eq_true]
  simp only [List.isPrefixOf_iff_prefix]

/-- An opening has eight bytes at most and no line feed. -/
theorem openings_short {o : Text} (h : o ∈ openings side) :
    (Utf8.encode o).length ≤ openingLength ∧ (10 : UInt8) ∉ Utf8.encode o := by
  have hall : ∀ side, ∀ o ∈ openings side,
      (Utf8.encode o).length ≤ openingLength ∧ (10 : UInt8) ∉ Utf8.encode o := by
    intro side
    cases side <;> decide
  exact hall side o h

theorem looksLikeStart_nil : looksLikeStart side [] = false := by cases side <;> decide

theorem looksLikeStart_append (h : looksLikeStart side data = true) (more : Bytes) :
    looksLikeStart side (data ++ more) = true := by
  obtain ⟨o, ho, hp⟩ := looksLikeStart_iff_exists.mp h
  exact looksLikeStart_iff_exists.mpr ⟨o, ho, hp.trans (List.prefix_append _ _)⟩

/-- **Eight bytes are enough to tell a start.** -/
theorem looksLikeStart_append_iff (h : openingLength ≤ data.length) (more : Bytes) :
    looksLikeStart side (data ++ more) = true ↔ looksLikeStart side data = true := by
  refine ⟨fun hs => ?_, fun hs => looksLikeStart_append hs more⟩
  obtain ⟨o, ho, hp⟩ := looksLikeStart_iff_exists.mp hs
  have hfits := Nat.le_trans (openings_short ho).1 h
  exact looksLikeStart_iff_exists.mpr ⟨o, ho, (Seq.prefix_append_iff hfits more).mp hp⟩

/-- **A start lies in front of the next line feed.** -/
theorem looksLikeStart_of_line {front more : Bytes}
    (h : looksLikeStart side (front ++ 10 :: more) = true) : looksLikeStart side front = true := by
  obtain ⟨o, ho, hp⟩ := looksLikeStart_iff_exists.mp h
  refine looksLikeStart_iff_exists.mpr ⟨o, ho, ?_⟩
  rcases Nat.lt_or_ge front.length (Utf8.encode o).length with hlt | hle
  · -- the line feed would be in the opening
    exfalso
    obtain ⟨rest, hrest⟩ := hp
    have hfeed : (Utf8.encode o ++ rest)[front.length]? = some 10 := by
      rw [hrest, List.getElem?_append_right (Nat.le_refl _), Nat.sub_self]
      rfl
    rw [List.getElem?_append_left hlt] at hfeed
    exact (openings_short ho).2 (List.mem_of_getElem? hfeed)
  · exact (Seq.prefix_append_iff hle _).mp hp

/-! ## 2. The first start -/

/-- A line begins at the place, the first one or behind a line feed, and it looks like the start of a
    message. -/
def StartsAt (side : Side) (data : Bytes) (i : Nat) : Prop :=
  (i = 0 ∨ data[i - 1]? = some 10) ∧ looksLikeStart side (data.drop i) = true

instance (side : Side) (data : Bytes) (i : Nat) : Decidable (StartsAt side data i) :=
  inferInstanceAs (Decidable (_ ∧ _))

theorem StartsAt.lt (h : StartsAt side data i) : i < data.length := by
  refine Nat.lt_of_not_le fun hle => ?_
  have hstart := h.2
  rw [List.drop_eq_nil_of_le hle, looksLikeStart_nil] at hstart
  cases hstart

theorem findLineStart?_eq_none_iff :
    findLineStart? side data = none ↔ ∀ j, ¬ StartsAt side data (j + 1) := by
  induction data with
  | nil => exact iff_of_true rfl fun j h => Nat.not_lt_zero _ h.lt
  | cons b rest ih =>
    simp only [findLineStart?]
    split
    · next hfirst =>
      refine iff_of_false (Option.some_ne_none 1) fun h => h 0 ⟨.inr ?_, hfirst.2⟩
      simp [hfirst.1]
    · next hfirst =>
      rw [Option.map_eq_none_iff, ih]
      constructor
      · intro h j hj
        cases j with
        | zero => exact hfirst ⟨by simpa using hj.1, hj.2⟩
        | succ j => exact h j ⟨.inr (by simpa using hj.1), hj.2⟩
      · intro h j hj
        exact h (j + 1) ⟨.inr (by simpa using hj.1), hj.2⟩

theorem findLineStart?_eq_some (h : findLineStart? side data = some i) :
    0 < i ∧ StartsAt side data i ∧ ∀ j, j + 1 < i → ¬ StartsAt side data (j + 1) := by
  induction data generalizing i with
  | nil => cases h
  | cons b rest ih =>
    simp only [findLineStart?] at h
    split at h
    · next hfirst =>
      cases h
      exact ⟨Nat.one_pos, ⟨.inr (by simp [hfirst.1]), hfirst.2⟩, fun j hj => by omega⟩
    · next hfirst =>
      obtain ⟨k, hk, rfl⟩ := Option.map_eq_some_iff.mp h
      obtain ⟨hpos, hat, hbefore⟩ := ih hk
      obtain ⟨k, rfl⟩ : ∃ n, k = n + 1 := ⟨k - 1, by omega⟩
      refine ⟨Nat.succ_pos _, ⟨.inr (by simpa using hat.1), hat.2⟩, fun j hj hstarts => ?_⟩
      cases j with
      | zero => exact hfirst ⟨by simpa using hstarts.1, hstarts.2⟩
      | succ j => exact hbefore j (by omega) ⟨.inr (by simpa using hstarts.1), hstarts.2⟩

/-- **Nothing is found where no line starts like a message.** -/
theorem findStart?_eq_none_iff : findStart? side data = none ↔ ∀ i, ¬ StartsAt side data i := by
  unfold findStart?
  split
  · next hfirst => exact iff_of_false (Option.some_ne_none 0) fun h => h 0 ⟨.inl rfl, hfirst⟩
  · next hfirst =>
    rw [findLineStart?_eq_none_iff]
    refine ⟨fun h i hi => ?_, fun h j => h (j + 1)⟩
    cases i with
    | zero => exact hfirst hi.2
    | succ j => exact h j hi

/-- **The place found is the first line that starts like a message.** -/
theorem findStart?_eq_some_iff :
    findStart? side data = some i ↔ StartsAt side data i ∧ ∀ j < i, ¬ StartsAt side data j := by
  have hfound : ∀ {i}, findStart? side data = some i →
      StartsAt side data i ∧ ∀ j < i, ¬ StartsAt side data j := by
    intro i h
    unfold findStart? at h
    split at h
    · next hfirst =>
      cases h
      exact ⟨⟨.inl rfl, hfirst⟩, nofun⟩
    · next hfirst =>
      obtain ⟨-, hat, hbefore⟩ := findLineStart?_eq_some h
      refine ⟨hat, fun j hj hstarts => ?_⟩
      cases j with
      | zero => exact hfirst hstarts.2
      | succ j => exact hbefore j hj hstarts
  refine ⟨hfound, fun ⟨hat, hbefore⟩ => ?_⟩
  cases h : findStart? side data with
  | none => exact absurd hat (findStart?_eq_none_iff.mp h i)
  | some k =>
    obtain ⟨hk, hbefore'⟩ := hfound h
    rcases Nat.lt_trichotomy i k with hlt | rfl | hlt
    · exact absurd hat (hbefore' i hlt)
    · rfl
    · exact absurd hk (hbefore k hlt)

/-! ## 3. More bytes behind -/

theorem StartsAt.append (h : StartsAt side data i) (more : Bytes) :
    StartsAt side (data ++ more) i := by
  have hlt := h.lt
  refine ⟨h.1.imp_right fun hline => ?_, ?_⟩
  · rw [List.getElem?_append_left (by omega)]
    exact hline
  · rw [List.drop_append_of_le_length (Nat.le_of_lt hlt)]
    exact looksLikeStart_append h.2 more

theorem StartsAt.line_of_append {more : Bytes} (h : StartsAt side (data ++ more) i)
    (hle : i ≤ data.length) : i = 0 ∨ data[i - 1]? = some 10 := by
  cases i with
  | zero => exact .inl rfl
  | succ i =>
    have hline := h.1
    rw [List.getElem?_append_left (by omega)] at hline
    exact hline

/-- A start with eight bytes behind it does not depend on what comes behind them. -/
theorem StartsAt.of_append {more : Bytes} (h : StartsAt side (data ++ more) i)
    (hroom : i + openingLength ≤ data.length) : StartsAt side data i := by
  have hle : i ≤ data.length := Nat.le_trans (Nat.le_add_right _ _) hroom
  have hstart := h.2
  rw [List.drop_append_of_le_length hle] at hstart
  refine ⟨h.line_of_append hle, ?_⟩
  exact (looksLikeStart_append_iff (by rw [List.length_drop]; omega) more).mp hstart

/-- A start in a line that ends does not depend on what comes behind the line. -/
theorem StartsAt.of_append_line {more : Bytes} {j : Nat} (h : StartsAt side (data ++ more) i)
    (hij : i ≤ j) (hfeed : data[j]? = some 10) : StartsAt side data i := by
  obtain ⟨hj, hat⟩ := List.getElem?_eq_some_iff.mp hfeed
  have hrest : data.drop i = (data.drop i).take (j - i) ++ 10 :: data.drop (j + 1) := by
    have hcut := (List.take_append_drop (j - i) (data.drop i)).symm
    rw [List.drop_drop, Nat.add_sub_cancel' hij, List.drop_eq_getElem_cons hj, hat] at hcut
    exact hcut
  have hstart := h.2
  rw [List.drop_append_of_le_length (by omega), hrest, List.append_assoc, List.cons_append] at hstart
  refine ⟨h.line_of_append (by omega), ?_⟩
  rw [hrest]
  exact looksLikeStart_append (looksLikeStart_of_line hstart) _

/-- **What is found is found whatever comes behind.** -/
theorem findStart?_append (h : findStart? side data = some i) (more : Bytes) :
    findStart? side (data ++ more) = some i := by
  obtain ⟨hat, hbefore⟩ := findStart?_eq_some_iff.mp h
  refine findStart?_eq_some_iff.mpr ⟨hat.append more, fun j hj hstarts => hbefore j hj ?_⟩
  -- an earlier start lies in an earlier line, which ends in front of the one found
  have hfeed := hat.1.resolve_left (Nat.ne_of_gt (Nat.lt_of_le_of_lt (Nat.zero_le j) hj))
  exact hstarts.of_append_line (by omega) hfeed

/-! ## 4. Fewer bytes in front -/

/-- Where a search may go on with what is kept, instead of with all bytes: what is kept starts with a
    line, or is as long as a start can be and does not look like one. -/
def Resumable (side : Side) (front kept : Bytes) : Prop :=
  front = [] ∨ front.getLast? = some 10 ∨
    (kept.length = openingLength ∧ looksLikeStart side kept = false)

/-- Behind their first byte, lines start in the last bytes as they do in all. -/
theorem startsAt_append_succ_iff {front : Bytes} {k : Nat} :
    StartsAt side (front ++ data) (front.length + (k + 1)) ↔ StartsAt side data (k + 1) := by
  have hdrop : (front ++ data).drop (front.length + (k + 1)) = data.drop (k + 1) := by
    rw [← List.drop_drop, List.drop_left]
  have hfeed : (front ++ data)[front.length + (k + 1) - 1]? = data[k + 1 - 1]? := by
    rw [List.getElem?_append_right (by omega)]
    congr 1
    omega
  simp only [StartsAt, hdrop, hfeed, Nat.add_eq_zero_iff, Nat.succ_ne_zero, and_false]

namespace Resumable

variable {front kept : Bytes}

/-- No start lies in front of what is kept, if none did before. -/
theorem le_of_startsAt (h : Resumable side front kept)
    (hnone : findStart? side (front ++ kept) = none) {more : Bytes}
    (hstarts : StartsAt side (front ++ (kept ++ more)) i) : front.length ≤ i := by
  refine Nat.le_of_not_lt fun hlt => findStart?_eq_none_iff.mp hnone i ?_
  rw [← List.append_assoc] at hstarts
  rcases h with rfl | hfeed | ⟨hlong, -⟩
  · exact absurd hlt (Nat.not_lt_zero i)
  · rw [List.getLast?_eq_getElem?] at hfeed
    refine hstarts.of_append_line (j := front.length - 1) (by omega) ?_
    rw [List.getElem?_append_left (by omega)]
    exact hfeed
  · refine hstarts.of_append ?_
    rw [List.length_append]
    omega

/-- What is kept starts like a message as a line of all bytes, or not at all. -/
theorem startsAt_zero_iff (h : Resumable side front kept) (more : Bytes) :
    StartsAt side (front ++ (kept ++ more)) front.length ↔ StartsAt side (kept ++ more) 0 := by
  simp only [StartsAt, List.drop_left, List.drop_zero, true_or, true_and, and_iff_right_iff_imp]
  intro hstart
  rcases h with rfl | hfeed | ⟨hlong, hplain⟩
  · exact .inl rfl
  · right
    have hpos : 0 < front.length := by
      refine List.length_pos_iff.mpr ?_
      rintro rfl
      cases hfeed
    rw [List.getElem?_append_left (by omega)]
    rwa [List.getLast?_eq_getElem?] at hfeed
  · -- eight bytes that do not look like a start do not become one
    rw [looksLikeStart_append_iff (Nat.le_of_eq hlong.symm), hplain] at hstart
    cases hstart

/-- **The lines that start like a message are those in the bytes kept**, if none did before. -/
theorem startsAt_iff (h : Resumable side front kept)
    (hnone : findStart? side (front ++ kept) = none) (more : Bytes) :
    StartsAt side (front ++ (kept ++ more)) i ↔
      ∃ k, i = front.length + k ∧ StartsAt side (kept ++ more) k := by
  have hshift : ∀ k, StartsAt side (front ++ (kept ++ more)) (front.length + k) ↔
      StartsAt side (kept ++ more) k := by
    intro k
    cases k with
    | zero => exact h.startsAt_zero_iff more
    | succ k => exact startsAt_append_succ_iff
  constructor
  · intro hstarts
    obtain ⟨k, rfl⟩ := Nat.exists_eq_add_of_le (h.le_of_startsAt hnone hstarts)
    exact ⟨k, rfl, (hshift k).mp hstarts⟩
  · rintro ⟨k, rfl, hstarts⟩
    exact (hshift k).mpr hstarts

end Resumable

/-- **A search in the bytes kept finds what a search in all bytes finds.** -/
theorem findStart?_behind {front kept : Bytes} (h : Resumable side front kept)
    (hnone : findStart? side (front ++ kept) = none) (more : Bytes) :
    findStart? side (front ++ (kept ++ more)) =
      (findStart? side (kept ++ more)).map (front.length + ·) := by
  cases hkept : findStart? side (kept ++ more) with
  | none =>
    rw [Option.map_none, findStart?_eq_none_iff]
    intro i hi
    obtain ⟨k, -, hk⟩ := (h.startsAt_iff hnone more).mp hi
    exact findStart?_eq_none_iff.mp hkept k hk
  | some k =>
    obtain ⟨hat, hbefore⟩ := findStart?_eq_some_iff.mp hkept
    rw [Option.map_some, findStart?_eq_some_iff]
    refine ⟨(h.startsAt_iff hnone more).mpr ⟨k, rfl, hat⟩, fun j hj hstarts => ?_⟩
    obtain ⟨m, rfl, hm⟩ := (h.startsAt_iff hnone more).mp hstarts
    exact hbefore m (Nat.lt_of_add_lt_add_left hj) hm

end TrafficGate.Http
