import TrafficGate.Proofs.LineStarts
import TrafficGate.Proofs.ShortBytes
/-!
  # Finding the next response

  Behind a response that was given up and whose end is not known, the bytes are searched for the
  next start. The search ends at the next response if nothing in what is left of the one given up
  looks like a start, what is left ends with a line, and the next response opens as most do. While
  it goes on, the few bytes that are kept complete no message.

  1. how a response opens;
  2. `Resumes` -- what the rest of a response must be for the search to end behind it;
  3. a buffer that searches.

  Main facts: **`Resumes.found`**, **`Resumes.missed`** and **`absorb_resync`**.
-/

namespace TrafficGate

namespace Http

/-! ## 1. How a response opens -/

/-- The opening of a response. -/
def opening : Bytes := Utf8.encode "HTTP/1.".toList

theorem length_opening : opening.length = 7 := by decide

theorem not_mem_opening : (10 : UInt8) ∉ opening := by decide

theorem looksLikeStart_iff {data : Bytes} :
    looksLikeStart .response data = true ↔ opening <+: data := by
  simp only [looksLikeStart_iff_exists, openings, List.mem_singleton, exists_eq_left]
  rfl

/-- What is found looks like a start. -/
theorem prefix_of_findStart? {data : Bytes} {i : Nat} (h : findStart? .response data = some i) :
    opening <+: data.drop i :=
  looksLikeStart_iff.mp (findStart?_eq_some_iff.mp h).1.2

/-- What looks like a start at the start of a line is found, or one before it. -/
theorem findStart?_le_of_start {data : Bytes} {k : Nat} (hline : k = 0 ∨ data[k - 1]? = some 10)
    (hstart : opening <+: data.drop k) : ∃ i ≤ k, findStart? .response data = some i := by
  have hat : StartsAt .response data k := ⟨hline, looksLikeStart_iff.mpr hstart⟩
  cases hfound : findStart? .response data with
  | none => exact absurd hat (findStart?_eq_none_iff.mp hfound k)
  | some i =>
    have hbefore := (findStart?_eq_some_iff.mp hfound).2
    exact ⟨i, Nat.le_of_not_lt fun hlt => hbefore k hlt hat, rfl⟩

/-- An empty line in front of bytes without a line feed ends before them. -/
theorem terminator_end_le {left behind : Bytes} {i : Nat} (hbehind : (10 : UInt8) ∉ behind)
    (h : terminator <+: (left ++ behind).drop i) : i + terminator.length ≤ left.length := by
  obtain ⟨rest, hrest⟩ := h
  refine Nat.le_of_not_lt fun hlt => hbehind ?_
  have hlast : (left ++ behind)[i + 3]? = some 10 := by
    rw [← List.getElem?_drop, ← hrest]
    rfl
  simp only [terminator, List.length_cons, List.length_nil] at hlt
  rw [List.getElem?_append_right (by omega)] at hlast
  exact List.mem_of_getElem? hlast

/-! ## 2. The rest of a response -/

/-- What is left of a response does not look like the start of one anywhere, and ends with a line;
    and what comes `behind` it, if anything does, opens a response. -/
structure Resumes (left behind : Bytes) : Prop where
  clear : ∀ i < left.length, ¬ opening <+: (left ++ behind).drop i
  ends : behind ≠ [] → left ≠ [] → left.getLast? = some 10
  opens : behind ≠ [] → opening <+: behind

namespace Resumes

variable {left behind data rest : Bytes}

/-- It holds of what is left later, too. -/
theorem drop (h : Resumes left behind) (n : Nat) : Resumes (left.drop n) behind := by
  refine ⟨fun i hi hp => ?_, fun hbehind hleft => ?_, h.opens⟩
  · rw [List.length_drop] at hi
    refine h.clear (n + i) (by omega) ?_
    rwa [← List.drop_drop, List.drop_append_of_le_length (by omega)]
  · have hn : ¬ left.length ≤ n := fun hle => hleft (List.drop_eq_nil_of_le hle)
    have hne : left ≠ [] := fun he => hleft (by rw [he, List.drop_nil])
    rw [List.getLast?_drop, if_neg hn]
    exact h.ends hbehind hne

theorem ends_line (h : Resumes left behind) (hdata : data ++ rest = left ++ behind)
    (hbehind : behind ≠ []) (hle : left.length ≤ data.length) :
    left.length = 0 ∨ data[left.length - 1]? = some 10 := by
  by_cases hleft : left = []
  · exact .inl (by rw [hleft]; rfl)
  · right
    have hpos := List.length_pos_iff.mpr hleft
    have hlast := h.ends hbehind hleft
    rw [List.getLast?_eq_getElem?] at hlast
    have hthere : (data ++ rest)[left.length - 1]? = some 10 := by
      rw [hdata, List.getElem?_append_left (by omega)]
      exact hlast
    rwa [List.getElem?_append_left (by omega)] at hthere

theorem opens_data (h : Resumes left behind) (hdata : data ++ rest = left ++ behind)
    (hbehind : behind ≠ []) (hroom : left.length + opening.length ≤ data.length) :
    opening <+: data.drop left.length := by
  have hopens := h.opens hbehind
  have hsplit : behind = (left ++ behind).drop left.length := List.drop_left.symm
  rw [hsplit, ← hdata, List.drop_append_of_le_length (by omega)] at hopens
  exact (Seq.prefix_append_iff (by rw [List.length_drop]; omega) rest).mp hopens

/-- **A start that is found is the one behind.** -/
theorem found (h : Resumes left behind) (hdata : data ++ rest = left ++ behind) {i : Nat}
    (hi : findStart? .response data = some i) : i = left.length ∧ left.length ≤ data.length := by
  have hstart := prefix_of_findStart? hi
  have hroom : i + opening.length ≤ data.length := by
    have hle := hstart.length_le
    have hpos := length_opening
    rw [List.length_drop] at hle
    omega
  have hge : left.length ≤ i := by
    refine Nat.le_of_not_lt fun hlt => h.clear i hlt ?_
    rw [← hdata, List.drop_append_of_le_length (by omega)]
    exact hstart.trans (List.prefix_append _ _)
  refine ⟨?_, by omega⟩
  -- a later start would leave the one behind unnoticed
  refine Nat.le_antisymm (Nat.le_of_not_lt fun hlt => ?_) hge
  have hbehind : behind ≠ [] := by
    intro he
    have hlength := congrArg List.length hdata
    rw [he, List.append_nil, List.length_append] at hlength
    omega
  obtain ⟨j, hj, hfound⟩ := findStart?_le_of_start (h.ends_line hdata hbehind (by omega))
    (h.opens_data hdata hbehind (by omega))
  rw [hi] at hfound
  cases hfound
  omega

/-- **Without a start the one behind is not there yet.** -/
theorem missed (h : Resumes left behind) (hdata : data ++ rest = left ++ behind)
    (hnone : findStart? .response data = none) : data.length < left.length + opening.length := by
  refine Nat.lt_of_not_le fun hroom => ?_
  by_cases hbehind : behind = []
  · have hlength := congrArg List.length hdata
    have hpos := length_opening
    rw [hbehind, List.append_nil, List.length_append] at hlength
    omega
  · obtain ⟨j, _, hfound⟩ := findStart?_le_of_start
      (h.ends_line hdata hbehind (Nat.le_trans (Nat.le_add_right _ _) hroom))
      (h.opens_data hdata hbehind hroom)
    rw [hnone] at hfound
    cases hfound

/-- What is there of the next response has no line feed, while its opening is not complete. -/
theorem not_mem_behind (h : Resumes left behind) (hdata : data ++ rest = left ++ behind)
    (hshort : data.length < left.length + opening.length) :
    (10 : UInt8) ∉ data.drop left.length := by
  intro hmem
  refine not_mem_opening ?_
  by_cases hle : data.length ≤ left.length
  · rw [List.drop_eq_nil_of_le hle] at hmem
    cases hmem
  · have hsplit : data.drop left.length ++ rest = behind := by
      rw [← List.drop_append_of_le_length (by omega), hdata, List.drop_left]
    have hbehind : behind ≠ [] := by
      intro he
      rw [he, List.append_eq_nil_iff] at hsplit
      rw [hsplit.1] at hmem
      cases hmem
    have hprefix : data.drop left.length <+: opening := by
      refine List.prefix_of_prefix_length_le (hsplit ▸ List.prefix_append _ rest)
        (h.opens hbehind) ?_
      rw [List.length_drop]
      omega
    exact hprefix.subset hmem

end Resumes

end Http

/-! ## 3. A buffer that searches -/

namespace Stream

open Http

/-- Carving few bytes takes none that belong to the next response. -/
theorem Accumulator.carveAll_short_behind {a : Accumulator} (ha : a.Searched)
    {left behind : Bytes} (hu : a.unparsed = left ++ behind)
    (hlen : a.unparsed.length ≤ openingLength) (hbehind : (10 : UInt8) ∉ behind)
    (answersHead : Nat → Bool) :
    ∃ n ≤ left.length, (a.carveAll .response answersHead).2.unparsed = a.unparsed.drop n ∧
      Buffer.reported (a.carveAll .response answersHead).1 = [] := by
  obtain ⟨n, hn, hafter, hend, _, hnothing⟩ := carveAll_short ha hlen .response answersHead
  refine ⟨n, ?_, hafter, hnothing⟩
  rcases hend with rfl | ⟨front, hfront⟩
  · exact Nat.zero_le _
  · have hlength := congrArg List.length hfront
    rw [List.length_append, List.length_take, Nat.min_eq_left hn] at hlength
    have hat : terminator <+: (left ++ behind).drop front.length := by
      have hsplit := List.take_append_drop n a.unparsed
      rw [← hfront, List.append_assoc] at hsplit
      have hdrop := congrArg (List.drop front.length) hsplit
      rw [List.drop_left] at hdrop
      rw [← hu, ← hdrop]
      exact List.prefix_append _ _
    have hle := terminator_end_le hbehind hat
    omega

/-- **A search ends at the next response, or goes on** with few bytes, none of which is lost to the
    next response. -/
theorem Buffer.absorb_resync {b : Buffer} (ha : b.acc.Searched) (hr : b.recovery = .resync)
    {bs rest left behind : Bytes} (h : Resumes left behind)
    (hu : (b.acc.append bs).unparsed ++ rest = left ++ behind) (answersHead : Nat → Bool) :
    (∃ a : Accumulator, a.Searched ∧ a.unparsed ++ rest = behind ∧
      absorb .response answersHead bs b =
        ((a.carveAll .response answersHead).1,
          { acc := (a.carveAll .response answersHead).2, recovery := .none })) ∨
      ∃ n, reported (absorb .response answersHead bs b).1 = [] ∧
        (absorb .response answersHead bs b).2.recovery = .resync ∧
        (absorb .response answersHead bs b).2.acc.unparsed ++ rest = left.drop n ++ behind ∧
        (absorb .response answersHead bs b).2.acc.unparsed.length <
          (left.drop n).length + opening.length ∧
        (absorb .response answersHead bs b).2.acc.unparsed.length ≤ openingLength := by
  have hsearched : (b.acc.append bs).Searched := Accumulator.Searched.append ha bs
  obtain ⟨acc, recovery⟩ := b
  obtain rfl : recovery = .resync := hr
  simp only [absorb, recover]
  generalize acc.append bs = a at *
  cases hfound : findStart? .response a.unparsed with
  | some start =>
    left
    obtain ⟨rfl, hle⟩ := h.found hu hfound
    refine ⟨(a.skip left.length).compact, (hsearched.skip _).compact, ?_, rfl⟩
    rw [Accumulator.unparsed_compact, Accumulator.unparsed_skip,
      ← List.drop_append_of_le_length hle, hu, List.drop_left]
  | none =>
    right
    have hshort := h.missed hu hfound
    have hopening := length_opening
    simp only []
    generalize hd : a.unparsed.length - min a.unparsed.length openingLength = d
    have hd' : d ≤ left.length ∧ d ≤ a.unparsed.length := by
      rw [openingLength] at hd
      omega
    -- the bytes that are kept, and the rest of the response given up
    have hkept : (a.skip d).unparsed ++ rest = left.drop d ++ behind := by
      rw [Accumulator.unparsed_skip, ← List.drop_append_of_le_length hd'.2, hu,
        List.drop_append_of_le_length hd'.1]
    have hlength : (a.skip d).unparsed.length ≤ openingLength := by
      rw [Accumulator.unparsed_skip, List.length_drop, openingLength] at *
      omega
    have hshort' : (a.skip d).unparsed.length < (left.drop d).length + opening.length := by
      rw [Accumulator.unparsed_skip, List.length_drop, List.length_drop]
      omega
    have hnext := (h.drop d).not_mem_behind hkept hshort'
    have hacc : (a.skip d).compact.Searched := (hsearched.skip d).compact
    obtain ⟨n, hn, hafter, hnone⟩ := Accumulator.carveAll_short_behind hacc
      (List.take_append_drop (left.drop d).length (a.skip d).unparsed).symm hlength hnext
      answersHead
    rw [List.length_take] at hn
    rw [Accumulator.unparsed_compact] at hafter
    refine ⟨d + n, hnone, trivial, ?_, ?_, ?_⟩
    · rw [hafter, ← List.drop_append_of_le_length (by omega), hkept,
        List.drop_append_of_le_length (by omega), List.drop_drop]
    · rw [hafter, List.length_drop, ← List.drop_drop, List.length_drop (l := left.drop d)]
      omega
    · rw [hafter, List.length_drop]
      omega

end Stream

end TrafficGate
