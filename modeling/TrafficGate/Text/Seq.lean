/-!
  # Cutting lists at a pattern

  The searches the library needs, over lists of anything with decidable equality: bytes when a
  stream is framed, characters when a head or a URL is taken apart.

  1. `indexOf?` -- where a pattern starts first;
  2. `cut?` -- the parts before and after the first occurrence;
  3. `pieces` -- all parts between occurrences, and `cutLast?` at the last one;
  4. `chunks` -- pieces of a given length;
  5. the longest front of elements of a kind;
  6. `total` -- the sum of numbers, such as the lengths of parts.

  Main facts: **`cut?_eq_some`** (the two parts and the pattern give the list back),
  **`pieces_length_pos`** (there is always at least one part) and **`flatten_chunks`** (the pieces
  give the list back).
-/

namespace TrafficGate.Seq

variable {α : Type} [DecidableEq α]

/-! ## 1. The first occurrence -/

/-- The index at which `pat` starts first in the list. -/
def indexOf? (pat : List α) : List α → Option Nat
  | [] => if pat.isEmpty then some 0 else none
  | x :: xs =>
    if pat.isPrefixOf (x :: xs) then some 0 else (indexOf? pat xs).map (· + 1)

/-- A found index leaves room for the pattern. -/
theorem indexOf?_add_le {pat l : List α} {i : Nat} (h : indexOf? pat l = some i) :
    i + pat.length ≤ l.length := by
  induction l generalizing i with
  | nil =>
    simp only [indexOf?] at h
    split at h
    · next hp => cases h; simp [List.isEmpty_iff.mp hp]
    · cases h
  | cons x xs ih =>
    simp only [indexOf?] at h
    split at h
    · next hp =>
      cases h
      have := (List.isPrefixOf_iff_prefix.mp hp).length_le
      simpa using this
    · obtain ⟨j, hj, rfl⟩ := Option.map_eq_some_iff.mp h
      have := ih hj
      simp only [List.length_cons]
      omega

/-- What stands at a found index is the pattern. -/
theorem isPrefixOf_drop_of_indexOf? {pat l : List α} {i : Nat} (h : indexOf? pat l = some i) :
    pat.isPrefixOf (l.drop i) = true := by
  induction l generalizing i with
  | nil =>
    simp only [indexOf?] at h
    split at h
    · next hp => cases h; simp [List.isEmpty_iff.mp hp]
    · cases h
  | cons x xs ih =>
    simp only [indexOf?] at h
    split at h
    · next hp => cases h; simpa using hp
    · obtain ⟨j, hj, rfl⟩ := Option.map_eq_some_iff.mp h
      simpa using ih hj

/-! ## 2. One cut -/

/-- The parts before and after the first occurrence of `pat`. -/
def cut? (pat l : List α) : Option (List α × List α) :=
  (indexOf? pat l).map fun i => (l.take i, l.drop (i + pat.length))

/-- **The two parts and the pattern between them are the list.** -/
theorem cut?_eq_some {pat l before after : List α} (h : cut? pat l = some (before, after)) :
    l = before ++ pat ++ after := by
  obtain ⟨i, hi, he⟩ := Option.map_eq_some_iff.mp h
  obtain ⟨rfl, rfl⟩ := Prod.mk.inj he
  obtain ⟨t, ht⟩ := List.isPrefixOf_iff_prefix.mp (isPrefixOf_drop_of_indexOf? hi)
  have hd : l.drop (i + pat.length) = t := by
    rw [← List.drop_drop, ← ht]
    simp
  rw [hd, List.append_assoc, ht, List.take_append_drop]

/-- The part after a cut is shorter when the pattern is not empty. -/
theorem length_lt_of_cut? {pat l before after : List α} (hp : pat ≠ [])
    (h : cut? pat l = some (before, after)) : after.length < l.length := by
  have := congrArg List.length (cut?_eq_some h)
  have := List.length_pos_iff.mpr hp
  simp only [List.length_append] at *
  omega

/-- The parts before and after the last occurrence of the element `x`. -/
def cutLast? (x : α) : List α → Option (List α × List α)
  | [] => none
  | y :: ys =>
    match cutLast? x ys with
    | some (before, after) => some (y :: before, after)
    | none => if y = x then some ([], ys) else none

/-! ## 3. All cuts -/

/-- The parts between the occurrences of `pat`, searched from the left. An empty pattern cuts
    nothing. -/
def pieces (pat l : List α) : List (List α) :=
  if _hp : pat = [] then [l]
  else
    match _h : cut? pat l with
    | none => [l]
    | some (before, after) => before :: pieces pat after
termination_by l.length
decreasing_by exact length_lt_of_cut? _hp _h

theorem pieces_length_pos (pat l : List α) : 0 < (pieces pat l).length := by
  unfold pieces
  split
  · simp
  · split <;> simp

/-- The list in pieces of `n` elements, the last of which may be shorter. Pieces of none count as
    pieces of one. -/
def chunks (n : Nat) (l : List α) : List (List α) :=
  if _h : l = [] then [] else l.take (max n 1) :: chunks n (l.drop (max n 1))
termination_by l.length
decreasing_by
  have := List.length_pos_iff.mpr _h
  simp only [List.length_drop]
  omega

omit [DecidableEq α] in
/-- **The pieces give the list back.** -/
theorem flatten_chunks (n : Nat) (l : List α) : (chunks n l).flatten = l := by
  fun_induction chunks n l with
  | case1 => rfl
  | case2 l _ ih => simp [ih]

/-- The list without the leading `pat`, if it starts with it. -/
def stripStart? (pat l : List α) : Option (List α) :=
  if pat.isPrefixOf l then some (l.drop pat.length) else none

theorem stripStart?_eq_some_iff {pat l rest : List α} :
    stripStart? pat l = some rest ↔ l = pat ++ rest := by
  unfold stripStart?
  constructor
  · intro h
    split at h
    · next hp =>
      obtain ⟨behind, rfl⟩ := List.isPrefixOf_iff_prefix.mp hp
      rw [List.drop_left] at h
      rw [Option.some.inj h]
    · cases h
  · rintro rfl
    rw [if_pos (List.isPrefixOf_iff_prefix.mpr (List.prefix_append ..)), List.drop_left]

/-- The list without the trailing `pat`, if it ends with it. -/
def stripEnd? (pat l : List α) : Option (List α) :=
  if pat.isSuffixOf l then some (l.take (l.length - pat.length)) else none

theorem stripEnd?_eq_some_iff {pat l front : List α} :
    stripEnd? pat l = some front ↔ l = front ++ pat := by
  unfold stripEnd?
  constructor
  · intro h
    split at h
    · next hp =>
      obtain ⟨start, rfl⟩ := List.isSuffixOf_iff_suffix.mp hp
      rw [List.length_append, Nat.add_sub_cancel, List.take_left] at h
      rw [Option.some.inj h]
    · cases h
  · rintro rfl
    rw [if_pos (List.isSuffixOf_iff_suffix.mpr (List.suffix_append ..)), List.length_append,
      Nat.add_sub_cancel, List.take_left]

/-! ## 5. Fronts -/

section Fronts

omit [DecidableEq α]

variable {p : α → Bool} {front behind : List α}

/-- **The longest front of such elements** is the part of them that another one comes behind. -/
theorem takeWhile_append_of_head (hfront : ∀ x ∈ front, p x = true)
    (hbehind : ∀ x ∈ behind.head?, p x = false) : (front ++ behind).takeWhile p = front := by
  rw [List.takeWhile_append_of_pos hfront]
  cases behind with
  | nil => exact List.append_nil front
  | cons x behind =>
    rw [List.takeWhile_cons, hbehind x rfl, if_neg Bool.false_ne_true, List.append_nil]

theorem dropWhile_append_of_head (hfront : ∀ x ∈ front, p x = true)
    (hbehind : ∀ x ∈ behind.head?, p x = false) : (front ++ behind).dropWhile p = behind := by
  have hwhole := List.takeWhile_append_dropWhile (p := p) (l := front ++ behind)
  rw [takeWhile_append_of_head hfront hbehind] at hwhole
  exact List.append_cancel_left hwhole

end Fronts

/-! ## 6. Sums -/

/-- The sum of the numbers. -/
def total : List Nat → Nat
  | [] => 0
  | n :: rest => n + total rest

@[simp] theorem total_nil : total [] = 0 := rfl

@[simp] theorem total_cons (n : Nat) (l : List Nat) : total (n :: l) = n + total l := rfl

end TrafficGate.Seq
