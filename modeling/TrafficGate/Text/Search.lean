import TrafficGate.Text.Ascii
/-!
  # Searching a text

  Whether a text occurs in another, and where, in time that grows with both lengths added, not
  multiplied. Each place of the text searched has a weight that is had from the weight of the place
  before; only where it is the weight of the pattern are the characters compared.

  1. `weight` and `power` -- texts as digits of a number of 64 bits, and how the digits move up;
  2. `roll` -- the weight of the next place;
  3. `search` and `occurs` -- the search;
  4. `seek` and `place?` -- the search for the first place.

  Main facts: **`occurs_iff`** (the search finds what is there, and nothing else) and
  **`place?_eq_indexOf?`** (the place found is the first one).
-/

namespace TrafficGate.Search

/-! ## 1. Weights -/

/-- The base of the weights. -/
def base : UInt64 := 1099511628211

/-- The weight of one character. -/
def digit (c : Char) : UInt64 := c.val.toUInt64

/-- The weight of the text of weight `h` and a character behind it. -/
def push (h : UInt64) (c : Char) : UInt64 := h * base + digit c

/-- The weight of a text. -/
def weight (t : Text) : UInt64 := t.foldl push 0

/-- How much a weight grows by as many characters behind it as the text has. -/
def power (t : Text) : UInt64 := t.foldl (fun p _ => p * base) 1

theorem foldl_power (p : UInt64) (t : Text) :
    t.foldl (fun p _ => p * base) p = p * power t := by
  induction t generalizing p with
  | nil => simp [power]
  | cons c t ih =>
    simp only [power, List.foldl_cons]
    rw [ih (p * base), ih (1 * base)]
    grind

theorem power_cons (c : Char) (t : Text) : power (c :: t) = power t * base := by
  simp only [power, List.foldl_cons]
  rw [foldl_power (1 * base) t]
  simp only [power]
  grind

/-- Texts of one length move weights alike. -/
theorem power_of_length {a b : Text} (h : a.length = b.length) : power a = power b := by
  induction a generalizing b with
  | nil =>
    cases b with
    | nil => rfl
    | cons => simp at h
  | cons x a ih =>
    cases b with
    | nil => simp at h
    | cons y b => rw [power_cons, power_cons, ih (by simpa using h)]

/-- The weight of a text behind one of weight `h`. -/
theorem foldl_push (h : UInt64) (t : Text) : t.foldl push h = h * power t + weight t := by
  induction t generalizing h with
  | nil => simp [weight, power]
  | cons c t ih =>
    rw [power_cons]
    simp only [weight, List.foldl_cons]
    rw [ih (push h c), ih (push 0 c)]
    simp only [push]
    grind

theorem weight_cons (c : Char) (t : Text) : weight (c :: t) = digit c * power t + weight t := by
  simp only [weight, List.foldl_cons]
  rw [foldl_push]
  simp only [push, weight]
  grind

theorem weight_concat (t : Text) (c : Char) : weight (t ++ [c]) = weight t * base + digit c := by
  simp [weight, push]

/-! ## 2. The next place -/

/-- The weight of a place from that of the place before: `x` leaves in front, `z` comes behind. -/
def roll (power h : UInt64) (x z : Char) : UInt64 := h * base + digit z - digit x * power

/-- **Rolling gives the weight of the next place**, for a pattern of `n` characters. -/
theorem roll_weight {pat t ahead : Text} {x z : Char}
    (h : (x :: t).drop pat.length = z :: ahead) :
    roll (power pat) (weight ((x :: t).take pat.length)) x z = weight (t.take pat.length) ∧
      t.drop pat.length = ahead := by
  cases pat with
  | nil =>
    simp only [List.length_nil, List.drop_zero, List.cons.injEq] at h
    obtain ⟨rfl, rfl⟩ := h
    refine ⟨?_, rfl⟩
    simp only [roll, List.length_nil, List.take_zero, weight, power, List.foldl_nil]
    grind
  | cons p pat =>
    simp only [List.length_cons, List.drop_succ_cons] at h
    have hlen : (t.take pat.length).length = pat.length := by
      have := congrArg List.length h
      simp only [List.length_drop, List.length_cons] at this
      simp only [List.length_take]
      omega
    have hz : t.take (pat.length + 1) = t.take pat.length ++ [z] := by
      rw [List.take_add, h]
      rfl
    refine ⟨?_, ?_⟩
    · rw [List.length_cons, List.take_succ_cons, hz, weight_concat, weight_cons, power_cons,
        power_of_length hlen]
      simp only [roll]
      grind
    · rw [List.length_cons, ← List.drop_drop, h]
      rfl

/-! ## 3. The search -/

/-- Whether the pattern starts at this place, whose weight is `h`. -/
def startsAt (pat : Text) (target h : UInt64) (place : Text) : Bool :=
  h == target && pat.isPrefixOf place

/-- Whether the pattern starts at a place or behind it; `ahead` is what stands behind the characters
    that have the weight `h`. -/
def search (pat : Text) (target power h : UInt64) : Text → Text → Bool
  | x :: place, z :: ahead =>
    startsAt pat target h (x :: place) ||
      search pat target power (roll power h x z) place ahead
  | place, _ => startsAt pat target h place

/-- Whether the pattern occurs anywhere in the text. -/
def occurs (pat t : Text) : Bool :=
  search pat (weight pat) (power pat) (weight (t.take pat.length)) t (t.drop pat.length)

/-- Weights never hide a start. -/
theorem startsAt_iff (pat place : Text) :
    startsAt pat (weight pat) (weight (place.take pat.length)) place = true ↔ pat <+: place := by
  simp only [startsAt, Bool.and_eq_true, beq_iff_eq, List.isPrefixOf_iff_prefix]
  refine ⟨fun h => h.2, fun h => ⟨?_, h⟩⟩
  rw [← List.prefix_iff_eq_take.mp h]

theorem search_iff (pat ahead place : Text) (h : place.drop pat.length = ahead) :
    search pat (weight pat) (power pat) (weight (place.take pat.length)) place ahead = true ↔
      pat <:+: place := by
  induction ahead generalizing place with
  | nil =>
    have hs : search pat (weight pat) (power pat) (weight (place.take pat.length)) place [] =
        startsAt pat (weight pat) (weight (place.take pat.length)) place := by
      cases place <;> rfl
    rw [hs, startsAt_iff]
    refine ⟨fun hp => hp.isInfix, fun hi => ?_⟩
    have hl : place.length ≤ pat.length := List.drop_eq_nil_iff.mp h
    have he := hi.eq_of_length (Nat.le_antisymm hi.length_le hl)
    subst he
    exact List.prefix_rfl
  | cons z ahead ih =>
    cases place with
    | nil => simp at h
    | cons x place =>
      obtain ⟨hr, hd⟩ := roll_weight h
      simp only [search, Bool.or_eq_true, startsAt_iff, hr, ih place hd, List.infix_cons_iff]

/-- **The search finds what is there, and nothing else.** -/
theorem occurs_iff (pat t : Text) : occurs pat t = true ↔ pat <:+: t :=
  search_iff pat (t.drop pat.length) t rfl

/-! ## 4. The first place -/

/-- The first place at which the pattern starts; `n` characters are in front of this one. -/
def seek (pat : Text) (target power h : UInt64) (n : Nat) : Text → Text → Option Nat
  | x :: place, z :: ahead =>
    if startsAt pat target h (x :: place) then some n
    else seek pat target power (roll power h x z) (n + 1) place ahead
  | place, _ => if startsAt pat target h place then some n else none

/-- How many characters are in front of the first place at which the pattern occurs. -/
def place? (pat t : Text) : Option Nat :=
  seek pat (weight pat) (power pat) (weight (t.take pat.length)) 0 t (t.drop pat.length)

/-- A pattern that fills the text occurs at its start or nowhere. -/
theorem indexOf?_of_length_le {pat t : Text} (h : t.length ≤ pat.length) :
    Seq.indexOf? pat t = if pat.isPrefixOf t then some 0 else none := by
  split
  · next hp =>
    cases t with
    | nil => simpa [Seq.indexOf?] using hp
    | cons x t => rw [Seq.indexOf?, if_pos hp]
  · next hp =>
    rw [Option.eq_none_iff_forall_ne_some]
    intro i hi
    have hroom := Seq.indexOf?_add_le hi
    obtain rfl : i = 0 := by omega
    exact hp (Seq.isPrefixOf_drop_of_indexOf? hi)

theorem startsAt_eq_isPrefixOf (pat place : Text) :
    startsAt pat (weight pat) (weight (place.take pat.length)) place = pat.isPrefixOf place := by
  rw [Bool.eq_iff_iff, startsAt_iff, List.isPrefixOf_iff_prefix]

theorem seek_eq (pat ahead place : Text) (n : Nat) (h : place.drop pat.length = ahead) :
    seek pat (weight pat) (power pat) (weight (place.take pat.length)) n place ahead =
      (Seq.indexOf? pat place).map (n + ·) := by
  induction ahead generalizing place n with
  | nil =>
    have hs : seek pat (weight pat) (power pat) (weight (place.take pat.length)) n place [] =
        if startsAt pat (weight pat) (weight (place.take pat.length)) place then some n
        else none := by
      cases place <;> rfl
    rw [hs, startsAt_eq_isPrefixOf, indexOf?_of_length_le (List.drop_eq_nil_iff.mp h)]
    split <;> rfl
  | cons z ahead ih =>
    cases place with
    | nil => simp at h
    | cons x place =>
      obtain ⟨hr, hd⟩ := roll_weight h
      rw [seek, startsAt_eq_isPrefixOf, Seq.indexOf?]
      split
      · rfl
      · rw [hr, ih place (n + 1) hd, Option.map_map]
        congr 1
        funext i
        simp only [Function.comp]
        omega

/-- **The place found is the first one.** -/
theorem place?_eq_indexOf? (pat t : Text) : place? pat t = Seq.indexOf? pat t := by
  rw [place?, seek_eq pat _ t 0 rfl]
  simp

end TrafficGate.Search
