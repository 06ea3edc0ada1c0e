import TrafficGate.Proofs.FirstOccurrence
/-!
  # Lists joined at a pattern

  Parts with a pattern between them, and the search for it. When the first element of the pattern
  stands in no part, the search finds each place at which two parts were joined, and no other.

  1. `joined`;
  2. searches behind a part;
  3. cutting what was joined;
  4. lines joined at CRLF, and the empty line behind them.

  Main facts: **`cut?_of_not_mem`**, **`joined_of_pieces`**, **`pieces_joined`** and
  **`findTerminator?_joined`**.
-/

namespace TrafficGate

namespace Seq

/-! ## 1. Joining -/

/-- A first part, and others with the pattern in front of each. -/
def joined {α : Type} (pat first : List α) (parts : List (List α)) : List α :=
  first ++ parts.flatMap (pat ++ ·)

section Joined

variable {α β : Type} {pat first part : List α} {parts : List (List α)}

@[simp] theorem joined_nil (pat first : List α) : joined pat first [] = first :=
  List.append_nil first

theorem joined_cons (pat first part : List α) (parts : List (List α)) :
    joined pat first (part :: parts) = first ++ (pat ++ joined pat part parts) := by
  rw [joined, joined, List.flatMap_cons, List.append_assoc]

/-- What is in no part and not in the pattern is not in the whole. -/
theorem not_mem_joined {x : α} (hpat : x ∉ pat) (hfirst : x ∉ first)
    (hparts : ∀ p ∈ parts, x ∉ p) : x ∉ joined pat first parts := by
  intro hx
  rcases List.mem_append.mp hx with hx | hx
  · exact hfirst hx
  · obtain ⟨p, hp, hx⟩ := List.mem_flatMap.mp hx
    exact (List.mem_append.mp hx).elim hpat (hparts p hp)

theorem subset_joined (pat first : List α) (parts : List (List α)) :
    first ⊆ joined pat first parts := List.subset_append_left ..

theorem subset_joined_of_mem (h : part ∈ parts) : part ⊆ joined pat first parts := fun _ hx =>
  List.mem_append_right _ (List.mem_flatMap.mpr ⟨part, h, List.mem_append_right _ hx⟩)

/-- A map that takes appended lists to appended ones takes joined lists to joined ones. -/
theorem map_joined {f : List α → List β} (happend : ∀ a b, f (a ++ b) = f a ++ f b)
    (pat first : List α) (parts : List (List α)) :
    f (joined pat first parts) = joined (f pat) (f first) (parts.map f) := by
  induction parts generalizing first with
  | nil => rw [List.map_nil, joined_nil, joined_nil]
  | cons part parts ih => rw [List.map_cons, joined_cons, joined_cons, happend, happend, ih]

end Joined

/-! ## 2. Searches behind a part -/

section Searches

variable {α : Type} [DecidableEq α] {x : α} {pat front first : List α} {parts : List (List α)}

theorem indexOf?_self (pat behind : List α) : indexOf? pat (pat ++ behind) = some 0 := by
  rw [indexOf?_eq_some_iff]
  exact ⟨List.prefix_append pat behind, fun j hj => absurd hj (Nat.not_lt_zero j)⟩

/-- A pattern does not start at another element. -/
theorem indexOf?_cons_of_ne {y : α} (h : x ≠ y) (pat l : List α) :
    indexOf? (x :: pat) (y :: l) = (indexOf? (x :: pat) l).map (· + 1) := by
  have hne : (x :: pat).isPrefixOf (y :: l) = false := by
    simp only [List.isPrefixOf_cons_cons, Bool.and_eq_false_iff, beq_eq_false_iff_ne]
    exact Or.inl h
  rw [indexOf?, hne]
  rfl

/-- **A search passes over a part without the first element of the pattern.** -/
theorem indexOf?_append_of_not_mem (h : x ∉ front) (pat l : List α) :
    indexOf? (x :: pat) (front ++ l) = (indexOf? (x :: pat) l).map (front.length + ·) := by
  induction front with
  | nil => simp only [List.nil_append, List.length_nil, Nat.zero_add, Option.map_id']
  | cons y front ih =>
    obtain ⟨hy, hfront⟩ := not_or.mp (mt List.mem_cons.mpr h)
    rw [List.cons_append, indexOf?_cons_of_ne hy, ih hfront, Option.map_map]
    congr 1
    funext i
    simp only [Function.comp_apply, List.length_cons]
    omega

theorem indexOf?_eq_none_of_not_mem (h : x ∉ front) (pat : List α) :
    indexOf? (x :: pat) front = none := by
  have hpass := indexOf?_append_of_not_mem h pat []
  rwa [List.append_nil] at hpass

/-! ## 3. Cutting what was joined -/

/-- **The first cut is where the first part ends.** -/
theorem cut?_of_not_mem (h : x ∉ front) (pat behind : List α) :
    cut? (x :: pat) (front ++ (x :: pat ++ behind)) = some (front, behind) := by
  rw [cut?, indexOf?_append_of_not_mem h, indexOf?_self]
  have hbehind : (front ++ (x :: pat ++ behind)).drop (front.length + (x :: pat).length) = behind := by
    rw [← List.append_assoc, ← List.length_append, List.drop_left]
  simp only [Option.map_some, Nat.add_zero, List.take_left, hbehind]

theorem cut?_eq_none_of_not_mem (h : x ∉ front) (pat : List α) : cut? (x :: pat) front = none := by
  rw [cut?, indexOf?_eq_none_of_not_mem h, Option.map_none]

/-- **An element does not stand in front of its first cut.** -/
theorem not_mem_of_cut? {l before after : List α} (h : cut? [x] l = some (before, after)) :
    x ∉ before := by
  intro hx
  obtain ⟨front, behind, rfl, hfront⟩ := List.eq_append_cons_of_mem hx
  have hlist : l = front ++ ([x] ++ (behind ++ [x] ++ after)) := by
    rw [cut?_eq_some h]
    simp
  rw [hlist, cut?_of_not_mem hfront] at h
  obtain ⟨hsame, -⟩ := Prod.mk.inj (Option.some.inj h)
  rw [← hsame] at hx
  exact hfront hx

theorem not_mem_of_cut?_eq_none {l : List α} (h : cut? [x] l = none) : x ∉ l := by
  intro hx
  obtain ⟨front, behind, rfl, hfront⟩ := List.eq_append_cons_of_mem hx
  have hcut := cut?_of_not_mem hfront [] behind
  rw [show front ++ x :: behind = front ++ ([x] ++ behind) from rfl, hcut] at h
  cases h

/-- Where the pattern does not start, the first element stands in front of the cut. -/
theorem cut?_cons {l : List α} (h : ¬ pat <+: x :: l) :
    cut? pat (x :: l) = (cut? pat l).map fun cut => (x :: cut.1, cut.2) := by
  have hfind : indexOf? pat (x :: l) = (indexOf? pat l).map (· + 1) := by
    rw [indexOf?, if_neg fun hp => h (List.isPrefixOf_iff_prefix.mp hp)]
  rw [cut?, hfind, cut?, Option.map_map, Option.map_map]
  refine Option.map_congr fun i _ => ?_
  simp only [Function.comp_apply, List.take_succ_cons, Nat.add_right_comm, List.drop_succ_cons]

theorem pieces_of_cut? {l before after : List α} (hp : pat ≠ [])
    (h : cut? pat l = some (before, after)) : pieces pat l = before :: pieces pat after := by
  rw [pieces, dif_neg hp]
  split
  · next hn => rw [h] at hn; cases hn
  · next hs =>
    rw [h] at hs
    cases hs
    rfl

theorem pieces_of_cut?_eq_none {l : List α} (h : cut? pat l = none) : pieces pat l = [l] := by
  rw [pieces]
  split
  · rfl
  · split
    · rfl
    · next hs =>
      rw [h] at hs
      cases hs

theorem pieces_of_not_mem (h : x ∉ front) (pat : List α) : pieces (x :: pat) front = [front] :=
  pieces_of_cut?_eq_none (cut?_eq_none_of_not_mem h pat)

/-- **Joining the pieces gives the list back.** -/
theorem joined_of_pieces {l : List α} (h : pieces pat l = first :: parts) :
    joined pat first parts = l := by
  fun_induction pieces pat l generalizing first parts with
  | case1 l =>
    cases h
    exact joined_nil pat l
  | case2 l _ _ =>
    cases h
    exact joined_nil pat l
  | case3 l _ before after hcut ih =>
    obtain ⟨rfl, rfl⟩ := List.cons.inj h
    obtain ⟨next, rest, hrest⟩ := List.exists_cons_of_length_pos (pieces_length_pos pat after)
    rw [hrest, joined_cons, ih hrest, cut?_eq_some hcut, List.append_assoc]

/-- **What was joined is cut into its parts.** -/
theorem pieces_joined (hfirst : x ∉ first) (hparts : ∀ p ∈ parts, x ∉ p) (pat : List α) :
    pieces (x :: pat) (joined (x :: pat) first parts) = first :: parts := by
  induction parts generalizing first with
  | nil => rw [joined_nil, pieces_of_not_mem hfirst]
  | cons part parts ih =>
    obtain ⟨hpart, hparts⟩ := List.forall_mem_cons.mp hparts
    rw [joined_cons, pieces_of_cut? (List.cons_ne_nil x pat) (cut?_of_not_mem hfirst pat _),
      ih hpart hparts]

end Searches

end Seq

/-! ## 4. Lines -/

namespace Http

/-- One line end, with another byte than a carriage return behind it, is no empty line. -/
theorem indexOf?_terminator_crlf {b : UInt8} (hb : 13 ≠ b) (l : Bytes) :
    Seq.indexOf? terminator (crlf ++ b :: l) =
      (Seq.indexOf? terminator (b :: l)).map (crlf.length + ·) := by
  have hne : terminator.isPrefixOf (crlf ++ b :: l) = false := by
    simp [terminator, crlf, List.isPrefixOf_cons_cons, beq_eq_false_iff_ne.mpr hb]
  have hnext : Seq.indexOf? terminator (10 :: b :: l) =
      (Seq.indexOf? terminator (b :: l)).map (· + 1) := Seq.indexOf?_cons_of_ne (by decide) _ _
  rw [show crlf ++ b :: l = 13 :: 10 :: b :: l from rfl] at hne ⊢
  rw [Seq.indexOf?, hne, hnext, if_neg (by decide), Option.map_map]
  congr 1
  funext i
  simp only [Function.comp_apply, crlf, List.length_cons, List.length_nil]
  omega

/-- **The empty line behind joined lines is the first one**, when no line is empty or has a carriage
    return. -/
theorem indexOf?_terminator_joined {first : Bytes} {lines : List Bytes} (hfirst : 13 ∉ first)
    (hlines : ∀ line ∈ lines, 13 ∉ line ∧ line ≠ []) (behind : Bytes) :
    Seq.indexOf? terminator (Seq.joined crlf first lines ++ (terminator ++ behind)) =
      some (Seq.joined crlf first lines).length := by
  induction lines generalizing first with
  | nil =>
    have hpass : Seq.indexOf? terminator (first ++ (terminator ++ behind)) =
        (Seq.indexOf? terminator (terminator ++ behind)).map (first.length + ·) :=
      Seq.indexOf?_append_of_not_mem hfirst _ _
    rw [Seq.joined_nil, hpass, Seq.indexOf?_self, Option.map_some, Nat.add_zero]
  | cons line lines ih =>
    obtain ⟨⟨hline, hne⟩, hrest⟩ := List.forall_mem_cons.mp hlines
    obtain ⟨b, l, rfl⟩ := List.exists_cons_of_ne_nil hne
    have hpass : Seq.indexOf? terminator (first ++
          (crlf ++ (Seq.joined crlf (b :: l) lines ++ (terminator ++ behind)))) =
        (Seq.indexOf? terminator
          (crlf ++ (Seq.joined crlf (b :: l) lines ++ (terminator ++ behind)))).map
            (first.length + ·) :=
      Seq.indexOf?_append_of_not_mem hfirst _ _
    have hend := indexOf?_terminator_crlf (fun he => hline (he ▸ List.mem_cons_self) : 13 ≠ b)
      (l ++ lines.flatMap (crlf ++ ·) ++ (terminator ++ behind))
    rw [Seq.joined_cons, List.append_assoc, List.append_assoc, hpass]
    rw [Seq.joined, List.cons_append, List.cons_append, hend, ← List.cons_append,
      ← List.cons_append, ← Seq.joined, ih hline hrest]
    simp only [Option.map_some, List.length_append]

/-- **A head of such lines ends in front of its empty line**, whatever comes behind. -/
theorem findTerminator?_joined {first : Bytes} {lines : List Bytes} (hfirst : 13 ∉ first)
    (hlines : ∀ line ∈ lines, 13 ∉ line ∧ line ≠ []) (behind : Bytes) :
    findTerminator? (Seq.joined crlf first lines ++ (terminator ++ behind)) 0 =
      some (Seq.joined crlf first lines).length := by
  rw [findTerminator?, List.drop_zero, indexOf?_terminator_joined hfirst hlines, Option.map_some,
    Nat.zero_add]

end Http

end TrafficGate
