import TrafficGate.Proofs.Veils
import TrafficGate.Http.Resync
/-!
  # What a step reads

  A step reads the head of a message and none of the bytes that it delimits as the body. Other bytes
  under its veil give the same step, but for the body, and an overflow leaves the same of them.

  1. messages and results without their bodies;
  2. the veil of a step;
  3. the step under the veil;
  4. the head that is left of a message that is too large.

  Main facts: **`carveFrom_of_fits`**, **`covered_of_complete`** (what the veil of a message hides is
  its body) and **`Truncated.read?_of_fits`**.
-/

namespace TrafficGate.Http

/-! ## 1. Without bodies -/

/-- A message without its body: the bytes are counted only. -/
def Message.bare (m : Message) : Message :=
  { m with raw := List.replicate m.raw.length 0, body := none }

namespace Carve

/-- A result without the body. -/
def bare : Carve → Carve
  | complete m => complete m.bare
  | tunnel n => tunnel n
  | malformed n flaw => malformed n flaw
  | needMore scan => needMore scan

/-- How many of `present` bytes a result is about: all when more are needed. -/
def reach (present : Nat) : Carve → Nat
  | complete m => m.raw.length
  | tunnel n => n
  | malformed n _ => n
  | needMore _ => present

/-- Steps that are the same but for the body are the same, or messages that are. -/
theorem eq_or_complete_of_bare {c d : Carve} (h : d.bare = c.bare) :
    d = c ∨ ∃ m m', c = complete m ∧ d = complete m' ∧ m'.bare = m.bare := by
  cases c <;> cases d <;> simp only [bare, reduceCtorEq] at h
  · exact .inr ⟨_, _, rfl, rfl, complete.inj h⟩
  · exact .inl h
  · exact .inl h
  · exact .inl h

theorem consumed_bare (c : Carve) : c.bare.consumed = c.consumed := by
  cases c with
  | complete m => exact List.length_replicate
  | _ => rfl

theorem isNeedMore_bare (c : Carve) : c.bare.isNeedMore = c.isNeedMore := by cases c <;> rfl

end Carve

/-! ## 2. The veil of a step -/

/-- The veil over the body behind the head that ends at `i`. -/
def bodyVeil (data : Bytes) (side : Side) (answersHead : Bool) (i : Nat) : Veil :=
  if side = .request ∧ Head.opensTunnel (Head.startLine (headAt data side i)) then []
  else
    Frame.veil (headAt data side i) side (Head.code? (statusAt data side i)) answersHead
      (data.drop (i + terminator.length))

/-- The veil of a step. It shows the head with its empty line and hides the body, as far as these
    are there. -/
def Carve.veil (data : Bytes) (side : Side) (answersHead : Bool) : Veil :=
  match findTerminator? data 0 with
  | none => shown data
  | some i => shown (data.take (i + terminator.length)) ++ bodyVeil data side answersHead i

/-- **The veil of a step lies on the bytes of the step**: what it shows is there. -/
theorem Carve.liesOn_veil (data : Bytes) (side : Side) (answersHead : Bool) :
    LiesOn (Carve.veil data side answersHead) data := by
  unfold Carve.veil
  split
  · exact (fits_shown data).liesOn
  · next i _ =>
    conv_rhs => rw [← List.take_append_drop (i + terminator.length) data]
    refine .behind (fits_shown _) ?_
    unfold bodyVeil
    split
    · exact liesOn_nil _
    · exact Frame.liesOn_veil ..

/-- **The veil of a step covers what the step is about.** -/
theorem length_veil (data : Bytes) (side : Side) (answersHead : Bool) :
    (Carve.veil data side answersHead).length =
      (carveFrom data side 0 answersHead).reach data.length := by
  cases hf : findTerminator? data 0 with
  | none => simp only [Carve.veil, carveFrom, hf, length_shown, Carve.reach]
  | some i =>
    have hroom := findTerminator?_le hf
    have hle := length_bodyAt_le data side answersHead i
    simp only [Carve.veil, carveFrom, hf, List.length_append, length_shown, List.length_take]
    rw [bodyVeil, carveHead_eq]
    split
    · simp only [List.length_nil, Carve.reach]
      omega
    · rw [Frame.length_veil]
      change _ + (bodyAt data side answersHead i).reach _ = _
      rw [List.length_drop]
      cases hb : bodyAt data side answersHead i with
      | incomplete =>
        simp only [Frame.reach, Carve.reach]
        omega
      | misframed length flaw =>
        simp only [Frame.reach, Carve.reach]
        omega
      | framed body length =>
        rw [hb] at hle
        simp only [Frame.length] at hle
        simp only [Frame.reach]
        split
        · simp only [Carve.reach]
          omega
        · simp only [Carve.reach, List.length_take]
          omega

/-- **What the veil of a message hides is its body.** -/
theorem covered_of_complete {data : Bytes} {side : Side} {answersHead : Bool} {m : Message}
    (h : carveFrom data side 0 answersHead = .complete m) :
    covered (Carve.veil data side answersHead) data = m.body.getD [] := by
  unfold carveFrom at h
  cases hf : findTerminator? data 0 with
  | none => rw [hf] at h; cases h
  | some i =>
    rw [hf] at h
    have htunnel : ¬ (side = .request ∧ Head.opensTunnel (Head.startLine (headAt data side i))) := by
      intro htunnel
      simp only [carveHead_eq, if_pos htunnel, reduceCtorEq] at h
    obtain ⟨body, length, status, hbody, _, rfl⟩ := carveHead_eq_complete h
    have hcovered := covered_shown (data.take (i + terminator.length))
      (bodyVeil data side answersHead i) (data.drop (i + terminator.length))
    rw [List.take_append_drop] at hcovered
    simp only [Carve.veil, hf, hcovered]
    rw [bodyVeil, if_neg htunnel]
    exact Frame.covered_of_framed hbody

/-! ## 3. Under the veil -/

section Step

variable {data u : Bytes} {side : Side} {answersHead : Bool} {i : Nat}

/-- An empty line that is found is found in the bytes up to its end. -/
theorem findTerminator?_take (h : findTerminator? data 0 = some i) :
    findTerminator? (data.take (i + terminator.length)) 0 = some i := by
  have hroom := findTerminator?_le h
  obtain ⟨_, hat, hbefore⟩ := findTerminator?_eq_some_iff.mp h
  refine findTerminator?_eq_some_iff.mpr ⟨Nat.zero_le i, ?_, fun j hj hlt hp => hbefore j hj hlt ?_⟩
  · rw [List.drop_take, Nat.add_sub_cancel_left]
    exact List.prefix_take_iff.mpr ⟨hat, Nat.le_refl _⟩
  · rw [List.drop_take] at hp
    exact hp.trans (List.take_prefix _ _)

/-- Bytes under the veil of a step have the same head. -/
theorem head_of_fits (hf : findTerminator? data 0 = some i)
    (h : Fits (Carve.veil data side answersHead) u) :
    ∃ y, u = data.take (i + terminator.length) ++ y ∧ findTerminator? u 0 = some i ∧
      headAt u side i = headAt data side i ∧ Fits (bodyVeil data side answersHead i) y := by
  have hroom := findTerminator?_le hf
  simp only [Carve.veil, hf] at h
  obtain ⟨y, rfl, hy⟩ := h.behind
  refine ⟨y, rfl, findTerminator?_append (findTerminator?_take hf) y, ?_, hy⟩
  rw [headAt, headAt, List.take_append_of_le_length (by rw [List.length_take]; omega),
    List.take_take, Nat.min_eq_left (Nat.le_add_right _ _)]

theorem carveHead_of_fits (hf : findTerminator? data 0 = some i)
    (h : Fits (Carve.veil data side answersHead) u) :
    (carveHead u side answersHead i).bare = (carveHead data side answersHead i).bare := by
  obtain ⟨y, hu, _, hhead, hy⟩ := head_of_fits hf h
  have hroom := findTerminator?_le hf
  have hstatus : statusAt u side i = statusAt data side i := by rw [statusAt, statusAt, hhead]
  rw [carveHead_eq, carveHead_eq, hhead, hstatus]
  by_cases htunnel : side = .request ∧ Head.opensTunnel (Head.startLine (headAt data side i))
  · rw [if_pos htunnel, if_pos htunnel]
  · rw [if_neg htunnel, if_neg htunnel]
    rw [bodyVeil, if_neg htunnel] at hy
    have hbody : (bodyAt u side answersHead i).bare = (bodyAt data side answersHead i).bare := by
      have hrest : u.drop (i + terminator.length) = y := by
        rw [hu]
        exact List.drop_left' (by rw [List.length_take]; omega)
      rw [bodyAt, bodyAt, hhead, hstatus, hrest]
      exact Frame.resolve_of_fits hy
    have hlength := hy.length_eq
    rw [Frame.length_veil] at hlength
    change _ = (bodyAt data side answersHead i).reach _ at hlength
    have hle := length_bodyAt_le data side answersHead i
    generalize bodyAt u side answersHead i = c at *
    cases hd : bodyAt data side answersHead i with
    | incomplete =>
      rw [hd] at hbody
      rw [Frame.eq_incomplete_of_bare hbody]
    | misframed length flaw =>
      rw [hd] at hbody
      rw [Frame.eq_misframed_of_bare hbody]
    | framed body length =>
      rw [hd] at hbody hlength hle
      obtain ⟨body', rfl⟩ := Frame.eq_framed_of_bare hbody
      simp only [Frame.reach, Frame.length] at hlength hle
      simp only []
      cases statusAt data side i with
      | error flaw => rfl
      | ok status =>
        have hraw : (u.take (i + terminator.length + length)).length =
            (data.take (i + terminator.length + length)).length := by
          simp only [hu, List.length_take, List.length_append]
          omega
        simp only [Carve.bare, Message.bare, hraw]

/-- **Bytes under the veil of a step give the same step**, but for the body. -/
theorem carveFrom_of_fits (h : Fits (Carve.veil data side answersHead) u) :
    (carveFrom u side 0 answersHead).bare = (carveFrom data side 0 answersHead).bare := by
  cases hf : findTerminator? data 0 with
  | none =>
    simp only [Carve.veil, hf] at h
    rw [eq_of_fits_shown h]
  | some i =>
    obtain ⟨_, _, hfound, _, _⟩ := head_of_fits hf h
    simp only [carveFrom, hf, hfound]
    exact carveHead_of_fits hf h

/-! ## 4. A message that is too large -/

/-- **Bytes under the veil of a step leave the same head behind**, and the same length to drop. -/
theorem Truncated.read?_of_fits (h : Fits (Carve.veil data side answersHead) u) :
    read? u side = read? data side := by
  cases hf : findTerminator? data 0 with
  | none =>
    simp only [Carve.veil, hf] at h
    rw [eq_of_fits_shown h]
  | some i =>
    obtain ⟨y, hu, hfound, hhead, _⟩ := head_of_fits hf h
    have hroom := findTerminator?_le hf
    have hraw : u.take (i + terminator.length) = data.take (i + terminator.length) := by
      rw [hu]
      exact List.take_left' (by rw [List.length_take]; omega)
    unfold headAt at hhead
    simp only [read?, hf, hfound, Option.map_some, hhead, hraw]

end Step

end TrafficGate.Http
