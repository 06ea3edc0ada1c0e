import TrafficGate.Proofs.StepVeils
import TrafficGate.Proofs.Absorption
/-!
  # Buffers under a veil

  What a buffer hides of its bytes: the bodies of the messages that are carved from it, of the one
  that waits at its end, and the bytes that belong to a message given up and of which the number is
  known. A buffer with any other bytes under the veil reports the same messages but for their bodies
  and keeps as many bytes.

  1. pieces and messages without their bodies;
  2. the veil of an accumulator, piece by piece;
  3. the veil of a buffer;
  4. an arrival of bytes, before the limit and under it.

  Main facts: **`Accumulator.carveAll_of_fits`** and **`Buffer.receive_of_fits`**.
-/

namespace TrafficGate.Stream

open Http

/-! ## 1. Without bodies -/

/-- A piece without its body: the bytes are counted only. -/
def Carved.bare : Carved → Carved
  | message m => message m.bare
  | skipped bytes reason => skipped (List.replicate bytes.length 0) reason

theorem Carved.finals_bare (p : Carved) : p.bare.finals = p.finals := by cases p <;> rfl

theorem Carved.bare_skipped {x y : Bytes} (h : x.length = y.length) (reason : SkipReason) :
    (skipped x reason).bare = (skipped y reason).bare := by
  simp only [bare, h]

/-- What an arrival of bytes gives, without bodies. -/
def Framed.bare : Framed → Framed
  | message m => message m.bare
  | truncated m => truncated m.bare
  | lost dropped => lost dropped

namespace Buffer

theorem reported_map_bare (pieces : List Carved) :
    reported (pieces.map Carved.bare) = (reported pieces).map Framed.bare := by
  induction pieces with
  | nil => rfl
  | cons p pieces ih =>
    cases p with
    | message m => exact congrArg (Framed.message m.bare :: ·) ih
    | skipped bytes reason => exact ih

end Buffer

/-! ## 2. Accumulators -/

/-- How many exchanges a step ends: one if it found a final response. -/
def finalsAt : Carve → Nat
  | .complete m => if m.isFinal then 1 else 0
  | .tunnel _ | .malformed _ _ | .needMore _ => 0

/-- The veil of the bytes of an accumulator: the veils of the steps of carving them, one behind the
    other, with the responses counted. -/
def streamVeil (side : Side) (answersHead : Nat → Bool) (data : Bytes) : Veil :=
  let found := carveFrom data side 0 (decide (side = .response) && answersHead 0)
  let front := Carve.veil data side (decide (side = .response) && answersHead 0)
  if _h : found.isNeedMore then front
  else
    front ++ streamVeil side (fun n => answersHead (finalsAt found + n)) (data.drop found.consumed)
termination_by data.length
decreasing_by
  have := consumed_carveFrom (Bool.not_eq_true _ ▸ _h)
  simp only [List.length_drop, terminator, List.length_cons, List.length_nil] at *
  omega

namespace Accumulator

section Carving

variable {side : Side} {answersHead : Nat → Bool} {a b : Accumulator}

theorem finals_of_piece? {c : Carve} {p : Carved} (h : a.piece? c = some p) :
    p.finals = finalsAt c := by
  cases c <;> cases h <;> rfl

theorem streamVeil_of_needMore (ha : a.Searched) {k : Nat}
    (h : a.step side answersHead 0 = .needMore k) :
    streamVeil side answersHead a.unparsed =
      Carve.veil a.unparsed side (decide (side = .response) && answersHead 0) := by
  rw [ha.step_eq] at h
  rw [streamVeil]
  simp only [h]
  rfl

theorem streamVeil_of_piece (ha : a.Searched) {p : Carved}
    (h : a.piece? (a.step side answersHead 0) = some p) :
    streamVeil side answersHead a.unparsed =
      Carve.veil a.unparsed side (decide (side = .response) && answersHead 0) ++
        streamVeil side (fun n => answersHead (p.finals + n))
          (a.skip (a.step side answersHead 0).consumed).unparsed := by
  have hmore := isNeedMore_of_piece? h
  rw [finals_of_piece? h, unparsed_skip]
  rw [ha.step_eq] at hmore ⊢
  rw [streamVeil]
  simp only [hmore, Bool.false_eq_true, dite_false]

/-- Steps that are the same but for the body give pieces that are. -/
theorem piece?_of_bare {c d : Carve} {p : Carved} (hp : a.piece? c = some p)
    (hbare : d.bare = c.bare) (ha : c.consumed ≤ a.unparsed.length)
    (hb : c.consumed ≤ b.unparsed.length) :
    ∃ q, b.piece? d = some q ∧ q.bare = p.bare := by
  have hfront : ∀ {n : Nat}, n ≤ a.unparsed.length → n ≤ b.unparsed.length →
      (b.front n).length = (a.front n).length := by
    intro n hna hnb
    rw [front, front, List.length_take, List.length_take, Nat.min_eq_left hna,
      Nat.min_eq_left hnb]
  rcases Carve.eq_or_complete_of_bare hbare with rfl | ⟨m, m', rfl, rfl, hm⟩
  · cases d with
    | needMore k => cases hp
    | complete m =>
      cases hp
      exact ⟨_, rfl, rfl⟩
    | tunnel n =>
      cases hp
      exact ⟨_, rfl, Carved.bare_skipped (hfront ha hb) .tunnel⟩
    | malformed n flaw =>
      cases hp
      exact ⟨_, rfl, Carved.bare_skipped (hfront ha hb) (.malformed flaw)⟩
  · cases hp
    exact ⟨_, rfl, congrArg Carved.message hm⟩

/-- The second accumulator has as many bytes as the first, and an overflow sees the same there. -/
structure Alike (side : Side) (a b : Accumulator) : Prop where
  length_eq : b.unparsed.length = a.unparsed.length
  read : Truncated.read? b.unparsed side = Truncated.read? a.unparsed side

/-- A step on bytes of which the first ones fit its veil. -/
theorem step_of_fits (ha : a.Searched) (hb : b.Searched) {x y : Bytes}
    (hmore : (a.step side answersHead 0).isNeedMore = false) (hu : b.unparsed = x ++ y)
    (h : Fits (Carve.veil a.unparsed side (decide (side = .response) && answersHead 0)) x) :
    (b.step side answersHead 0).bare = (a.step side answersHead 0).bare := by
  rw [ha.step_eq] at hmore ⊢
  have hbare := carveFrom_of_fits h
  have hmore' : (carveFrom x side 0 (decide (side = .response) && answersHead 0)).isNeedMore =
      false := by
    rw [← Carve.isNeedMore_bare, hbare, Carve.isNeedMore_bare]
    exact hmore
  rw [hb.step_eq, hu, carveFrom_append hmore', hbare]

/-- **An accumulator with other bytes under the veil is carved alike**, but for the bodies, and what
    is left of it are its last bytes. -/
theorem carveAll_of_fits (ha : a.Searched) (hb : b.Searched)
    (h : Fits (streamVeil side answersHead a.unparsed) b.unparsed) :
    (b.carveAll side answersHead).1.map Carved.bare =
        (a.carveAll side answersHead).1.map Carved.bare ∧
      Alike side (a.carveAll side answersHead).2 (b.carveAll side answersHead).2 ∧
      (b.carveAll side answersHead).2.unparsed <:+ b.unparsed := by
  induction answersHead, a using carve_induction side generalizing b with
  | waits answersHead a k hk =>
    rw [streamVeil_of_needMore ha hk] at h
    have hstep : b.step side answersHead 0 = .needMore k := by
      have hbare := carveFrom_of_fits h
      rw [← ha.step_eq, ← hb.step_eq, hk] at hbare
      rcases Carve.eq_or_complete_of_bare hbare with he | ⟨m, m', he, _, _⟩
      · exact he
      · cases he
    have hlength := h.length_eq
    rw [length_veil, ← ha.step_eq, hk, Carve.reach] at hlength
    rw [carveAll_of_none hk, carveAll_of_none hstep]
    exact ⟨rfl, ⟨hlength, Truncated.read?_of_fits h⟩, List.suffix_rfl⟩
  | piece answersHead a p hp ih =>
    have hmore := isNeedMore_of_piece? hp
    have hend : (a.step side answersHead 0).consumed ≤ a.unparsed.length :=
      (consumed_carveFrom hmore).2
    rw [streamVeil_of_piece ha hp] at h
    obtain ⟨x, y, hu, hx, hy⟩ := h.split
    have hbare := step_of_fits ha hb hmore hu hx
    have hconsumed : (b.step side answersHead 0).consumed =
        (a.step side answersHead 0).consumed := by
      rw [← Carve.consumed_bare, hbare, Carve.consumed_bare]
    -- the veil of the step covers what it consumes
    have hlength : x.length = (a.step side answersHead 0).consumed := by
      rw [hx.length_eq, length_veil, ← ha.step_eq]
      cases hs : a.step side answersHead 0 with
      | needMore k => rw [hs] at hmore; cases hmore
      | complete m => rfl
      | tunnel n => rfl
      | malformed n flaw => rfl
    obtain ⟨q, hq, hsame⟩ := piece?_of_bare hp hbare hend
      (by rw [← hlength, hu, List.length_append]; omega)
    have hfinals : q.finals = p.finals := by
      rw [← Carved.finals_bare, hsame, Carved.finals_bare]
    have hrest : (b.skip (b.step side answersHead 0).consumed).unparsed = y := by
      rw [unparsed_skip, hu, hconsumed]
      exact List.drop_left' hlength
    obtain ⟨hpieces, halike, hsuffix⟩ := ih (ha.skip _) (hb.skip _) (by rw [hrest]; exact hy)
    rw [carveAll_of_some hp, carveAll_of_some hq]
    simp only [hfinals, List.map_cons, hsame, hpieces]
    refine ⟨trivial, halike, hsuffix.trans ?_⟩
    rw [unparsed_skip]
    exact List.drop_suffix _ _

end Carving

end Accumulator

/-! ## 3. Buffers -/

namespace Buffer

/-- The veil of a buffer. Hidden are also the bytes of a message given up, as long as their number is
    known. -/
def veil (side : Side) (answersHead : Nat → Bool) (b : Buffer) : Veil :=
  match b.recovery with
  | .none => streamVeil side answersHead b.acc.unparsed
  | .discard remaining =>
    hidden (b.acc.front remaining) ++ streamVeil side answersHead (b.acc.skip remaining).unparsed
  | .resync => shown b.acc.unparsed

/-- Two buffers with the same to be dropped, of which the second has as many bytes as the first. -/
structure Alike (b c : Buffer) : Prop where
  recovery : c.recovery = b.recovery
  length_eq : c.acc.unparsed.length = b.acc.unparsed.length

section Arrival

variable {side : Side} {answersHead : Nat → Bool} {b c : Buffer}

/-- What is dropped is dropped alike. -/
theorem recover_of_fits (hr : b.recovery ≠ .resync) (halike : Alike b c)
    (h : Fits (b.veil side answersHead) c.acc.unparsed) :
    (recover side c).recovery = (recover side b).recovery ∧
      Fits (streamVeil side answersHead (recover side b).acc.unparsed)
        (recover side c).acc.unparsed ∧
      (recover side c).acc.unparsed <:+ c.acc.unparsed := by
  obtain ⟨hrecovery, hlength⟩ := halike
  obtain ⟨acc, recovery⟩ := b
  obtain ⟨acc', recovery'⟩ := c
  obtain rfl : recovery = recovery' := hrecovery.symm
  cases recovery with
  | resync => exact absurd rfl hr
  | none => exact ⟨rfl, h, List.suffix_rfl⟩
  | discard remaining =>
    simp only [veil] at h hlength
    obtain ⟨x, y, hu, hx, hy⟩ := h.split
    have hxlength := hx.length_eq
    have hylength := congrArg List.length hu
    rw [length_hidden, Accumulator.front, List.length_take] at hxlength
    rw [List.length_append] at hylength
    have hdrop : acc'.unparsed.drop remaining = y := by
      rcases Nat.le_total remaining acc.unparsed.length with hle | hle
      · rw [hu]
        exact List.drop_left' (by omega)
      · -- all bytes are dropped, and none is behind them
        rw [List.drop_eq_nil_of_le (by omega)]
        exact (List.eq_nil_of_length_eq_zero (by omega)).symm
    simp only [recover, Accumulator.unparsed_compact, Accumulator.unparsed_skip, hdrop, hlength]
    refine ⟨trivial, hy, ?_⟩
    rw [← hdrop]
    exact List.drop_suffix _ _

/-- Before the limit: the same pieces but for the bodies, and as many bytes that wait. -/
theorem absorb_of_fits (hb : b.acc.Searched) (hc : c.acc.Searched) (hr : b.recovery ≠ .resync)
    (halike : Alike b c) {bs us : Bytes} (hbytes : us.length = bs.length)
    (h : Fits (veil side answersHead { b with acc := b.acc.append bs }) (c.acc.unparsed ++ us)) :
    (absorb side answersHead us c).1.map Carved.bare =
        (absorb side answersHead bs b).1.map Carved.bare ∧
      (absorb side answersHead us c).2.recovery = (absorb side answersHead bs b).2.recovery ∧
      Accumulator.Alike side (absorb side answersHead bs b).2.acc
        (absorb side answersHead us c).2.acc ∧
      (absorb side answersHead us c).2.acc.unparsed <:+ c.acc.unparsed ++ us := by
  have halike' : Alike { b with acc := b.acc.append bs } { c with acc := c.acc.append us } :=
    ⟨halike.recovery, by
      simp only [Accumulator.unparsed_append, List.length_append, halike.length_eq, hbytes]⟩
  have hr' : ({ b with acc := b.acc.append bs } : Buffer).recovery ≠ .resync := hr
  obtain ⟨hrecovery, hfits, hsuffix⟩ := recover_of_fits hr' halike' h
  obtain ⟨hpieces, hrest, hlast⟩ := Accumulator.carveAll_of_fits
    (searched_recover (hb.append bs) side) (searched_recover (hc.append us) side) hfits
  exact ⟨hpieces, hrecovery, hrest, hlast.trans hsuffix⟩

/-- **An arrival at a buffer with other bytes under the veil** reports the same messages but for
    their bodies. It leaves the same to be dropped and as many bytes, the last ones. -/
theorem receive_of_fits (hb : b.acc.Searched) (hc : c.acc.Searched) (hr : b.recovery ≠ .resync)
    (halike : Alike b c) {bs us : Bytes} (hbytes : us.length = bs.length)
    (h : Fits (veil side answersHead { b with acc := b.acc.append bs }) (c.acc.unparsed ++ us))
    (limit : Nat) :
    (receive limit side answersHead us c).1.map Framed.bare =
        (receive limit side answersHead bs b).1.map Framed.bare ∧
      Alike (receive limit side answersHead bs b).2 (receive limit side answersHead us c).2 ∧
      (receive limit side answersHead us c).2.acc.unparsed <:+ c.acc.unparsed ++ us := by
  obtain ⟨hpieces, hrecovery, hrest, hsuffix⟩ := absorb_of_fits hb hc hr halike hbytes h
  rw [receive_eq, receive_eq]
  generalize absorb side answersHead bs b = r at *
  generalize absorb side answersHead us c = r' at *
  have hreported : (reported r'.1).map Framed.bare = (reported r.1).map Framed.bare := by
    rw [← reported_map_bare, ← reported_map_bare, hpieces]
  simp only [hrest.length_eq]
  split
  · -- the message at the front is given up, with the same head and the same length
    simp only [overflow, hrest.read, hrest.length_eq, List.map_append, hreported]
    exact ⟨trivial, ⟨rfl, rfl⟩, List.nil_suffix⟩
  · exact ⟨hreported, ⟨hrecovery, hrest.length_eq⟩, hsuffix⟩

end Arrival

end Buffer

end TrafficGate.Stream
