import TrafficGate.Proofs.InputRuns
import TrafficGate.Proofs.StepExtension
import TrafficGate.Stream.Carving
/-!
  # Carving does not depend on fragments

  Bytes arrive in fragments, and after each one every complete message is taken. What is taken, and
  what is left, is what carving all bytes at once gives. The cut may lie anywhere: in a head, in the
  empty line behind it, in a size line, in a body.

  1. `Searched` -- the invariant of the offset from which a search starts;
  2. `carveAll`, piece by piece, and induction over it;
  3. one cut (`carveAll_append`);
  4. any number of fragments.

  Main facts: **`carve_induction`**, **`Searched.carveAll`**, **`carveAll_congr`** (carving reads
  nothing but the unparsed bytes), **`carveAll_append`** and **`carveEach_eq_carveAll`**.
-/

namespace TrafficGate.Stream

open Http

/-- How many exchanges the pieces end. -/
def finalsIn (pieces : List Carved) : Nat := Seq.total (pieces.map Carved.finals)

theorem finalsIn_cons (p : Carved) (pieces : List Carved) :
    finalsIn (p :: pieces) = p.finals + finalsIn pieces := by
  simp [finalsIn]

namespace Accumulator

/-! ## 1. Where a search starts -/

/-- **No empty line starts before the offset from which the next search starts**, whatever bytes
    come behind. -/
def Searched (a : Accumulator) : Prop :=
  ∀ more, ∀ j < a.scanned, ¬ terminator <+: (a.unparsed ++ more).drop j

theorem searched_empty : empty.Searched := fun _ j hj => absurd hj (Nat.not_lt_zero j)

theorem Searched.append {a : Accumulator} (h : a.Searched) (bs : Bytes) :
    (a.append bs).Searched := by
  intro more j hj
  rw [unparsed_append, List.append_assoc]
  exact h (bs ++ more) j hj

theorem Searched.skip {a : Accumulator} (h : a.Searched) (n : Nat) : (a.skip n).Searched := by
  intro more j hj
  simp only [Accumulator.skip, front, List.length_take] at hj
  -- the offset moves back by the bytes that leave
  have hmove : a.unparsed.drop n = a.unparsed.drop (min n a.unparsed.length) := by
    rcases Nat.le_total n a.unparsed.length with hle | hle
    · rw [Nat.min_eq_left hle]
    · rw [Nat.min_eq_right hle, List.drop_eq_nil_of_le hle, List.drop_length]
  have hbefore := h more (min n a.unparsed.length + j) (by omega)
  rwa [← List.drop_drop, List.drop_append_of_le_length (Nat.min_le_right ..), ← hmove] at hbefore

theorem Searched.compact {a : Accumulator} (h : a.Searched) : a.compact.Searched := h

theorem Searched.quiet {a : Accumulator} (h : a.Searched) :
    ∀ j < a.scanned, ¬ terminator <+: a.unparsed.drop j := by
  have := h []
  rwa [List.append_nil] at this

/-- **A step does the same as one that searches from the first byte.** -/
theorem Searched.step_eq {a : Accumulator} (h : a.Searched) (side : Side)
    (answersHead : Nat → Bool) (finals : Nat) :
    a.step side answersHead finals =
      carveFrom a.unparsed side 0 (decide (side = .response) && answersHead finals) :=
  carveFrom_of_quiet h.quiet side _

/-- **The offset that a waiting step asks for is one from which a search may start.** -/
theorem Searched.setHeadScan {a : Accumulator} (h : a.Searched) {side : Side}
    {answersHead : Nat → Bool} {finals k : Nat}
    (hk : a.step side answersHead finals = .needMore k) :
    (a.setHeadScan k).Searched := by
  intro more j hj
  have hlt : j < k := Nat.lt_of_lt_of_le hj (Nat.min_le_left ..)
  obtain ⟨hroom, hquiet⟩ := quiet_of_needMore h.quiet hk j hlt
  rw [unparsed_setHeadScan, List.drop_append_of_le_length (by omega)]
  intro hp
  exact hquiet ((Seq.prefix_append_iff (by rw [List.length_drop]; omega) more).mp hp)

/-! ## 2. Piece by piece -/

theorem isNeedMore_of_piece? {a : Accumulator} {c : Carve} {p : Carved} (h : a.piece? c = some p) :
    c.isNeedMore = false := by
  cases c with
  | needMore k => cases h
  | _ => rfl

theorem eq_needMore_of_piece? {a : Accumulator} {c : Carve} (h : a.piece? c = none) :
    c = .needMore (scanAfter c) := by
  cases c with
  | needMore k => rfl
  | _ => cases h

/-- A piece that is a message is what its step found. -/
theorem step_of_message {a : Accumulator} {c : Carve} {m : Message}
    (h : a.piece? c = some (.message m)) : c = .complete m := by
  cases c with
  | complete m' =>
    cases h
    rfl
  | _ => cases h

theorem walk_of_none {side : Side} {answersHead : Nat → Bool} {finals : Nat} {a : Accumulator}
    (h : a.piece? (a.step side answersHead finals) = none) :
    a.walk side answersHead finals =
      ([], a.setHeadScan (scanAfter (a.step side answersHead finals))) := by
  rw [walk]
  split
  · rfl
  · next p hp => rw [h] at hp; cases hp

theorem walk_of_some {side : Side} {answersHead : Nat → Bool} {finals : Nat} {a : Accumulator}
    {p : Carved} (h : a.piece? (a.step side answersHead finals) = some p) :
    a.walk side answersHead finals =
      let rest := a.skip (a.step side answersHead finals).consumed
      if rest.isEmpty then ([p], rest)
      else
        let (more, last) := rest.walk side answersHead (finals + p.finals)
        (p :: more, last) := by
  rw [walk]
  split
  · next hn => rw [h] at hn; cases hn
  · next q hq =>
    rw [h] at hq
    cases hq
    rfl

/-- Responses may be counted from a later one on. -/
theorem walk_shift (side : Side) (answersHead : Nat → Bool) (k finals : Nat) (a : Accumulator) :
    a.walk side answersHead (k + finals) = a.walk side (fun n => answersHead (k + n)) finals := by
  induction hn : a.unparsed.length using Nat.strongRecOn generalizing a finals with
  | _ n ih =>
    cases hp : a.piece? (a.step side answersHead (k + finals)) with
    | none =>
      have hp' : a.piece? (a.step side (fun n => answersHead (k + n)) finals) = none := hp
      rw [walk_of_none hp, walk_of_none hp']
      rfl
    | some p =>
      have hp' : a.piece? (a.step side (fun n => answersHead (k + n)) finals) = some p := hp
      rw [walk_of_some hp, walk_of_some hp']
      have hlt := length_skip_step hp
      rw [hn] at hlt
      have := ih _ hlt (finals + p.finals) (a.skip (a.step side answersHead (k + finals)).consumed)
        rfl
      rw [← Nat.add_assoc] at this
      simp only [this]
      rfl

/-- Carving when no piece is at the front. -/
theorem carveAll_of_none {side : Side} {answersHead : Nat → Bool} {a : Accumulator} {k : Nat}
    (h : a.step side answersHead 0 = .needMore k) :
    a.carveAll side answersHead = ([], (a.setHeadScan k).compact) := by
  have hp : a.piece? (a.step side answersHead 0) = none := by rw [h]; rfl
  rw [carveAll, walk_of_none hp, h]
  rfl

/-- The search starts afresh behind a piece. -/
theorem scanned_skip_step {side : Side} {answersHead : Nat → Bool} {finals : Nat} {a : Accumulator}
    (h : (a.step side answersHead finals).isNeedMore = false) :
    (a.skip (a.step side answersHead finals).consumed).scanned = 0 := by
  have hscan := scan_le_consumed h
  have hend := (consumed_carveFrom h).2
  simp only [skip, front, List.length_take, step] at *
  omega

/-- **Carving when a piece is at the front**: the piece, and what carving the rest gives. -/
theorem carveAll_of_some {side : Side} {answersHead : Nat → Bool} {a : Accumulator} {p : Carved}
    (h : a.piece? (a.step side answersHead 0) = some p) :
    a.carveAll side answersHead =
      let (more, last) := (a.skip (a.step side answersHead 0).consumed).carveAll side
        fun n => answersHead (p.finals + n)
      (p :: more, last) := by
  rw [carveAll, walk_of_some h]
  simp only []
  split
  · next he =>
    -- nothing is left, so carving the rest gives nothing
    have hscan := scanned_skip_step (isNeedMore_of_piece? h)
    generalize a.skip (a.step side answersHead 0).consumed = rest at he hscan
    obtain ⟨passed, unparsed, scanned⟩ := rest
    obtain rfl : unparsed = [] := List.isEmpty_iff.mp he
    obtain rfl : scanned = 0 := hscan
    rw [carveAll_of_none (k := 0) rfl]
    rfl
  · rw [carveAll, ← walk_shift, Nat.add_zero, Nat.zero_add]

/-- **Induction over carving**: what holds of an accumulator at which a step waits, and of one with
    a piece at the front when it holds of the rest, the responses counted on, holds of every one. -/
theorem carve_induction (side : Side) {motive : (Nat → Bool) → Accumulator → Prop}
    (waits : ∀ answersHead a k, a.step side answersHead 0 = .needMore k → motive answersHead a)
    (piece : ∀ answersHead a p, a.piece? (a.step side answersHead 0) = some p →
      motive (fun n => answersHead (p.finals + n))
        (a.skip (a.step side answersHead 0).consumed) → motive answersHead a)
    (answersHead : Nat → Bool) (a : Accumulator) : motive answersHead a := by
  induction hn : a.unparsed.length using Nat.strongRecOn generalizing a answersHead with
  | _ n ih =>
    cases hp : a.piece? (a.step side answersHead 0) with
    | none => exact waits answersHead a _ (eq_needMore_of_piece? hp)
    | some p =>
      have hlt := length_skip_step hp
      rw [hn] at hlt
      exact piece answersHead a p hp (ih _ hlt _ _ rfl)

/-- Carving keeps the invariant of the search. -/
theorem Searched.carveAll {a : Accumulator} (h : a.Searched) (side : Side)
    (answersHead : Nat → Bool) : (a.carveAll side answersHead).2.Searched := by
  induction answersHead, a using carve_induction side with
  | waits answersHead a k hk =>
    rw [carveAll_of_none hk]
    exact (h.setHeadScan hk).compact
  | piece answersHead a p hp ih =>
    rw [carveAll_of_some hp]
    exact ih (h.skip _)

/-- **Carving reads nothing but the unparsed bytes.** -/
theorem carveAll_congr {a b : Accumulator} (ha : a.Searched) (hb : b.Searched)
    (hu : a.unparsed = b.unparsed) (side : Side) (answersHead : Nat → Bool) :
    a.carveAll side answersHead = b.carveAll side answersHead := by
  have hstep : ∀ {a b : Accumulator} (answersHead : Nat → Bool), a.Searched → b.Searched →
      a.unparsed = b.unparsed → a.step side answersHead 0 = b.step side answersHead 0 := by
    intro a b answersHead ha hb hu
    rw [ha.step_eq, hb.step_eq, hu]
  induction answersHead, a using carve_induction side generalizing b with
  | waits answersHead a k hk =>
    have hk' := (hstep answersHead ha hb hu).symm.trans hk
    rw [carveAll_of_none hk, carveAll_of_none hk']
    simp only [setHeadScan, compact, hu]
  | piece answersHead a p hp ih =>
    have hpiece : a.piece? = b.piece? := by
      funext c
      cases c <;> simp only [piece?, front, hu]
    have hp' : b.piece? (b.step side answersHead 0) = some p := by
      rw [← hstep answersHead ha hb hu, ← hpiece, hp]
    rw [carveAll_of_some hp, carveAll_of_some hp', ← hstep answersHead ha hb hu,
      ih (ha.skip _) (hb.skip _) (by rw [unparsed_skip, unparsed_skip, hu])]

/-! ## 3. One cut -/

theorem append_nil (a : Accumulator) : a.append [] = a := by
  simp only [append, List.append_nil]

theorem append_append (a : Accumulator) (x y : Bytes) :
    a.append (x ++ y) = (a.append x).append y := by
  simp only [append, List.append_assoc]

/-- Bytes that leave from the front leave before what is appended. -/
theorem skip_append {n : Nat} {a : Accumulator} (h : n ≤ a.unparsed.length) (more : Bytes) :
    (a.append more).skip n = (a.skip n).append more := by
  simp only [skip, append, front, List.take_append_of_le_length h,
    List.drop_append_of_le_length h]

theorem piece?_append {a : Accumulator} {c : Carve} (h : c.consumed ≤ a.unparsed.length)
    (more : Bytes) : (a.append more).piece? c = a.piece? c := by
  cases c with
  | complete m => rfl
  | tunnel n =>
    have hn : n ≤ a.unparsed.length := h
    simp only [piece?, front, unparsed_append, List.take_append_of_le_length hn]
  | malformed n flaw =>
    have hn : n ≤ a.unparsed.length := h
    simp only [piece?, front, unparsed_append, List.take_append_of_le_length hn]
  | needMore k => rfl

/-- **Carving with a cut anywhere in the bytes**: first what is there, then, with the responses
    counted on, the rest with what is appended. -/
theorem carveAll_append {a : Accumulator} (h : a.Searched) (side : Side)
    (answersHead : Nat → Bool) (more : Bytes) :
    (a.append more).carveAll side answersHead =
      let (pieces, rest) := a.carveAll side answersHead
      let (later, last) := (rest.append more).carveAll side
        fun n => answersHead (finalsIn pieces + n)
      (pieces ++ later, last) := by
  induction answersHead, a using carve_induction side with
  | waits answersHead a k hk =>
    -- nothing is taken before the cut
    rw [carveAll_of_none hk]
    simp only [finalsIn, List.map_nil, Seq.total_nil, Nat.zero_add, List.nil_append]
    exact carveAll_congr (h.append more) ((h.setHeadScan hk).compact.append more) rfl side
      answersHead
  | piece answersHead a p hp ih =>
    -- the piece in front of the cut is decided there
    have hmore := isNeedMore_of_piece? hp
    have hend : (a.step side answersHead 0).consumed ≤ a.unparsed.length :=
      (consumed_carveFrom hmore).2
    have hstep : (a.append more).step side answersHead 0 = a.step side answersHead 0 :=
      carveFrom_append hmore more
    have hp' : (a.append more).piece? ((a.append more).step side answersHead 0) = some p := by
      rw [hstep, piece?_append hend]
      exact hp
    rw [carveAll_of_some hp, carveAll_of_some hp', hstep, skip_append hend, ih (h.skip _)]
    simp only [finalsIn_cons, Nat.add_assoc, List.cons_append]

/-- Carving again takes nothing and changes nothing. -/
theorem carveAll_carveAll {a : Accumulator} (h : a.Searched) (side : Side)
    (answersHead : Nat → Bool) :
    (a.carveAll side answersHead).2.carveAll side
        (fun n => answersHead (finalsIn (a.carveAll side answersHead).1 + n)) =
      ([], (a.carveAll side answersHead).2) := by
  have hcut := carveAll_append h side answersHead []
  simp only [append_nil] at hcut
  generalize a.carveAll side answersHead = r at *
  have h1 := congrArg Prod.fst hcut
  have h2 := congrArg Prod.snd hcut
  simp only [List.self_eq_append_right] at h1 h2
  rw [Prod.ext_iff]
  exact ⟨h1, h2.symm⟩

/-! ## 4. Any number of fragments -/

/-- Takes in fragments one after the other, and takes every complete message after each. The
    responses of a stream are numbered through: `finals` of them have ended exchanges before. -/
def carveEach (side : Side) (answersHead : Nat → Bool) (finals : Nat) (fragments : List Bytes)
    (a : Accumulator) : List Carved × Accumulator :=
  takeNumbered finalsIn (fun answersHead bs a => (a.append bs).carveAll side answersHead)
    answersHead finals fragments a

theorem carveEach_cons (side : Side) (answersHead : Nat → Bool) (finals : Nat) (bs : Bytes)
    (rest : List Bytes) (a : Accumulator) : carveEach side answersHead finals (bs :: rest) a =
      let (pieces, next) := (a.append bs).carveAll side fun n => answersHead (finals + n)
      let (more, last) := carveEach side answersHead (finals + finalsIn pieces) rest next
      (pieces ++ more, last) := takeNumbered_cons

/-- Fragments behind bytes from which everything complete was taken. -/
theorem carveEach_of_settled {side : Side} {answersHead : Nat → Bool} (fragments : List Bytes)
    {finals : Nat} {a : Accumulator} (h : a.Searched)
    (hs : a.carveAll side (fun n => answersHead (finals + n)) = ([], a)) :
    carveEach side answersHead finals fragments a =
      (a.append fragments.flatten).carveAll side fun n => answersHead (finals + n) := by
  induction fragments generalizing finals a with
  | nil =>
    rw [List.flatten_nil, append_nil, hs]
    rfl
  | cons bs rest ih =>
    have hsettled := carveAll_carveAll (h.append bs) side fun n => answersHead (finals + n)
    have hsearched := (h.append bs).carveAll side fun n => answersHead (finals + n)
    rw [List.flatten_cons, append_append, carveAll_append (h.append bs), carveEach_cons]
    generalize (a.append bs).carveAll side (fun n => answersHead (finals + n)) = r at *
    simp only [← Nat.add_assoc] at hsettled ⊢
    rw [ih hsearched hsettled]

/-- **Carving does not depend on fragments.** Whatever the fragments are, the pieces taken, in their
    order, and what is left behind the last one are those of all bytes at once. -/
theorem carveEach_eq_carveAll (side : Side) (answersHead : Nat → Bool) (fragments : List Bytes) :
    carveEach side answersHead 0 fragments empty =
      (empty.append fragments.flatten).carveAll side answersHead := by
  have hempty : empty.carveAll side (fun n => answersHead (0 + n)) = ([], empty) :=
    carveAll_of_none (k := 0) rfl
  simpa only [Nat.zero_add] using carveEach_of_settled fragments searched_empty hempty

end Accumulator

end TrafficGate.Stream
