import TrafficGate.Stream.Accumulator
import TrafficGate.Http.Carve
/-!
  # Carving a stream

  Taking every complete message from the front of an accumulator, in order.

  1. `Carved` -- a message, or bytes that gave none, with the reason;
  2. `walk` -- step after step until more bytes are needed. Responses that end an exchange are
     counted: whether the `n`-th of them answers a HEAD request is asked by that number;
  3. `carveAll` -- the walk, and then the bytes that left are forgotten.

  Main fact: **`raws_walk`** (the bytes of all pieces, in order, and the rest are what was there).
-/

namespace TrafficGate.Stream

open Http

/-! ## 1. Pieces -/

/-- Why bytes gave no message. -/
inductive SkipReason where
  | tunnel
  | malformed (flaw : Flaw)
  deriving DecidableEq, Repr

/-- The text of a reason. -/
def SkipReason.message : SkipReason → Text
  | tunnel => "tunnel".toList
  | malformed flaw => "malformed: ".toList ++ flaw.message

/-- A piece of a carved stream. -/
inductive Carved where
  | message (m : Message)
  | skipped (bytes : Bytes) (reason : SkipReason)
  deriving DecidableEq, Repr

namespace Carved

/-- The bytes of a piece. -/
def raw : Carved → Bytes
  | message m => m.raw
  | skipped bytes _ => bytes

/-- The message of a piece that is one. -/
def message? : Carved → Option Message
  | message m => some m
  | skipped _ _ => none

/-- How many exchanges a piece ends: one if it is a final response. -/
def finals : Carved → Nat
  | message m => if m.isFinal then 1 else 0
  | skipped _ _ => 0

end Carved

/-! ## 2. The walk -/

namespace Accumulator

/-- The step at the front of the accumulator, `finals` responses of this walk having ended
    exchanges before it. -/
def step (side : Side) (answersHead : Nat → Bool) (finals : Nat) (a : Accumulator) : Carve :=
  carveFrom a.unparsed side a.scanned (decide (side = .response) && answersHead finals)

/-- The piece that a step found; `none` when more bytes are needed. -/
def piece? (a : Accumulator) : Carve → Option Carved
  | .complete m => some (.message m)
  | .tunnel n => some (.skipped (a.front n) .tunnel)
  | .malformed n flaw => some (.skipped (a.front n) (.malformed flaw))
  | .needMore _ => none

/-- A step with a piece leaves fewer bytes. -/
theorem length_skip_step {side : Side} {answersHead : Nat → Bool} {finals : Nat} {a : Accumulator}
    {p : Carved} (h : a.piece? (a.step side answersHead finals) = some p) :
    (a.skip (a.step side answersHead finals).consumed).unparsed.length < a.unparsed.length := by
  have hn : (a.step side answersHead finals).isNeedMore = false := by
    revert h
    cases a.step side answersHead finals <;> intro h <;> first | rfl | cases h
  have hb := consumed_carveFrom hn
  simp only [unparsed_skip, List.length_drop, step, terminator, List.length_cons,
    List.length_nil] at *
  omega

/-- The offset that a step asks the next search to start at. -/
def scanAfter : Carve → Nat
  | .needMore scan => scan
  | _ => 0

/-- Takes pieces until more bytes are needed or none are left. -/
def walk (side : Side) (answersHead : Nat → Bool) (finals : Nat) (a : Accumulator) :
    List Carved × Accumulator :=
  match _h : a.piece? (a.step side answersHead finals) with
  | none => ([], a.setHeadScan (scanAfter (a.step side answersHead finals)))
  | some p =>
    let rest := a.skip (a.step side answersHead finals).consumed
    if rest.isEmpty then ([p], rest)
    else
      let (more, last) := walk side answersHead (finals + p.finals) rest
      (p :: more, last)
termination_by a.unparsed.length
decreasing_by exact length_skip_step _h

/-- The bytes of a piece are those that its step consumed. -/
theorem raw_of_piece? {side : Side} {answersHead : Nat → Bool} {finals : Nat} {a : Accumulator}
    {p : Carved} (h : a.piece? (a.step side answersHead finals) = some p) :
    p.raw = a.front (a.step side answersHead finals).consumed := by
  revert h
  cases he : a.step side answersHead finals <;> intro h <;> cases h
  · exact (raw_of_carveFrom he).symm
  · rfl
  · rfl

/-- **The bytes of all pieces, in order, and the rest are what was there.** -/
theorem raws_walk (side : Side) (answersHead : Nat → Bool) (finals : Nat) (a : Accumulator) :
    (a.walk side answersHead finals).1.flatMap Carved.raw ++
      (a.walk side answersHead finals).2.unparsed = a.unparsed := by
  fun_induction walk side answersHead finals a with
  | case1 => rfl
  | case2 finals a p h rest he =>
    simp [raw_of_piece? h, front, rest]
  | case3 finals a p h rest he more last hw ih =>
    rw [hw] at ih
    simp only [List.flatMap_cons, List.append_assoc]
    rw [ih, raw_of_piece? h]
    exact List.take_append_drop _ _

/-! ## 3. Everything that is complete -/

/-- Takes every complete message, and reports the bytes that gave none. -/
def carveAll (side : Side) (answersHead : Nat → Bool) (a : Accumulator) :
    List Carved × Accumulator :=
  let (pieces, rest) := a.walk side answersHead 0
  (pieces, rest.compact)

end Accumulator

end TrafficGate.Stream
