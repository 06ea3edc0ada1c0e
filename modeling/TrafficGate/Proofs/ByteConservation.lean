import TrafficGate.Proofs.InputRuns
import TrafficGate.Stream.Carving
/-!
  # No byte is lost

  An accumulator is used in any order: fragments arrive, bytes are taken or passed over, messages are
  carved, and what left is forgotten. The bytes may be anything, so also tunnels, unusable heads and
  broken chunked bodies, whose length each comes from another computation.

  1. what a piece takes: exactly the bytes that its step consumed, never fewer because fewer are there;
  2. `Operation` -- what can be done with an accumulator, and the ranges that it hands out;
  3. one operation, and from it any number of them.

  Main facts: **`length_raw_of_piece?`**, **`Operation.perform_unparsed`** and **`run_conserves`** (the ranges
  handed out, in order, and the bytes still there are what was there and all that was appended).
-/

namespace TrafficGate.Stream

open Http

namespace Accumulator

/-! ## 1. What a piece takes -/

/-- **A piece is as long as its step says.** The length that the step computed is never cut by the
    end of the bytes, whichever branch computed it. -/
theorem length_raw_of_piece? {side : Side} {answersHead : Nat → Bool} {finals : Nat}
    {a : Accumulator} {p : Carved} (h : a.piece? (a.step side answersHead finals) = some p) :
    p.raw.length = (a.step side answersHead finals).consumed := by
  have hn : (a.step side answersHead finals).isNeedMore = false := by
    cases hs : a.step side answersHead finals with
    | needMore scan => rw [hs] at h; cases h
    | complete | tunnel | malformed => rfl
  have hbound : (a.step side answersHead finals).consumed ≤ a.unparsed.length :=
    (consumed_carveFrom hn).2
  rw [raw_of_piece? h, front, List.length_take, Nat.min_eq_left hbound]

/-! ## 2. Operations -/

/-- What can be done with an accumulator. -/
inductive Operation where
  /-- A fragment arrives. -/
  | append (bs : Bytes)
  /-- The first `n` bytes are handed out. -/
  | take (n : Nat)
  /-- The first `n` bytes are passed over. -/
  | skip (n : Nat)
  /-- An offset is recorded before which no head shall end; it may be wrong. -/
  | mark (offset : Nat)
  /-- The bytes that left are forgotten. -/
  | compact
  /-- Every complete message is carved, with the answers of this call to which responses answer a
      HEAD request. -/
  | carve (side : Side) (answersHead : Nat → Bool)

/-- The bytes that the first accumulator has in front and the second one has passed. -/
def passedOver (a b : Accumulator) : Bytes := a.front (b.passed - a.passed)

namespace Operation

/-- The bytes that an operation brings. -/
def appended : Operation → Bytes
  | append bs => bs
  | _ => []

/-- Carries out an operation: the ranges handed out, in order, and the accumulator after it. -/
def perform : Operation → Accumulator → List Bytes × Accumulator
  | append bs, a => ([], a.append bs)
  | take n, a => ([(a.take n).1], (a.take n).2)
  | skip n, a => ([a.passedOver (a.skip n)], a.skip n)
  | mark offset, a => ([], a.setHeadScan offset)
  | compact, a => ([], a.compact)
  | carve side answersHead, a =>
    ((a.carveAll side answersHead).1.map Carved.raw, (a.carveAll side answersHead).2)

end Operation

/-- Carries out operations one after the other. -/
def run (ops : List Operation) (a : Accumulator) : List Bytes × Accumulator :=
  takeEach Operation.perform ops a

/-! ## 3. What they conserve -/

/-- What `skip` passes over is what it removes. -/
theorem passedOver_skip (n : Nat) (a : Accumulator) : a.passedOver (a.skip n) = a.front n := by
  simp only [passedOver, front, skip, Nat.add_sub_cancel_left, List.length_take]
  rw [List.take_eq_take_iff]
  omega

/-- What `carveAll` hands out and leaves is what was there. -/
theorem raws_carveAll (side : Side) (answersHead : Nat → Bool) (a : Accumulator) :
    ((a.carveAll side answersHead).1.map Carved.raw).flatten ++
      (a.carveAll side answersHead).2.unparsed = a.unparsed := by
  simpa only [carveAll, unparsed_compact, List.flatMap_def] using raws_walk side answersHead 0 a

/-- **One operation conserves the bytes.** -/
theorem Operation.perform_unparsed (op : Operation) (a : Accumulator) :
    (op.perform a).1.flatten ++ (op.perform a).2.unparsed = a.unparsed ++ op.appended := by
  cases op with
  | append bs => rfl
  | take n =>
    simpa only [perform, appended, List.flatten_cons, List.flatten_nil, List.append_nil]
      using take_append_unparsed n a
  | skip n =>
    have hsplit : a.front n ++ (a.skip n).unparsed = a.unparsed := take_append_unparsed n a
    simpa only [perform, appended, passedOver_skip, List.flatten_cons, List.flatten_nil,
      List.append_nil] using hsplit
  | mark offset => simp only [perform, appended, unparsed_setHeadScan, List.flatten_nil,
      List.nil_append, List.append_nil]
  | compact => simp only [perform, appended, unparsed_compact, List.flatten_nil,
      List.nil_append, List.append_nil]
  | carve side answersHead =>
    simpa only [perform, appended, List.append_nil] using raws_carveAll side answersHead a

/-- **No byte is lost, doubled or moved**: the ranges handed out, in order, and the bytes still there
    are what was there and then everything that was appended. -/
theorem run_conserves (ops : List Operation) (a : Accumulator) :
    (run ops a).1.flatten ++ (run ops a).2.unparsed =
      a.unparsed ++ ops.flatMap Operation.appended := by
  induction ops generalizing a with
  | nil => exact (List.append_nil a.unparsed).symm
  | cons op ops ih =>
    calc (run (op :: ops) a).1.flatten ++ (run (op :: ops) a).2.unparsed
        = (op.perform a).1.flatten ++
            ((run ops (op.perform a).2).1.flatten ++ (run ops (op.perform a).2).2.unparsed) := by
          simp only [run, takeEach, List.flatten_append, List.append_assoc]
      _ = ((op.perform a).1.flatten ++ (op.perform a).2.unparsed) ++
            ops.flatMap Operation.appended := by rw [ih, List.append_assoc]
      _ = a.unparsed ++ (op :: ops).flatMap Operation.appended := by
          rw [op.perform_unparsed, List.flatMap_cons, List.append_assoc]

end Accumulator

end TrafficGate.Stream
