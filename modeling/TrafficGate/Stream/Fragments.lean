import TrafficGate.Stream.Buffers
/-!
  # Feeding in fragments

  Data that arrives in fragments of one length. Most fragments complete nothing, and then as many of
  them as are known to be such are taken in together: what is waiting is gone through once for all of
  them, and not once for each.

  1. `feed` -- taking in data in fragments, given how many bytes can be taken in together;
  2. `patience` -- how many these are, for an accumulator and for the buffers of flows.

  Main facts: **`feed_nil`** (no data change nothing) and **`feed_one_by_one`** (fragments that are
  never taken together are taken in one after the other).
-/

namespace TrafficGate.Stream

open Http

/-! ## 1. Feeding -/

variable {S R : Type}

/-- The state behind data that is taken in by fragments of `n` bytes, with the results found. Each
    result has the number of the last fragment that it is of; `number` is that of the first one. -/
def feedFrom (n : Nat) (patience : Bytes → S → Nat) (receive : Bytes → S → R × S) (number : Nat)
    (found : List (Nat × R)) (data : Bytes) (s : S) : List (Nat × R) × S :=
  if _h : data = [] then (found.reverse, s)
  else
    let together := max 1 (patience data s / max n 1)
    let r := receive (data.take (together * max n 1)) s
    feedFrom n patience receive (number + together) ((number + together - 1, r.1) :: found)
      (data.drop (together * max n 1)) r.2
termination_by data.length
decreasing_by
  have := List.length_pos_iff.mpr _h
  have : 0 < max 1 (patience data s / max n 1) * max n 1 := Nat.mul_pos (by omega) (by omega)
  simp only [List.length_drop]
  omega

/-- Takes in data by fragments of `n` bytes. Of the next bytes, `patience` may tell any number such
    that no fragment of them gives a result worth keeping. -/
def feed (n : Nat) (patience : Bytes → S → Nat) (receive : Bytes → S → R × S) (data : Bytes)
    (s : S) : List (Nat × R) × S :=
  feedFrom n patience receive 0 [] data s

/-- **No data change nothing.** -/
theorem feed_nil (n : Nat) (patience : Bytes → S → Nat) (receive : Bytes → S → R × S) (s : S) :
    feed n patience receive [] s = ([], s) := by
  simp [feed, feedFrom]

theorem feedFrom_one_by_one (n : Nat) (receive : Bytes → S → R × S) (number : Nat)
    (found : List (Nat × R)) (data : Bytes) (s : S) :
    (feedFrom n (fun _ _ => 0) receive number found data s).2 =
      (Seq.chunks n data).foldl (fun s piece => (receive piece s).2) s := by
  induction h : data.length using Nat.strongRecOn generalizing number found data s with
  | _ k ih =>
    unfold feedFrom Seq.chunks
    split
    · rfl
    · next hd =>
      have hpos := List.length_pos_iff.mpr hd
      simp only [Nat.zero_div, Nat.max_zero, Nat.one_mul, List.foldl_cons]
      exact ih (data.drop (max n 1)).length (by simp only [List.length_drop]; omega) _ _ _ _ rfl

/-- **Fragments that are never taken together are taken in one after the other.** -/
theorem feed_one_by_one (n : Nat) (receive : Bytes → S → R × S) (data : Bytes) (s : S) :
    (feed n (fun _ _ => 0) receive data s).2 =
      (Seq.chunks n data).foldl (fun s piece => (receive piece s).2) s :=
  feedFrom_one_by_one n receive 0 [] data s

/-! ## 2. Patience -/

/-- The bytes of those ahead at which an accumulator looks: about as many as are waiting. -/
def Accumulator.sight (ahead : Bytes) (a : Accumulator) : Bytes :=
  ahead.take (max 64 a.unparsed.length)

/-- How many of the bytes ahead complete nothing: all that are seen, or those before the last byte of
    the first piece. -/
def Accumulator.patience (side : Side) (answersHead : Nat → Bool) (ahead : Bytes)
    (a : Accumulator) : Nat :=
  match (a.append (a.sight ahead)).step side answersHead 0 with
  | .needMore _ => (a.sight ahead).length
  | found => found.consumed - a.unparsed.length - 1

/-- How many of the bytes ahead complete nothing and do not go over the limit. While bytes are
    dropped, each fragment counts. -/
def Buffer.patience (limit : Nat) (side : Side) (answersHead : Nat → Bool) (ahead : Bytes)
    (b : Buffer) : Nat :=
  match b.recovery with
  | .none => min (b.acc.patience side answersHead ahead) (limit - b.acc.unparsed.length)
  | _ => 0

/-- How many of the bytes ahead complete nothing for a flow and side. -/
def Buffers.patience (flow : FlowId) (side : Side) (answersHead : Nat → Bool) (ahead : Bytes)
    (s : Buffers) : Nat :=
  (s.buffer flow side).patience s.limit side answersHead ahead

end TrafficGate.Stream
