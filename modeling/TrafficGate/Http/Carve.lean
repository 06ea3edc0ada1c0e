import TrafficGate.Http.Message
import TrafficGate.Http.Chunked
/-!
  # Carving one message

  What the bytes at a message boundary are: a message, a tunnel request, unusable bytes of known
  length, or the start of something longer.

  1. `Frame` -- the body behind a head and how many bytes it takes;
  2. `carve` -- the step, with the search for the end of the head starting at an offset;
  3. bounds: a step that consumes anything consumes the four bytes of an empty line at least, and
     no more than there is.

  Main facts: **`Frame.length_resolve_le`** (a body takes no byte that is not there),
  **`consumed_carveFrom`** (the bounds of a step) and **`raw_of_carveFrom`** (the bytes of a message
  are the first ones).
-/

namespace TrafficGate.Http

/-! ## 1. Bodies -/

/-- The body behind a head. -/
inductive Frame where
  /-- The body takes `length` bytes. -/
  | framed (body : Option Bytes) (length : Nat)
  /-- The body is not there yet. -/
  | incomplete
  /-- The coding of the body breaks after `length` bytes. -/
  | misframed (length : Nat) (flaw : Flaw)
  deriving DecidableEq, Repr

namespace Frame

/-- Bytes as a body; no bytes are no body. -/
def ofBytes (bs : Bytes) : Option Bytes := if bs.isEmpty then none else some bs

/-- The body of a chunked message. -/
def ofChunked : Chunked → Frame
  | .complete body consumed => framed (ofBytes body) consumed
  | .incomplete => incomplete
  | .malformed consumed flaw => misframed consumed flaw

/-- The body that the declared length cuts from the bytes behind the head. -/
def ofLength (length : Nat) (rest : Bytes) : Frame :=
  if length = 0 then framed none 0
  else if (rest.drop (length - 1)).isEmpty then incomplete
  else framed (some (rest.take length)) length

/-- Whether a message with this status has no body, whatever its fields say: a bodiless code, or
    any answer to a HEAD request. -/
def isForbidden (status : Option Nat) (answersHead : Bool) : Bool :=
  match status with
  | some code => StatusLine.isBodiless code || answersHead
  | none => false

/-- The body behind the head, `rest` being the bytes there. Only responses are read as chunked. -/
def resolve (head : Text) (side : Side) (status : Option Nat) (answersHead : Bool)
    (rest : Bytes) : Frame :=
  if isForbidden status answersHead then framed none 0
  else if side = .response ∧ Head.isChunked head then ofChunked (Chunked.decode rest)
  else ofLength (Head.contentLength head) rest

/-- How many bytes a body takes. -/
def length : Frame → Nat
  | framed _ n => n
  | incomplete => 0
  | misframed n _ => n

theorem length_ofChunked (c : Chunked) : (ofChunked c).length = c.consumed := by
  cases c <;> rfl

theorem length_ofLength_le (n : Nat) (rest : Bytes) : (ofLength n rest).length ≤ rest.length := by
  unfold ofLength
  split
  · exact Nat.zero_le _
  · split
    · exact Nat.zero_le _
    · next h =>
      rw [List.isEmpty_iff, List.drop_eq_nil_iff] at h
      simp only [length]
      omega

/-- **A body takes no byte that is not there.** -/
theorem length_resolve_le (head : Text) (side : Side) (status : Option Nat) (answersHead : Bool)
    (rest : Bytes) : (resolve head side status answersHead rest).length ≤ rest.length := by
  unfold resolve
  split
  · exact Nat.zero_le _
  · split
    · rw [length_ofChunked]
      exact Chunked.consumed_decode_le rest
    · exact length_ofLength_le _ _

end Frame

/-! ## 2. The step -/

/-- What the bytes at a message boundary are. -/
inductive Carve where
  /-- A message; its own bytes are those consumed. -/
  | complete (message : Message)
  /-- A tunnel request of `consumed` bytes, which gives no message. -/
  | tunnel (consumed : Nat)
  /-- `consumed` bytes that cannot be used. -/
  | malformed (consumed : Nat) (flaw : Flaw)
  /-- The message is not complete; the next search for the end of its head may start at `scan`. -/
  | needMore (scan : Nat)
  deriving DecidableEq, Repr

namespace Carve

/-- How many bytes a result consumes. -/
def consumed : Carve → Nat
  | complete m => m.raw.length
  | tunnel n => n
  | malformed n _ => n
  | needMore _ => 0

/-- Whether a result ends the walk over the bytes. -/
def isNeedMore : Carve → Bool
  | needMore _ => true
  | _ => false

end Carve

/-- Where the first empty line at or behind `start` begins. -/
def findTerminator? (data : Bytes) (start : Nat) : Option Nat :=
  (Seq.indexOf? terminator (data.drop start)).map (start + ·)

/-- What the bytes are whose head ends at `headEnd`, where the empty line begins. -/
def carveHead (data : Bytes) (side : Side) (answersHead : Bool) (headEnd : Nat) : Carve :=
  let bodyStart := headEnd + terminator.length
  let head := Head.decode side (data.take headEnd)
  let line := Head.startLine head
  if side = .request ∧ Head.opensTunnel line then .tunnel bodyStart
  else
    let status := Head.status side line
    match Frame.resolve head side (Head.code? status) answersHead (data.drop bodyStart) with
    | .incomplete => .needMore headEnd
    | .misframed length flaw => .malformed (bodyStart + length) flaw
    | .framed body length =>
      match status with
      | .error flaw => .malformed (bodyStart + length) flaw
      | .ok status => .complete { side, raw := data.take (bodyStart + length), head, body, status }

/-- One step over bytes that start at a message boundary. The end of the head is searched from
    `scan` on; `answersHead` tells that the message answers a HEAD request. Without an empty line,
    one that is cut off begins in the last three bytes. -/
def carveFrom (data : Bytes) (side : Side) (scan : Nat) (answersHead : Bool) : Carve :=
  match findTerminator? data scan with
  | none => .needMore (data.length - (terminator.length - 1))
  | some headEnd => carveHead data side answersHead headEnd

/-- One step over bytes that start at a message boundary. -/
def carve (data : Bytes) (side : Side) : Carve := carveFrom data side 0 false

/-! ## 3. Bounds -/

/-- An empty line that was found lies in the bytes. -/
theorem findTerminator?_le {data : Bytes} {start i : Nat}
    (h : findTerminator? data start = some i) : i + terminator.length ≤ data.length := by
  obtain ⟨j, hj, rfl⟩ := Option.map_eq_some_iff.mp h
  have := Seq.indexOf?_add_le hj
  simp only [terminator, List.length_drop, List.length_cons, List.length_nil] at *
  omega

/-- The bounds of a step whose head was found. -/
theorem consumed_carveHead {data : Bytes} {side : Side} {answersHead : Bool} {i : Nat}
    (hi : i + terminator.length ≤ data.length)
    (hn : (carveHead data side answersHead i).isNeedMore = false) :
    terminator.length ≤ (carveHead data side answersHead i).consumed ∧
      (carveHead data side answersHead i).consumed ≤ data.length := by
  have hl := Frame.length_resolve_le (Head.decode side (data.take i)) side
    (Head.code? (Head.status side (Head.startLine (Head.decode side (data.take i))))) answersHead
    (data.drop (i + terminator.length))
  rw [List.length_drop] at hl
  unfold carveHead at hn ⊢
  simp only [] at hn ⊢
  split at hn
  · next hc =>
    rw [if_pos hc]
    simp only [Carve.consumed]
    omega
  · next hc =>
    rw [if_neg hc]
    split at hn
    · cases hn
    · next he =>
      rw [he] at hl
      simp only [Carve.consumed, Frame.length] at *
      omega
    · next he =>
      rw [he] at hl
      simp only [Frame.length] at hl
      split
      · simp only [Carve.consumed]
        omega
      · simp only [Carve.consumed, List.length_take]
        omega

/-- **A step that consumes anything consumes four bytes at least, and no more than there is.** -/
theorem consumed_carveFrom {data : Bytes} {side : Side} {scan : Nat} {answersHead : Bool}
    (hn : (carveFrom data side scan answersHead).isNeedMore = false) :
    terminator.length ≤ (carveFrom data side scan answersHead).consumed ∧
      (carveFrom data side scan answersHead).consumed ≤ data.length := by
  unfold carveFrom at hn ⊢
  split
  · next h => rw [h] at hn; cases hn
  · next i h =>
    rw [h] at hn
    exact consumed_carveHead (findTerminator?_le h) hn

/-- The first bytes, cut at their own length. -/
theorem take_length_take (n : Nat) (data : Bytes) :
    data.take (data.take n).length = data.take n := by
  rw [List.length_take]
  rcases Nat.le_total n data.length with h | h
  · rw [Nat.min_eq_left h]
  · rw [Nat.min_eq_right h, List.take_of_length_le h, List.take_length]

/-- **The bytes of a message are the first bytes of the input.** -/
theorem raw_of_carveFrom {data : Bytes} {side : Side} {scan : Nat} {answersHead : Bool}
    {m : Message} (h : carveFrom data side scan answersHead = .complete m) :
    data.take m.raw.length = m.raw := by
  unfold carveFrom at h
  split at h
  · cases h
  · unfold carveHead at h
    simp only [] at h
    split at h
    · cases h
    · split at h
      · cases h
      · cases h
      · split at h
        · cases h
        · cases h
          exact take_length_take _ data

end TrafficGate.Http
