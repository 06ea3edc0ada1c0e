import TrafficGate.Stream.Carving
import TrafficGate.Http.Resync
import TrafficGate.Table
/-!
  # Buffers of flows

  One accumulator for each flow and side with bytes that wait, and a limit on them. A message that
  outgrows the limit is given up; its head is kept if it is there, and the rest of it is dropped as
  it comes.

  1. `Framed` -- what an arrival of bytes gives;
  2. `Buffer` -- an accumulator and what is being dropped;
  3. `Buffers` -- the buffers of all flows and sides; idle ones are not kept.

  Main facts: **`find?_receive_other`** (bytes of one flow and side do not touch another) and
  **`receive_nil`** (no bytes change nothing).
-/

namespace TrafficGate.Stream

open Http

/-! ## 1. What comes out -/

/-- What an arrival of bytes gives, in the order of the bytes. -/
inductive Framed where
  /-- A complete message. -/
  | message (m : Message)
  /-- The head of a message that is too large; its body is dropped. -/
  | truncated (m : Message)
  /-- A message was given up before its head was complete. -/
  | lost (dropped : Nat)
  deriving DecidableEq, Repr

/-! ## 2. One buffer -/

/-- How the bytes behind a message that was given up are treated. -/
inductive Recovery where
  /-- There is none to treat. -/
  | none
  /-- This many bytes of it are still to come. -/
  | discard (remaining : Nat)
  /-- Its end is unknown; bytes up to the next start of a message are dropped. -/
  | resync
  deriving DecidableEq, Repr

/-- The waiting bytes of one flow and side. -/
structure Buffer where
  acc : Accumulator
  recovery : Recovery
  deriving DecidableEq, Repr

namespace Buffer

/-- A buffer before its first byte. -/
def empty : Buffer := { acc := Accumulator.empty, recovery := .none }

/-- Whether nothing waits and nothing is to be dropped. -/
def isIdle (b : Buffer) : Bool := b.acc.isEmpty && b.recovery = .none

/-- What is still to be dropped of `remaining` bytes when `present` bytes are there. -/
def afterDiscard (remaining present : Nat) : Recovery :=
  if remaining ≤ present then .none else .discard (remaining - present)

/-- Drops bytes that belong to the message given up. While no start is found the last bytes are
    kept, since a start may be cut off there. -/
def recover (side : Side) (b : Buffer) : Buffer :=
  match b.recovery with
  | .none => { b with acc := b.acc.compact }
  | .discard remaining =>
    { acc := (b.acc.skip remaining).compact,
      recovery := afterDiscard remaining b.acc.unparsed.length }
  | .resync =>
    match findStart? side b.acc.unparsed with
    | some start => { acc := (b.acc.skip start).compact, recovery := .none }
    | none =>
      let keep := min b.acc.unparsed.length openingLength
      { acc := (b.acc.skip (b.acc.unparsed.length - keep)).compact, recovery := .resync }

/-- What is done with the rest of a message that is given up with `buffered` bytes of it there. -/
def recoveryFor (buffered : Nat) (framedLength : Option Nat) : Recovery :=
  match framedLength with
  | some total => if buffered < total then .discard (total - buffered) else .none
  | none => .resync

/-- Gives up the message at the front. -/
def overflow (side : Side) (b : Buffer) : Option Framed × Buffer :=
  let buffered := b.acc.unparsed.length
  let truncated := Truncated.read? b.acc.unparsed side
  let recovery := recoveryFor buffered (truncated.bind (·.framedLength))
  let framed := match truncated with
    | some t => t.message.map Framed.truncated
    | none => some (.lost buffered)
  (framed, { acc := b.acc.reset, recovery })

/-- Takes in bytes: drops what is to be dropped, carves every complete message, and gives up the
    next one if more than `limit` bytes of it wait. -/
def receive (limit : Nat) (side : Side) (answersHead : Nat → Bool) (bs : Bytes) (b : Buffer) :
    List Framed × Buffer :=
  let b := recover side { b with acc := b.acc.append bs }
  let (carved, acc) := b.acc.carveAll side answersHead
  let messages := (carved.filterMap Carved.message?).map Framed.message
  if limit < acc.unparsed.length then
    let (framed, b) := overflow side { b with acc }
    (messages ++ framed.toList, b)
  else (messages, { b with acc })

end Buffer

/-! ## 3. All buffers -/

/-- The buffers of all flows and sides. -/
structure Buffers where
  /-- How many bytes of a message may wait. -/
  limit : Nat
  table : Table (FlowId × Side) Buffer
  deriving DecidableEq, Repr

namespace Buffers

/-- No buffers. -/
def empty (limit : Nat) : Buffers := { limit, table := [] }

/-- The buffer of a flow and side. -/
def buffer (flow : FlowId) (side : Side) (s : Buffers) : Buffer :=
  (s.table.find? (flow, side)).getD Buffer.empty

/-- Keeps the buffer of a flow and side unless it is idle. -/
def keep (flow : FlowId) (side : Side) (b : Buffer) (s : Buffers) : Buffers :=
  if b.isIdle then { s with table := s.table.erase (flow, side) }
  else { s with table := s.table.set (flow, side) b }

/-- Takes in bytes of a flow and side, and gives what became complete. -/
def receive (flow : FlowId) (side : Side) (answersHead : Nat → Bool) (bs : Bytes) (s : Buffers) :
    List Framed × Buffers :=
  if bs.isEmpty then ([], s)
  else
    let (framed, b) := (s.buffer flow side).receive s.limit side answersHead bs
    (framed, s.keep flow side b)

/-- Drops both buffers of a flow. -/
def removeFlow (flow : FlowId) (s : Buffers) : Buffers :=
  { s with table := (s.table.erase (flow, .request)).erase (flow, .response) }

/-- How many bytes of a flow and side wait. -/
def buffered (flow : FlowId) (side : Side) (s : Buffers) : Nat :=
  (s.buffer flow side).acc.unparsed.length

/-- How many buffers there are. -/
def size (s : Buffers) : Nat := s.table.length

/-- **No bytes change nothing.** -/
theorem receive_nil (flow : FlowId) (side : Side) (answersHead : Nat → Bool) (s : Buffers) :
    s.receive flow side answersHead [] = ([], s) := rfl

/-- Keeping a buffer touches its own row only. -/
theorem find?_keep_other {flow : FlowId} {side : Side} {k : FlowId × Side} (h : k ≠ (flow, side))
    (b : Buffer) (s : Buffers) :
    (s.keep flow side b).table.find? k = s.table.find? k := by
  unfold keep
  split
  · exact Table.find?_erase_other h s.table
  · exact Table.find?_set_other h b s.table

/-- **Bytes of one flow and side do not touch another's.** -/
theorem find?_receive_other {flow : FlowId} {side : Side} {k : FlowId × Side}
    (h : k ≠ (flow, side)) (answersHead : Nat → Bool) (bs : Bytes) (s : Buffers) :
    (s.receive flow side answersHead bs).2.table.find? k = s.table.find? k := by
  unfold receive
  split
  · rfl
  · exact find?_keep_other h _ s

end Buffers

end TrafficGate.Stream
