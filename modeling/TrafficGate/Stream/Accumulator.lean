import TrafficGate.Text.Ascii
/-!
  # Accumulators

  The bytes of one flow and side that no message has taken yet. They arrive in any fragments and
  leave from the front.

  1. the state: how many bytes have left since the last `compact`, the bytes that are still there,
     and how far these were searched for the end of a head;
  2. the operations;
  3. what they keep.

  Main facts: **`take_append_unparsed`** (taken bytes and the rest are what was there) and
  **`headScan_le`** (a search never starts behind the bytes).
-/

namespace TrafficGate.Stream

/-! ## 1. The state -/

/-- Bytes waiting to be framed. -/
structure Accumulator where
  /-- How many bytes left since the last `compact`. -/
  passed : Nat
  /-- The bytes that are still there. -/
  unparsed : Bytes
  /-- No head ends before this offset. -/
  scanned : Nat
  deriving DecidableEq, Repr

namespace Accumulator

/-- No bytes. -/
def empty : Accumulator := { passed := 0, unparsed := [], scanned := 0 }

/-! ## 2. The operations -/

/-- Adds a fragment at the end. -/
def append (bs : Bytes) (a : Accumulator) : Accumulator := { a with unparsed := a.unparsed ++ bs }

/-- The first `n` bytes that are there, or all of them. -/
def front (n : Nat) (a : Accumulator) : Bytes := a.unparsed.take n

/-- Removes the first `n` bytes, or all of them. -/
def skip (n : Nat) (a : Accumulator) : Accumulator :=
  let moved := (a.front n).length
  { passed := a.passed + moved, unparsed := a.unparsed.drop n, scanned := a.scanned - moved }

/-- Hands out the first `n` bytes, or all of them. -/
def take (n : Nat) (a : Accumulator) : Bytes × Accumulator := (a.front n, a.skip n)

/-- The offset at which the next search for the end of a head may start. -/
def headScan (a : Accumulator) : Nat := min a.scanned a.unparsed.length

/-- Records that no head ends before the offset. -/
def setHeadScan (n : Nat) (a : Accumulator) : Accumulator :=
  { a with scanned := min n a.unparsed.length }

/-- Forgets the bytes that left. -/
def compact (a : Accumulator) : Accumulator := { a with passed := 0 }

/-- Drops everything. -/
def reset (_ : Accumulator) : Accumulator := empty

/-- Whether no byte is there. -/
def isEmpty (a : Accumulator) : Bool := a.unparsed.isEmpty

/-! ## 3. What they keep -/

@[simp] theorem unparsed_append (bs : Bytes) (a : Accumulator) :
    (a.append bs).unparsed = a.unparsed ++ bs := rfl

@[simp] theorem unparsed_skip (n : Nat) (a : Accumulator) :
    (a.skip n).unparsed = a.unparsed.drop n := rfl

@[simp] theorem unparsed_setHeadScan (n : Nat) (a : Accumulator) :
    (a.setHeadScan n).unparsed = a.unparsed := rfl

@[simp] theorem unparsed_compact (a : Accumulator) : a.compact.unparsed = a.unparsed := rfl

/-- **The bytes handed out and the rest are what was there.** -/
theorem take_append_unparsed (n : Nat) (a : Accumulator) :
    (a.take n).1 ++ (a.take n).2.unparsed = a.unparsed := List.take_append_drop n a.unparsed

/-- **A search never starts behind the bytes.** -/
theorem headScan_le (a : Accumulator) : a.headScan ≤ a.unparsed.length := Nat.min_le_right ..

end Accumulator

end TrafficGate.Stream
