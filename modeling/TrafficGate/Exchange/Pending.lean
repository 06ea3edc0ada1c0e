import TrafficGate.Exchange.Request
import TrafficGate.Table
/-!
  # Requests that wait for their responses

  Each flow has a queue of requests, oldest first; a response belongs to the oldest. A queue has a
  limit, and a push at the limit drops the oldest request. Queues without requests are not kept.

  Main facts: **`length_push_le`** (a queue keeps to its limit) and **`queue_push_other`** (a push
  on one flow leaves the others).
-/

namespace TrafficGate.Exchange

/-- The queues of all flows. -/
structure Pending where
  /-- The longest queue allowed. -/
  limit : Nat
  table : Table FlowId (List Request)
  deriving DecidableEq, Repr

namespace Pending

/-- No queues. A limit of zero counts as one. -/
def empty (limit : Nat) : Pending := { limit := max limit 1, table := [] }

/-- The queue of a flow, oldest request first. -/
def queue (flow : FlowId) (p : Pending) : List Request := (p.table.find? flow).getD []

/-- The queue with room for one more request under the limit. -/
def makeRoom (limit : Nat) (q : List Request) : List Request :=
  if limit ≤ q.length then q.tail else q

/-- Adds a request at the end of the flow's queue. -/
def push (flow : FlowId) (r : Request) (p : Pending) : Pending :=
  { p with table := p.table.set flow (makeRoom p.limit (p.queue flow) ++ [r]) }

/-- How many requests of the flow wait. -/
def count (flow : FlowId) (p : Pending) : Nat := (p.queue flow).length

/-- The place in the queue of the request that was pushed last. -/
def lastPlace (flow : FlowId) (p : Pending) : Nat := p.count flow - 1

/-- Removes the oldest request of the flow. -/
def takeOldest (flow : FlowId) (p : Pending) : Option Request × Pending :=
  match p.queue flow with
  | [] => (none, { p with table := p.table.erase flow })
  | [r] => (some r, { p with table := p.table.erase flow })
  | r :: rest => (some r, { p with table := p.table.set flow rest })

/-- Whether the request at a place of the flow's queue is a HEAD request, in any case. -/
def isHeadAt (flow : FlowId) (place : Nat) (p : Pending) : Bool :=
  match (p.queue flow)[place]? with
  | some r => Ascii.sameWord r.method "HEAD".toList
  | none => false

/-- Drops the queue of a flow. -/
def removeFlow (flow : FlowId) (p : Pending) : Pending :=
  { p with table := p.table.erase flow }

/-- How many requests wait in all. -/
def total (p : Pending) : Nat := Seq.total (p.table.map fun row => row.2.length)

/-- How many flows have a queue. -/
def flows (p : Pending) : Nat := p.table.length

theorem queue_push_self (flow : FlowId) (r : Request) (p : Pending) :
    (p.push flow r).queue flow = makeRoom p.limit (p.queue flow) ++ [r] := by
  simp [push, queue, Table.find?_set_self]

/-- **A push on one flow leaves the queues of the others.** -/
theorem queue_push_other {flow other : FlowId} (h : other ≠ flow) (r : Request) (p : Pending) :
    (p.push flow r).queue other = p.queue other := by
  simp [push, queue, Table.find?_set_other h]

/-- **A queue within its limit stays within it.** -/
theorem length_push_le {flow : FlowId} {r : Request} {p : Pending} (hl : 0 < p.limit)
    (h : p.count flow ≤ p.limit) : (p.push flow r).count flow ≤ p.limit := by
  have hroom : (makeRoom p.limit (p.queue flow)).length < p.limit := by
    unfold makeRoom
    simp only [count] at h
    split
    · rw [List.length_tail]
      omega
    · omega
  simp only [count, queue_push_self, List.length_append, List.length_singleton]
  omega

end Pending

end TrafficGate.Exchange
