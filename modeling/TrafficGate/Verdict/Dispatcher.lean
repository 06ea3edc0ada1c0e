import TrafficGate.Verdict.Event
import TrafficGate.Verdict.Blobs
/-!
  # Publishing verdicts

  A request that was decided is published twice, on the channel of its classification and on the
  channel of all verdicts, but only the first time: repetitions are recognised by a key and not
  published again. A blocked request is aborted each time. Large bodies go to a keeper.

  1. the keys that were seen, as many as a limit allows; a full set is emptied;
  2. bodies: in place below a threshold, else by a handle, else left out;
  3. `dispatch`.

  Main facts: **`dispatch_disposition`** (a match is an abort, whether published or not) and
  **`length_note_le`** (no more keys than the limit are kept).
-/

namespace TrafficGate.Verdict

open Exchange

/-- What a dispatcher knows. -/
structure Dispatcher where
  /-- How many keys are kept. -/
  capacity : Nat
  /-- Bodies of this size and above go to the keeper. -/
  threshold : Nat
  /-- The keys that were seen, the last first. -/
  seen : List Text
  deriving DecidableEq, Repr

namespace Dispatcher

/-- A dispatcher that has seen nothing. A capacity of zero counts as one. -/
def empty (capacity threshold : Nat) : Dispatcher :=
  { capacity := max capacity 1, threshold, seen := [] }

/-! ## 1. Keys -/

/-- Keeps a new key; a full set is emptied before. -/
def note (key : Text) (d : Dispatcher) : Dispatcher :=
  if d.capacity ≤ d.seen.length then { d with seen := [key] } else { d with seen := key :: d.seen }

/-- Whether the request comes for the first time, and what is seen then. A request without a key
    never does. -/
def firstSeen (r : Request) (d : Dispatcher) : Bool × Dispatcher :=
  match r.dedupKey? with
  | none => (false, d)
  | some key => if d.seen.contains key then (false, d) else (true, d.note key)

/-- **No more keys than the limit are kept.** -/
theorem length_note_le {key : Text} {d : Dispatcher} (hc : 0 < d.capacity) :
    (d.note key).seen.length ≤ d.capacity := by
  unfold note
  split
  · exact hc
  · simp only [List.length_cons]
    omega

/-! ## 2. Bodies -/

/-- The type of a body of which none is known. -/
def defaultMimeType : Text := "application/octet-stream".toList

variable {W : Type}

/-- The reference to a body. -/
def bodyRef (keeper : Keeper W) (d : Dispatcher) (body : Option Bytes) (mimeType : Option Text)
    (w : W) : Option BodyRef × W :=
  match body with
  | none => (none, w)
  | some bytes =>
    if bytes.length < d.threshold then (some (.inPlace bytes), w)
    else
      let mimeType := mimeType.getD defaultMimeType
      match keeper.keep bytes mimeType w with
      | (some handle, w) => (some (.stored handle mimeType bytes.length), w)
      | (none, w) => (none, w)

/-! ## 3. Dispatching -/

/-- The copies of a verdict, in the order in which they are published. -/
def publish (keeper : Keeper W) (now : Time.Timestamp) (d : Dispatcher) (request : Request)
    (response : Option Response) (matched : Option Rule) (w : W) : List Event × W :=
  let (requestBody, w) := d.bodyRef keeper request.body request.contentType w
  let (responseBody, w) :=
    d.bodyRef keeper (response.bind (·.body)) (response.bind (·.mimeType?)) w
  let copy (channel : Channel) : Event :=
    Event.of request response matched requestBody responseBody channel now
  ([copy (Classification.ofMatch matched).channel, copy .all], w)

/-- What becomes of a request that a rule matched or not. -/
def dispositionFor (request : Request) (matched : Option Rule) : Disposition :=
  match matched with
  | some rule => .abort request.url (some rule)
  | none => .proceed

/-- Publishes the verdict on a request, unless it is a repetition. -/
def dispatch (keeper : Keeper W) (now : Time.Timestamp) (request : Request)
    (response : Option Response) (matched : Option Rule) (d : Dispatcher) (w : W) :
    Disposition × List Event × Dispatcher × W :=
  match d.firstSeen request with
  | (true, d) =>
    let (events, w) := d.publish keeper now request response matched w
    (dispositionFor request matched, events, d, w)
  | (false, d) => (dispositionFor request matched, [], d, w)

/-- **A match is an abort, whether the verdict is published or not.** -/
theorem dispatch_disposition (keeper : Keeper W) (now : Time.Timestamp) (request : Request)
    (response : Option Response) (matched : Option Rule) (d : Dispatcher) (w : W) :
    (dispatch keeper now request response matched d w).1 = dispositionFor request matched := by
  unfold dispatch
  split <;> rfl

end Dispatcher

end TrafficGate.Verdict
