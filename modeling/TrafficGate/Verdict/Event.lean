import TrafficGate.Exchange.Request
import TrafficGate.Exchange.Response
import TrafficGate.Rule.Kind
import TrafficGate.Time.Timestamp
/-!
  # Verdicts

  What is published about a request: whether it was blocked, with the exchange it belongs to.

  1. `Classification` -- blocked or passed, and `Channel` -- where a copy is published;
  2. `BodyRef` -- a body, in place when it is small and else by its handle;
  3. `Event` -- a published copy;
  4. `Disposition` -- what becomes of the traffic.

  Main facts: **`abort_or`** (the first abort stands) and **`or_assoc`** (dispositions are joined in
  any grouping).
-/

namespace TrafficGate.Verdict

open Exchange

/-! ## 1. Classifications and channels -/

/-- What became of a request. -/
inductive Classification where
  | blocked
  | passed
  deriving DecidableEq, Repr

/-- Where a copy of a verdict is published. -/
inductive Channel where
  | all
  | blocked
  | passed
  deriving DecidableEq, Repr

namespace Classification

/-- A request is blocked when a rule matched. -/
def ofMatch : Option Rule → Classification
  | some _ => blocked
  | none => passed

/-- The channel of a classification. -/
def channel : Classification → Channel
  | blocked => .blocked
  | passed => .passed

/-- The name of a classification. -/
def name : Classification → Text
  | blocked => "blocked".toList
  | passed => "passed".toList

/-- The classification of a name, spelled exactly. -/
def ofName? (t : Text) : Option Classification := [blocked, passed].find? fun c => c.name == t

/-- The name of a classification is read back. -/
theorem ofName?_name (c : Classification) : ofName? c.name = some c := by cases c <;> decide

end Classification

namespace Channel

/-- The short name of a channel. -/
def shortName : Channel → Text
  | all => "all".toList
  | blocked => "block".toList
  | passed => "pass".toList

/-- The name of a channel, as records carry it. -/
def name : Channel → Text
  | all => "all".toList
  | blocked => "blocked".toList
  | passed => "passed".toList

/-- The channel of a name, spelled exactly. -/
def ofName? (t : Text) : Option Channel := [all, blocked, passed].find? fun c => c.name == t

end Channel

/-! ## 2. Bodies -/

/-- A body of a published verdict. -/
inductive BodyRef where
  /-- The bytes themselves. -/
  | inPlace (bytes : Bytes)
  /-- A body that is kept elsewhere. -/
  | stored (handle mimeType : Text) (size : Nat)
  deriving DecidableEq, Repr

namespace BodyRef

/-- The number of bytes of the body. -/
def size : BodyRef → Nat
  | inPlace bytes => bytes.length
  | stored _ _ n => n

/-- The handle of a body that is kept elsewhere. -/
def handle? : BodyRef → Option Text
  | inPlace _ => none
  | stored handle _ _ => some handle

end BodyRef

/-! ## 3. Events -/

/-- A copy of a verdict, as it is published on a channel. -/
structure Event where
  flow : Option FlowId
  transport : Transport
  channel : Channel
  classification : Classification
  method : Text
  url : Text
  canonical : Text
  requestHeaders : Text
  responseHeaders : Option Text
  status : Option Nat
  statusMessage : Option Text
  contentDescriptor : Option Text
  /-- The rule that matched. -/
  matched : Option Rule
  requestBody : Option BodyRef
  responseBody : Option BodyRef
  snapshot : Option Text
  dnsHost : Option Text
  dnsAddresses : List Text
  timestamp : Time.Timestamp
  deriving DecidableEq, Repr

namespace Event

/-- The verdict on a request, with the response it was joined to. -/
def of (request : Request) (response : Option Response) (matched : Option Rule)
    (requestBody responseBody : Option BodyRef) (channel : Channel) (now : Time.Timestamp) :
    Event :=
  { flow := request.flow, transport := request.transport, channel,
    classification := Classification.ofMatch matched, method := request.method,
    url := request.url, canonical := request.canonical, requestHeaders := request.headers,
    responseHeaders := response.map (·.headers), status := response.map (·.status),
    statusMessage := response.map (·.statusMessage),
    contentDescriptor := response.bind (·.contentDescriptor), matched, requestBody, responseBody,
    snapshot := request.snapshot, dnsHost := request.dnsHost,
    dnsAddresses := request.dnsAddresses, timestamp := now }

end Event

/-! ## 4. Dispositions -/

/-- What becomes of the traffic that was just observed. -/
inductive Disposition where
  /-- It goes on. -/
  | proceed
  /-- It is aborted, because of a request for this URL and the rule that matched it. -/
  | abort (url : Text) (rule : Option Rule)
  deriving DecidableEq, Repr

namespace Disposition

/-- The first abort of two. -/
def or : Disposition → Disposition → Disposition
  | abort url rule, _ => abort url rule
  | proceed, other => other

/-- Whether the traffic is aborted. -/
def isAbort : Disposition → Bool
  | abort _ _ => true
  | proceed => false

/-- The text of the refusal that an aborted reader or writer is given. -/
def refusal? : Disposition → Option Text
  | abort url _ => some ("request blocked: ".toList ++ url)
  | proceed => none

@[simp] theorem proceed_or (d : Disposition) : proceed.or d = d := rfl

/-- **The first abort stands.** -/
@[simp] theorem abort_or (url : Text) (rule : Option Rule) (d : Disposition) :
    (abort url rule).or d = abort url rule := rfl

@[simp] theorem or_proceed (d : Disposition) : d.or proceed = d := by cases d <;> rfl

/-- **Dispositions are joined in any grouping.** -/
theorem or_assoc (a b c : Disposition) : (a.or b).or c = a.or (b.or c) := by cases a <;> rfl

end Disposition

end TrafficGate.Verdict
