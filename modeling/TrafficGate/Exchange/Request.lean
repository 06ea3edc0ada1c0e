import TrafficGate.Http.Message
import TrafficGate.Url.Canonical
/-!
  # Requests

  A request as verdicts are passed on it, whatever it was observed on: framed from the bytes of a
  flow, reported as a call, or a resolved name.

  1. `Request` and the one without anything but a URL;
  2. the URL of a framed request: its target, put behind the host that its `Host` field names;
  3. `ofMessage` -- a request from a framed message;
  4. `dedupKey?` -- what a repetition of it is recognised by.

  Main facts: **`ofMessage_flow`** (a framed request carries its flow) and
  **`dedupKey?_ne_nil`** (a key is never empty).
-/

namespace TrafficGate.Exchange

open Http

/-! ## 1. Requests -/

/-- A request. -/
structure Request where
  /-- The flow it was framed from, if it was. -/
  flow : Option FlowId
  transport : Transport
  method : Text
  url : Text
  /-- What rules are matched against. -/
  canonical : Text
  /-- The lines behind the request line. -/
  headers : Text
  body : Option Bytes
  contentType : Option Text
  /-- What the observer notes about the caller. -/
  snapshot : Option Text
  /-- The name, when the request is the resolution of one. -/
  dnsHost : Option Text
  dnsAddresses : List Text
  deriving DecidableEq, Repr

namespace Request

/-- A request for a URL, with nothing else known. -/
def ofUrl (transport : Transport) (method url : Text) : Request :=
  { flow := none, transport, method, url, canonical := Url.canonical url, headers := [],
    body := none, contentType := none, snapshot := none, dnsHost := none, dnsAddresses := [] }

/-! ## 2. The URL of a framed request -/

/-- Whether a target is a URL of its own. -/
def isAbsolute (target : Text) : Bool :=
  "http://".toList.isPrefixOf (Ascii.lower target) ||
    "https://".toList.isPrefixOf (Ascii.lower target)

/-- The URL of a target: itself if it is absolute, else the target behind scheme and host. -/
def urlOf (scheme target : Text) (hostField : Option Text) : Except Flaw Text :=
  if isAbsolute target then .ok target
  else
    match (hostField.map Text.trim).filter fun h => !h.isEmpty with
    | none => .error .missingHost
    | some host =>
      let origin := scheme ++ "://".toList ++ host
      if target = ['*'] then .ok origin
      else if "/".toList.isPrefixOf target then .ok (origin ++ target)
      else .error (.badTarget target)

/-! ## 3. From a message -/

/-- The request of a message that was framed from a flow. -/
def ofMessage (flow : FlowId) (m : Message) : Except Flaw Request :=
  match RequestLine.parse m.startLine with
  | .error flaw => .error flaw
  | .ok line =>
    match urlOf flow.scheme line.target (m.field? "host".toList) with
    | .error flaw => .error flaw
    | .ok url =>
      .ok { ofUrl flow.transport line.method url with
        flow := some flow, headers := m.fieldText, body := m.body,
        contentType := m.field? "content-type".toList }

/-- Messages with one head give the same request, each with its own body. -/
theorem ofMessage_of_head_eq {m m' : Message} (h : m'.head = m.head) (flow : FlowId) :
    ofMessage flow m' = (ofMessage flow m).map fun r => { r with body := m'.body } := by
  unfold ofMessage Message.startLine Message.field? Message.fieldText
  rw [h]
  cases RequestLine.parse (Head.startLine m.head) with
  | error flaw => rfl
  | ok line =>
    simp only []
    cases urlOf flow.scheme line.target (Head.find? "host".toList m.head) <;> rfl

/-- **A framed request carries its flow.** -/
theorem ofMessage_flow {flow : FlowId} {m : Message} {r : Request}
    (h : ofMessage flow m = .ok r) : r.flow = some flow := by
  unfold ofMessage at h
  split at h
  · cases h
  · split at h
    · cases h
    · cases h
      rfl

/-! ## 4. Repetitions -/

/-- What a repetition of the request is recognised by: the name it resolves, else its canonical
    URL; nothing when both are empty. -/
def dedupKey? (r : Request) : Option Text :=
  match r.dnsHost.filter fun h => !h.isEmpty with
  | some host => some host
  | none => if r.canonical.isEmpty then none else some r.canonical

/-- **A key is never empty.** -/
theorem dedupKey?_ne_nil {r : Request} {key : Text} (h : r.dedupKey? = some key) : key ≠ [] := by
  unfold dedupKey? at h
  split at h
  · next host hf =>
    cases h
    have := (Option.filter_eq_some_iff.mp hf).2
    intro he
    simp [he] at this
  · split at h
    · cases h
    · next hn =>
      cases h
      intro he
      simp [he] at hn

end Request

end TrafficGate.Exchange
