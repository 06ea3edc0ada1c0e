import TrafficGate.Json.Member
import TrafficGate.Json.Render
import TrafficGate.Verdict.Event
/-!
  # The journal

  A verdict as a line of JSON, with its fields in a fixed order. Each verdict has one line: the copy
  on the channel of all verdicts is written, the other is not.

  1. writing verdicts as JSON;
  2. reading them back;
  3. the lines of the journal.

  Main facts: **`flowOfJson?_json`** and **`ruleOfJson?_json`** (flows and rules are read back),
  **`lines_append`** (events are written in their order) and **`lines_other`** (a copy on another
  channel has no line).
-/

namespace TrafficGate.Verdict

/-! ## 1. Writing -/

/-- A flow as JSON. -/
def flowJson (f : FlowId) : Json :=
  .record [("id".toList, .nat f.id), ("secure".toList, .bool f.secure)]

/-- A rule that matched as JSON. -/
def ruleJson (r : Rule) : Json :=
  .record [("rule_type".toList, .text r.kind.name), ("address".toList, .text r.value)]

/-- A byte as JSON. -/
def byteJson (b : UInt8) : Json := .nat b.toNat

/-- A body as JSON. -/
def BodyRef.json : BodyRef → Json
  | inPlace bytes =>
    .record [("kind".toList, .text "inline".toList),
      ("bytes".toList, .arr (bytes.map byteJson))]
  | stored handle mimeType size =>
    .record [("kind".toList, .text "stored".toList), ("handle".toList, .text handle),
      ("mime_type".toList, .text mimeType), ("size".toList, .nat size)]

/-- A published copy as JSON. -/
def Event.json (e : Event) : Json :=
  .record [("flow".toList, .ofOption flowJson e.flow),
    ("transport".toList, .text e.transport.name),
    ("channel".toList, .text e.channel.name),
    ("classification".toList, .text e.classification.name),
    ("method".toList, .text e.method),
    ("url".toList, .text e.url),
    ("canonical".toList, .text e.canonical),
    ("request_headers".toList, .text e.requestHeaders),
    ("response_headers".toList, .ofOption .text e.responseHeaders),
    ("status".toList, .ofOption .nat e.status),
    ("status_message".toList, .ofOption .text e.statusMessage),
    ("content_descriptor".toList, .ofOption .text e.contentDescriptor),
    ("matched".toList, .ofOption ruleJson e.matched),
    ("request_body".toList, .ofOption BodyRef.json e.requestBody),
    ("response_body".toList, .ofOption BodyRef.json e.responseBody),
    ("snapshot".toList, .ofOption .text e.snapshot),
    ("dns_host".toList, .ofOption .text e.dnsHost),
    ("dns_addresses".toList, .arr (e.dnsAddresses.map .text)),
    ("timestamp".toList, .text e.timestamp.shortest)]

/-! ## 2. Reading -/

/-- The members of a record. -/
def membersOf? : Json → Option Json.Members
  | .obj members => some members
  | _ => none

/-- The flow of the members of a record. -/
def flowOfMembers? (members : Json.Members) : Option FlowId := do
  some { id := ← members.nat? "id".toList, secure := ← members.bool? "secure".toList }

/-- The flow of a JSON value: a record, or the list of its two values. -/
def flowOfJson? : Json → Option FlowId
  | .obj members => flowOfMembers? members
  | .arr [id, secure] => do some { id := ← id.nat?, secure := ← secure.bool? }
  | _ => none

/-- The rule of the members of a record. -/
def ruleOfMembers? (members : Json.Members) : Option Rule := do
  some { kind := ← (members.name? "rule_type".toList).bind Rule.Kind.ofName?,
         value := ← members.text? "address".toList }

/-- The rule of a JSON value: a record, or the list of its two values. -/
def ruleOfJson? : Json → Option Rule
  | .obj members => ruleOfMembers? members
  | .arr [kind, address] => do
    some { kind := ← kind.name?.bind Rule.Kind.ofName?, value := ← address.text? }
  | _ => none

/-- The byte of a JSON value. -/
def byteOfJson? (j : Json) : Option UInt8 := (j.nat?.filter (· < 256)).map UInt8.ofNat

/-- The bytes of a list. -/
def bytesOfJson? (j : Json) : Option Bytes := j.elements?.bind fun values => values.mapM byteOfJson?

/-- The body of the members of a record. -/
def BodyRef.ofMembers? (members : Json.Members) : Option BodyRef := do
  let kind ← members.text? "kind".toList
  if kind = "inline".toList then
    some (.inPlace (← members.read? bytesOfJson? "bytes".toList))
  else if kind = "stored".toList then
    some (.stored (← members.text? "handle".toList) (← members.text? "mime_type".toList)
      (← members.nat? "size".toList))
  else none

/-- The body of a JSON value: a record, or the list of its kind and the values of that kind. -/
def BodyRef.ofJson? : Json → Option BodyRef
  | .obj members => ofMembers? members
  | .arr [kind, bytes] => do
    if (← kind.text?) = "inline".toList then some (.inPlace (← bytesOfJson? bytes)) else none
  | .arr [kind, handle, mimeType, size] => do
    if (← kind.text?) = "stored".toList then
      some (.stored (← handle.text?) (← mimeType.text?) (← size.nat?))
    else none
  | _ => none

/-- The copy of a JSON value. -/
def Event.ofJson? (j : Json) : Option Event := do
  let m ← membersOf? j
  some {
    flow := ← m.optional? flowOfJson? "flow".toList,
    transport := ← (m.name? "transport".toList).bind Transport.ofName?,
    channel := ← (m.name? "channel".toList).bind Channel.ofName?,
    classification := ← (m.name? "classification".toList).bind Classification.ofName?,
    method := ← m.text? "method".toList,
    url := ← m.text? "url".toList,
    canonical := ← m.text? "canonical".toList,
    requestHeaders := ← m.text? "request_headers".toList,
    responseHeaders := ← m.optional? Json.text? "response_headers".toList,
    status := ← m.optional? Json.nat? "status".toList,
    statusMessage := ← m.optional? Json.text? "status_message".toList,
    contentDescriptor := ← m.optional? Json.text? "content_descriptor".toList,
    matched := ← m.optional? ruleOfJson? "matched".toList,
    requestBody := ← m.optional? BodyRef.ofJson? "request_body".toList,
    responseBody := ← m.optional? BodyRef.ofJson? "response_body".toList,
    snapshot := ← m.optional? Json.text? "snapshot".toList,
    dnsHost := ← m.optional? Json.text? "dns_host".toList,
    dnsAddresses := ← m.texts? "dns_addresses".toList,
    timestamp := ← (m.text? "timestamp".toList).bind Time.Timestamp.readRelaxed? }

/-- **A flow is read back**, if its number is one of 64 bits. -/
theorem flowOfJson?_json {f : FlowId} (h : f.id < Numeral.wordBound) :
    flowOfJson? (flowJson f) = some f := by
  have hn : (Json.nat f.id).nat? = some f.id := Json.Number.natural?_ofNat h
  simp [flowJson, flowOfJson?, flowOfMembers?, Json.record, Json.Members.nat?, Json.Members.bool?,
    Json.Members.read?, Json.Members.only?, Json.Members.values, hn, Json.bool?]

/-- **A rule is read back.** -/
theorem ruleOfJson?_json (r : Rule) : ruleOfJson? (ruleJson r) = some r := by
  simp [ruleJson, ruleOfJson?, ruleOfMembers?, Json.record, Json.Members.text?,
    Json.Members.name?, Json.Members.read?, Json.Members.only?, Json.Members.values, Json.text,
    Json.text?, Json.name?, Rule.Kind.ofName?_name]

/-! ## 3. Lines -/

namespace Journal

/-- Whether a copy is written. -/
def isWritten (e : Event) : Bool := decide (e.channel = .all)

/-- The copies that are written. -/
def written (events : List Event) : List Event := events.filter isWritten

/-- The lines of the events, without the line ends. -/
def lines (events : List Event) : List Text := (written events).map fun e => e.json.render

/-- **Events are written in their order.** -/
theorem lines_append (a b : List Event) : lines (a ++ b) = lines a ++ lines b := by
  simp [lines, written]

/-- **A copy on another channel has no line.** -/
theorem lines_other {e : Event} (h : e.channel ≠ .all) : lines [e] = [] := by
  simp [lines, written, isWritten, h]

end Journal

end TrafficGate.Verdict
