import TrafficGate.Flow
import TrafficGate.Json.Member
import TrafficGate.Json.Parse
import TrafficGate.Json.Render
import TrafficGate.ReadFault
import TrafficGate.Text.Base64
import TrafficGate.Text.Blank
import TrafficGate.Text.Seq
/-!
  # Captures

  A capture is a text of one record a line, each the JSON of one observation. Blank lines and those
  that start with `#` say nothing.

  1. `Observation` -- what was observed;
  2. `Record` -- how it is written: the payload of bytes in base 64. A record is known by its
     members; others than those it needs are passed over, but none it needs may come twice;
  3. writing records and reading captures, line by line up to the first that cannot be read.

  Main facts: **`observe_ofObservation_resolution`**, **`observe_ofObservation_closed`** (the record
  of an observation is that observation) and **`readLines_ignored`** (a line that says nothing is
  only counted).
-/

namespace TrafficGate.Capture

/-! ## 1. Observations -/

/-- One observation of a capture. -/
inductive Observation where
  /-- Bytes in one direction of a flow. -/
  | bytes (flow : FlowId) (side : Side) (data : Bytes)
  /-- A name that was resolved. -/
  | resolution (host : Text) (addresses : List Text)
  /-- The end of a flow. -/
  | closed (flow : FlowId)
  deriving DecidableEq, Repr

/-! ## 2. Records -/

/-- One line of a capture. -/
inductive Record where
  /-- Bytes in one direction of a flow, as base 64. -/
  | bytes (flow : FlowId) (side : Side) (payload : Text)
  | resolution (host : Text) (addresses : List Text)
  | closed (flow : FlowId)
  deriving DecidableEq, Repr

namespace Record

/-- The record of an observation. -/
def ofObservation : Observation → Record
  | .bytes flow side data => bytes flow side (Base64.encode data)
  | .resolution host addresses => resolution host addresses
  | .closed flow => closed flow

/-- The observation of a record; white space around a payload does not matter. -/
def observe : Record → Except Base64.Fault Observation
  | bytes flow side payload =>
    match Base64.decode (Utf8.encode (Text.trim payload)) with
    | .ok data => .ok (.bytes flow side data)
    | .error fault => .error fault
  | resolution host addresses => .ok (.resolution host addresses)
  | closed flow => .ok (.closed flow)

/-- **The record of a resolved name is that name.** -/
theorem observe_ofObservation_resolution (host : Text) (addresses : List Text) :
    (ofObservation (.resolution host addresses)).observe = .ok (.resolution host addresses) := rfl

/-- **The record of a closed flow is that flow.** -/
theorem observe_ofObservation_closed (flow : FlowId) :
    (ofObservation (.closed flow)).observe = .ok (.closed flow) := rfl

/-! ## 3. Writing and reading -/

/-- A record as JSON. -/
def json : Record → Json
  | bytes flow side payload =>
    .record [("flow".toList, .nat flow.id), ("secure".toList, .bool flow.secure),
      ("side".toList, .text side.name), ("data_b64".toList, .text payload)]
  | resolution host addresses =>
    .record [("dns_host".toList, .text host), ("addresses".toList, .arr (addresses.map .text))]
  | closed flow =>
    .record [("closed".toList, .nat flow.id), ("secure".toList, .bool flow.secure)]

/-- A record as a line. -/
def line (r : Record) : Text := r.json.render

/-- Members that are bytes of a flow. -/
def bytes? (members : Json.Members) : Option Record := do
  let id ← members.nat? "flow".toList
  let secure ← members.flag? "secure".toList
  let side ← (members.name? "side".toList).bind Side.ofName?
  some (bytes { id, secure } side (← members.text? "data_b64".toList))

/-- Members that are a resolved name. -/
def resolution? (members : Json.Members) : Option Record := do
  some (resolution (← members.text? "dns_host".toList) (← members.texts? "addresses".toList))

/-- Members that are a closed flow. -/
def closed? (members : Json.Members) : Option Record := do
  let id ← members.nat? "closed".toList
  some (closed { id, secure := ← members.flag? "secure".toList })

/-- The record of a JSON value: the first of the three that its members fit. -/
def ofJson? : Json → Option Record
  | .obj members => bytes? members <|> resolution? members <|> closed? members
  | _ => none

/-- The record of a line. -/
def parse? (t : Text) : Option Record := (Json.parseStrict? t).bind ofJson?

end Record

/-- Why a capture cannot be read. -/
inductive Fault where
  /-- Its bytes are not to be had as text. -/
  | unreadable (cause : ReadFault)
  /-- A line is not a record. -/
  | notRecord (line : Nat)
  /-- The payload of a line is not base 64. -/
  | badPayload (line : Nat) (cause : Base64.Fault)
  deriving DecidableEq, Repr

namespace Fault

/-- The text of the cause below a fault. -/
def cause : Fault → Text
  | unreadable cause => cause.message
  | notRecord _ => "not a capture record".toList
  | badPayload _ cause => cause.message

/-- The text of a fault. -/
def message : Fault → Text
  | unreadable cause => "I/O error: ".toList ++ cause.message
  | notRecord line => "line ".toList ++ Numeral.decimal line ++ ": not a capture record".toList
  | badPayload line cause =>
    "line ".toList ++ Numeral.decimal line ++ ": invalid base64 payload: ".toList ++ cause.message

end Fault

/-- Whether a trimmed line says nothing. -/
def isIgnored (t : Text) : Bool := t.isEmpty || t.head? == some '#'

/-- The observation of line number `n`, if it says something. -/
def readLine (n : Nat) (line : Bytes) : Except Fault (Option Observation) :=
  match ReadFault.textOf line with
  | .error cause => .error (.unreadable cause)
  | .ok t =>
    if isIgnored (Text.trim t) then .ok none
    else
      match Record.parse? (Text.trim t) with
      | none => .error (.notRecord n)
      | some r =>
        match r.observe with
        | .ok o => .ok (some o)
        | .error cause => .error (.badPayload n cause)

/-- The observations of lines, of which the first has the number `n`. -/
def readLines (n : Nat) : List Bytes → Except Fault (List Observation)
  | [] => .ok []
  | line :: rest =>
    match readLine n line with
    | .error fault => .error fault
    | .ok o =>
      match readLines (n + 1) rest with
      | .error fault => .error fault
      | .ok os => .ok (o.toList ++ os)

/-- The observations of a capture. -/
def read (data : Bytes) : Except Fault (List Observation) := readLines 1 (Seq.pieces [10] data)

/-- The observations of a file, of which the bytes are given, or why they cannot be. -/
def ofFile : Except ReadFault Bytes → Except Fault (List Observation)
  | .ok data => read data
  | .error cause => .error (.unreadable cause)

/-- **A line that says nothing is only counted.** -/
theorem readLines_ignored {n : Nat} {line : Bytes} (h : readLine n line = .ok none)
    (rest : List Bytes) : readLines n (line :: rest) = readLines (n + 1) rest := by
  simp only [readLines, h]
  cases readLines (n + 1) rest <;> rfl

end TrafficGate.Capture
