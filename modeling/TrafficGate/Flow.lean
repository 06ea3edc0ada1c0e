import TrafficGate.Text.Keyword
import TrafficGate.Text.Numeral
/-!
  # Flows

  Where observed traffic comes from: a flow is a connection or an engine object with a number of
  its own, and bytes travel on it in two directions.

  1. `FlowId` -- the number and whether the bytes were seen after decryption; both identify it;
  2. `Side` -- requests are written by the host, responses read;
  3. `Transport` -- the kind of place where a record was observed.

  Main fact: **`ofName?_name`** (the name of a transport is read back).
-/

namespace TrafficGate

/-! ## 1. Flows -/

/-- The identity of an observed flow. A plain and a decrypted flow of one number differ. -/
structure FlowId where
  id : Nat
  secure : Bool
  deriving DecidableEq, Repr

/-! ## 2. Sides -/

/-- The direction of bytes on a flow: `request` is written by the host, `response` read by it. -/
inductive Side where
  | request
  | response
  deriving DecidableEq, Repr

namespace Side

/-- The name of a side. -/
def name : Side → Text
  | request => "request".toList
  | response => "response".toList

/-- The side of a name, spelled exactly. -/
def ofName? (t : Text) : Option Side :=
  [request, response].find? fun s => s.name == t

end Side

/-! ## 3. Transports -/

/-- The place at which a record was observed. -/
inductive Transport where
  | plaintext
  | tls
  | library
  | web
  | platformEngine
  | dns
  deriving DecidableEq, Repr

namespace Transport

/-- Every transport. -/
def all : List Transport := [plaintext, tls, library, web, platformEngine, dns]

/-- The name of a transport, as records carry it. -/
def name : Transport → Text
  | plaintext => "plaintext".toList
  | tls => "tls".toList
  | library => "library".toList
  | web => "web".toList
  | platformEngine => "platform_engine".toList
  | dns => "dns".toList

/-- The label of a transport, as people are shown it. -/
def label : Transport → Text
  | plaintext => "NATIVE-TCP".toList
  | tls => "NATIVE-SSL".toList
  | library => "HTTP-CLIENT".toList
  | web => "WEB".toList
  | platformEngine => "PLATFORM".toList
  | dns => "DNS".toList

/-- The transport of a name, spelled exactly. -/
def ofName? (t : Text) : Option Transport := all.find? fun x => x.name == t

/-- The transport of a name in any case. -/
def parse? (t : Text) : Option Transport := ofName? (Keyword.fold t)

/-- **The name of a transport is read back.** -/
theorem ofName?_name (x : Transport) : ofName? x.name = some x := by
  cases x <;> decide

theorem mem_all (x : Transport) : x ∈ all := by cases x <;> decide

end Transport

namespace FlowId

/-- The URL scheme that a flow implies. -/
def scheme (f : FlowId) : Text := if f.secure then "https".toList else "http".toList

/-- The transport of messages that are framed from the flow's bytes. -/
def transport (f : FlowId) : Transport := if f.secure then .tls else .plaintext

/-- A flow as messages name it: `tls:7` or `tcp:7`. -/
def display (f : FlowId) : Text :=
  (if f.secure then "tls:".toList else "tcp:".toList) ++ Numeral.decimal f.id

end FlowId

end TrafficGate
