import TrafficGate.Http.Head
/-!
  # Messages

  A message as it was framed: the bytes it took, its decoded head, its body without coding, and the
  status code when it is a response.
-/

namespace TrafficGate.Http

/-- A framed message. -/
structure Message where
  side : Side
  /-- All bytes of the message, head and framed body. -/
  raw : Bytes
  /-- The head without the empty line that ends it. -/
  head : Text
  /-- The payload; chunks are put together. -/
  body : Option Bytes
  /-- The code of a response. -/
  status : Option Nat
  deriving DecidableEq, Repr

namespace Message

/-- The start line of the message. -/
def startLine (m : Message) : Text := Head.startLine m.head

/-- The fields of the message. -/
def fields (m : Message) : List Head.Field := Head.fields m.head

/-- The lines behind the start line, joined by line feeds. -/
def fieldText (m : Message) : Text := Head.fieldText m.head

/-- The value of the first field of the name. -/
def field? (name : Text) (m : Message) : Option Text := Head.find? name m.head

/-- Whether the message is a response that ends its exchange. -/
def isFinal (m : Message) : Bool :=
  match m.status with
  | some code => !StatusLine.isInterim code
  | none => false

end Message

end TrafficGate.Http
