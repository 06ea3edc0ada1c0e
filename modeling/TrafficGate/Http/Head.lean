import TrafficGate.Http.StartLine
import TrafficGate.Flow
import TrafficGate.Text.Search
import TrafficGate.Text.Utf8
import TrafficGate.Text.Latin1
/-!
  # Message heads

  The text before the empty line of a message: the start line and the fields.

  1. `decode` -- from bytes: UTF-8 for requests, one character a byte for responses;
  2. the start line, which ends at the first line feed, and the other lines, which end at CRLF;
  3. the fields, and the two that frame a body: `Content-Length` and `Transfer-Encoding`.

  The two notions of line differ on a bare line feed.

  Main facts: **`contentLength_lt`** (a length that a head declares fits 64 bits) and
  **`length_decode_response`** (a response head has one character a byte).
-/

namespace TrafficGate.Http

/-- The end of a line. -/
def crlf : Bytes := [13, 10]

/-- The end of a head: an empty line. -/
def terminator : Bytes := [13, 10, 13, 10]

namespace Head

/-! ## 1. From bytes -/

/-- The text of the bytes of a head. -/
def decode (side : Side) (bs : Bytes) : Text :=
  match side with
  | .request => Utf8.decodeLossy bs
  | .response => Latin1.decode bs

/-- **A response head has one character a byte.** -/
theorem length_decode_response (bs : Bytes) : (decode .response bs).length = bs.length := by
  simp [decode]

/-! ## 2. Lines -/

/-- The line without one carriage return at its end. -/
def dropReturn (line : Text) : Text := (Seq.stripEnd? ['\r'] line).getD line

theorem dropReturn_concat (line : Text) : dropReturn (line ++ ['\r']) = line := by
  rw [dropReturn, Seq.stripEnd?_eq_some_iff.mpr rfl, Option.getD_some]

/-- The start line: up to the first line feed, without a carriage return before it. -/
def startLine (head : Text) : Text :=
  match Seq.cut? ['\n'] head with
  | some (line, _) => dropReturn line
  | none => head

/-- The lines after the first, cut at CRLF. -/
def fieldLines (head : Text) : List Text := (Seq.pieces ['\r', '\n'] head).drop 1

/-- The lines after the first that are not empty, joined by line feeds. -/
def fieldText (head : Text) : Text :=
  ['\n'].intercalate ((fieldLines head).filter fun line => !line.isEmpty)

/-! ## 3. Fields -/

/-- A field: a name and a value, both trimmed. -/
structure Field where
  name : Text
  value : Text
  deriving DecidableEq, Repr

/-- The field of a line: what stands before and behind its first colon. -/
def field? (line : Text) : Option Field :=
  (Seq.cut? [':'] line).map fun cut => { name := Text.trim cut.1, value := Text.trim cut.2 }

/-- The fields of a head. A line without a colon is none. -/
def fields (head : Text) : List Field := (fieldLines head).filterMap field?

/-- The value of the first field of the name, in any case. -/
def find? (name : Text) (head : Text) : Option Text :=
  ((fields head).find? fun f => Ascii.sameWord f.name name).map (·.value)

/-- Whether some `Transfer-Encoding` field speaks of chunks. -/
def isChunked (head : Text) : Bool :=
  (fields head).any fun f =>
    Ascii.sameWord f.name "transfer-encoding".toList &&
      Search.occurs "chunked".toList (Ascii.lower f.value)

/-- The length of the body that the first `Content-Length` field declares; 0 when there is none or
    it is no number below 2^64. -/
def contentLength (head : Text) : Nat :=
  (((find? "content-length".toList head).map Text.trim).bind Numeral.readWord?).getD 0

/-- **A declared length is below 2^64.** -/
theorem contentLength_lt (head : Text) : contentLength head < Numeral.wordBound := by
  unfold contentLength
  generalize (find? "content-length".toList head).map Text.trim = value?
  cases value? with
  | none => decide
  | some value =>
    cases h : Numeral.readWord? value with
    | none => simp [h, Numeral.wordBound]
    | some n =>
      simp only [Option.bind_some, h, Option.getD_some]
      exact Numeral.readBase?_lt h

/-- Whether the start line opens a tunnel: its first word begins with CONNECT. -/
def opensTunnel (line : Text) : Bool := Ascii.sameWord (line.take 7) "CONNECT".toList

/-- Checks the start line for the side: a request has no status, a response has its code. -/
def status (side : Side) (line : Text) : Except Flaw (Option Nat) :=
  match side with
  | .request => (RequestLine.parse line).map fun _ => none
  | .response => (StatusLine.parse line).map fun s => some s.code

/-- The code that a check found, if it found one. -/
def code? : Except Flaw (Option Nat) → Option Nat
  | .ok code => code
  | .error _ => none

end Head

end TrafficGate.Http
