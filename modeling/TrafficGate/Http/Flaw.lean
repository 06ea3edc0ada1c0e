import TrafficGate.Text.Quoted
import TrafficGate.Text.Numeral
/-!
  # Flaws of a message

  Why a message cannot be used: a cause with what its text needs, and the text in one place.
  A text that shows a line shows its first 64 characters.
-/

namespace TrafficGate.Http

/-- A reason for which bytes or a message are not usable. -/
inductive Flaw where
  /-- The method of a request line is empty or not made of letters. -/
  | badMethod (line : Text)
  /-- A request line has no target. -/
  | missingTarget (line : Text)
  /-- The version of a request line is not one of HTTP. -/
  | badVersion (line : Text)
  /-- A status line does not start as one of HTTP. -/
  | badStatusLine (line : Text)
  /-- The code of a status line is not a number of three characters. -/
  | badStatusCode (line : Text)
  /-- A chunk of `size` bytes ends at `offset`, and no line end follows. -/
  | unendedChunk (size offset : Nat)
  /-- A request names no host. -/
  | missingHost
  /-- The target of a request is neither absolute nor a path. -/
  | badTarget (target : Text)
  deriving DecidableEq, Repr

namespace Flaw

/-- How much of a line a text shows. -/
def shownLength : Nat := 64

/-- A line as a text shows it. -/
def shown (line : Text) : Text := Quoted.quote (line.take shownLength)

/-- The text of a flaw. -/
def message : Flaw → Text
  | badMethod line => "bad request method in ".toList ++ shown line
  | missingTarget line => "missing request target in ".toList ++ shown line
  | badVersion line => "bad request version in ".toList ++ shown line
  | badStatusLine line => "bad status line ".toList ++ shown line
  | badStatusCode line => "bad status code in ".toList ++ shown line
  | unendedChunk size offset =>
    "chunk of ".toList ++ Numeral.decimal size ++
      " bytes not followed by CRLF at offset ".toList ++ Numeral.decimal offset
  | missingHost => "request has no Host header".toList
  | badTarget target => "unsupported request target ".toList ++ Quoted.quote target

end Flaw

end TrafficGate.Http
