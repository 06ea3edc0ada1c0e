import TrafficGate.Http.Carve
/-!
  # After a message that was too large

  What can still be learned when the buffered part of a message is given up.

  1. `Truncated.read?` -- the head of the message, and where the message ends if its head says so;
  2. `findStart?` -- otherwise, the next place that looks like the start of a message.

  Main facts: **`framedLength?_lt`** (a known end fits 64 bits) and **`findStart?_le`** (a start
  lies in the bytes or at their end).
-/

namespace TrafficGate.Http

/-! ## 1. The head that is left -/

/-- What is known of a message that is too large. -/
structure Truncated where
  /-- The message without its body, when its start line is usable. -/
  message : Option Message
  /-- The length of the whole message, when it is known and below 2^64. -/
  framedLength : Option Nat
  deriving DecidableEq, Repr

namespace Truncated

/-- The length of a message whose head, with the empty line, takes `bodyStart` bytes; unknown for
    a chunked response. -/
def framedLength? (head : Text) (side : Side) (bodyStart : Nat) : Option Nat :=
  if side = .response ∧ Head.isChunked head then none
  else
    let total := bodyStart + Head.contentLength head
    if total < Numeral.wordBound then some total else none

/-- Reads the head at the start of the bytes; `none` while its end is not there. -/
def read? (data : Bytes) (side : Side) : Option Truncated :=
  (findTerminator? data 0).map fun headEnd =>
    let bodyStart := headEnd + terminator.length
    let head := Head.decode side (data.take headEnd)
    let message :=
      match Head.status side (Head.startLine head) with
      | .ok status => some { side, raw := data.take bodyStart, head, body := none, status }
      | .error _ => none
    { message, framedLength := framedLength? head side bodyStart }

/-- **A known length is below 2^64.** -/
theorem framedLength?_lt {head : Text} {side : Side} {bodyStart n : Nat}
    (h : framedLength? head side bodyStart = some n) : n < Numeral.wordBound := by
  unfold framedLength? at h
  split at h
  · cases h
  · simp only [] at h
    split at h
    · next hlt =>
      cases h
      exact hlt
    · cases h

end Truncated

/-! ## 2. The next start -/

/-- How a message of the side can start: a request with a method and a space, a response with the
    version. -/
def openings : Side → List Text
  | .request =>
    ["GET ".toList, "POST ".toList, "PUT ".toList, "DELETE ".toList, "HEAD ".toList,
      "OPTIONS ".toList, "PATCH ".toList, "TRACE ".toList, "CONNECT ".toList]
  | .response => ["HTTP/1.".toList]

/-- The longest opening. -/
def openingLength : Nat := 8

/-- Whether the bytes start like a message of the side. -/
def looksLikeStart (side : Side) (data : Bytes) : Bool :=
  (openings side).any fun o => (Utf8.encode o).isPrefixOf data

/-- The first place behind a line feed that looks like a start. -/
def findLineStart? (side : Side) : Bytes → Option Nat
  | [] => none
  | b :: rest =>
    if b = 10 ∧ looksLikeStart side rest then some 1 else (findLineStart? side rest).map (· + 1)

/-- The first place that looks like the start of a message: at the start of the bytes or behind a
    line feed. -/
def findStart? (side : Side) (data : Bytes) : Option Nat :=
  if looksLikeStart side data then some 0 else findLineStart? side data

theorem findLineStart?_le {side : Side} {data : Bytes} {i : Nat}
    (h : findLineStart? side data = some i) : i ≤ data.length := by
  induction data generalizing i with
  | nil => cases h
  | cons b rest ih =>
    simp only [findLineStart?] at h
    split at h
    · cases h
      simp
    · obtain ⟨j, hj, rfl⟩ := Option.map_eq_some_iff.mp h
      have := ih hj
      simp only [List.length_cons]
      omega

/-- **A start lies in the bytes or at their end.** -/
theorem findStart?_le {side : Side} {data : Bytes} {i : Nat}
    (h : findStart? side data = some i) : i ≤ data.length := by
  unfold findStart? at h
  split at h
  · cases h
    exact Nat.zero_le _
  · exact findLineStart?_le h

end TrafficGate.Http
