import TrafficGate.Http.Flaw
import TrafficGate.Text.Blank
/-!
  # Start lines

  The first line of a message: a request line names a method, a target and a version, a status line
  a version, a code and a reason.

  Main facts: **`RequestLine.parse_method`** (an accepted method is made of letters) and
  **`StatusLine.parse_code_lt`** (an accepted code is below 1000).
-/

namespace TrafficGate.Http

/-! ## 1. Request lines -/

/-- What a request line says. -/
structure RequestLine where
  method : Text
  target : Text
  deriving DecidableEq, Repr

namespace RequestLine

/-- Whether the text can be a method: one or more ASCII letters. -/
def isMethod (t : Text) : Bool := !t.isEmpty && t.all Ascii.isAlpha

/-- The texts between single spaces; a missing one is empty. -/
def word (i : Nat) (line : Text) : Text := ((Seq.pieces [' '] line)[i]?).getD []

/-- Reads a request line: method, target and version, one space between them. What follows the
    version after another space is not looked at. -/
def parse (line : Text) : Except Flaw RequestLine :=
  let method := word 0 line
  let target := word 1 line
  if !isMethod method then .error (.badMethod line)
  else if target.isEmpty then .error (.missingTarget line)
  else if !"HTTP/".toList.isPrefixOf (word 2 line) then .error (.badVersion line)
  else .ok { method, target }

/-- **An accepted method is made of letters.** -/
theorem parse_method {line : Text} {r : RequestLine} (h : parse line = .ok r) :
    isMethod r.method = true := by
  unfold parse at h
  simp only [] at h
  split at h
  · cases h
  · split at h
    · cases h
    · split at h
      · cases h
      · next hm _ _ =>
        cases h
        simpa using hm

end RequestLine

/-! ## 2. Status lines -/

/-- What a status line says. -/
structure StatusLine where
  code : Nat
  reason : Text
  deriving DecidableEq, Repr

namespace StatusLine

/-- The longest numeral that a status code can be. -/
def codeLength : Nat := 3

/-- The code in front of `rest`, the text behind the version and one space: up to the next space,
    three characters, a numeral. -/
def code? (word : Text) : Option Nat :=
  if word.length = codeLength then Numeral.readBase? 10 65536 word else none

/-- The text up to the first space, and the text behind it when there is one. -/
def cutSpace (t : Text) : Text × Option Text :=
  match Seq.cut? [' '] t with
  | some (before, after) => (before, some after)
  | none => (t, none)

/-- Reads a status line: `HTTP/`, a version, a space, the code, and then a space and the reason,
    trimmed, or the end. -/
def parse (line : Text) : Except Flaw StatusLine :=
  match Seq.stripStart? "HTTP/".toList line with
  | none => .error (.badStatusLine line)
  | some rest =>
    match (cutSpace rest).2 with
    | none => .error (.badStatusCode line)
    | some afterVersion =>
      let (word, reason?) := cutSpace afterVersion
      match code? word with
      | none => .error (.badStatusCode line)
      | some code => .ok { code, reason := Text.trim (reason?.getD []) }

/-- A code is below 1000. -/
theorem code?_lt {word : Text} {code : Nat} (h : code? word = some code) : code < 1000 := by
  unfold code? at h
  split at h
  · next hl =>
    have := Numeral.readBase?_lt_pow (by decide) h
    rw [hl] at this
    exact this
  · cases h

/-- **An accepted code is below 1000.** -/
theorem parse_code_lt {line : Text} {s : StatusLine} (h : parse line = .ok s) :
    s.code < 1000 := by
  unfold parse at h
  split at h
  · cases h
  · split at h
    · cases h
    · simp only [] at h
      split at h
      · cases h
      · next hc =>
        cases h
        exact code?_lt hc

/-- Status codes that announce another response to the same request: 1xx, save 101, which ends the
    exchange. -/
def isInterim (code : Nat) : Bool := 100 ≤ code && code < 200 && code != 101

/-- Status codes whose responses have no body, whatever their fields say. -/
def isBodiless (code : Nat) : Bool := (100 ≤ code && code < 200) || code == 204 || code == 304

/-- **An interim response has no body.** -/
theorem isBodiless_of_isInterim {code : Nat} (h : isInterim code = true) :
    isBodiless code = true := by
  simp only [isInterim, isBodiless, Bool.and_eq_true, Bool.or_eq_true, decide_eq_true_eq] at *
  exact Or.inl (Or.inl h.1)

end StatusLine

end TrafficGate.Http
