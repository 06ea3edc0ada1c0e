import TrafficGate.Http.Message
/-!
  # Responses

  The response half of an exchange.

  1. `Response` and the one of a framed message;
  2. the descriptor of its content: type and coding in one text;
  3. `collect` -- how much of a body is kept.

  Main fact: **`length_collect_le`** (a kept body is no longer than the limit).
-/

namespace TrafficGate.Exchange

open Http

/-! ## 1. Descriptors -/

/-- A trimmed text, if anything is left of it. -/
def nonBlank? (t : Option Text) : Option Text := (t.map Text.trim).filter fun s => !s.isEmpty

/-- The coding as a descriptor shows it. -/
def encodingSuffix (encoding : Text) : Text := "; encoding=".toList ++ encoding

/-- The descriptor of a content type and a coding; nothing when both are missing or blank. -/
def describeContent (contentType encoding : Option Text) : Option Text :=
  match nonBlank? contentType, nonBlank? encoding with
  | some ct, some enc => some (ct ++ encodingSuffix enc)
  | some ct, none => some ct
  | none, some enc => some (encodingSuffix enc)
  | none, none => none

/-! ## 2. Responses -/

/-- A response. -/
structure Response where
  status : Nat
  statusMessage : Text
  /-- The lines behind the status line. -/
  headers : Text
  body : Option Bytes
  contentDescriptor : Option Text
  deriving DecidableEq, Repr

namespace Response

/-- The response of a framed message. -/
def ofMessage (m : Message) : Except Flaw Response :=
  match StatusLine.parse m.startLine with
  | .error flaw => .error flaw
  | .ok line =>
    .ok { status := line.code, statusMessage := line.reason, headers := m.fieldText, body := m.body,
          contentDescriptor :=
            describeContent (m.field? "content-type".toList) (m.field? "content-encoding".toList) }

/-- Messages with one head give the same response, each with its own body. -/
theorem ofMessage_of_head_eq {m m' : Message} (h : m'.head = m.head) :
    ofMessage m' = (ofMessage m).map fun r => { r with body := m'.body } := by
  unfold ofMessage Message.startLine Message.field? Message.fieldText
  rw [h]
  cases StatusLine.parse (Head.startLine m.head) <;> rfl

/-- The content type without parameters, if it is known. -/
def mimeType? (r : Response) : Option Text :=
  nonBlank? (r.contentDescriptor.map fun d => d.takeWhile (· != ';'))

end Response

/-! ## 3. Bodies -/

/-- The part of a body that is kept: at most `limit` bytes, and nothing unless bodies are
    collected. -/
def collect (body : Option Bytes) (wanted : Bool) (limit : Nat) : Option Bytes :=
  if wanted then body.map (List.take limit) else none

/-- **A kept body is no longer than the limit.** -/
theorem length_collect_le {body : Option Bytes} {wanted : Bool} {limit : Nat} {kept : Bytes}
    (h : collect body wanted limit = some kept) : kept.length ≤ limit := by
  unfold collect at h
  split at h
  · obtain ⟨b, _, rfl⟩ := Option.map_eq_some_iff.mp h
    rw [List.length_take]
    exact Nat.min_le_left ..
  · cases h

end TrafficGate.Exchange
