import TrafficGate.Proofs.ChunkedCoding
import TrafficGate.Proofs.OverflowTransparency
import TrafficGate.Proofs.WrittenHeads
/-!
  # Messages as they are written

  A writer puts messages one behind the other: a head, an empty line, and a payload that the head
  announces. Carving their bytes gives these messages in their order and leaves nothing, whatever
  the payloads hold.

  1. payloads, and the fields that announce them;
  2. what a head says about the payload behind it;
  3. one message;
  4. messages one behind the other.

  Main facts: **`Payload.resolve`**, **`WrittenMessage.carve_bytes`** and **`carveAll_written`**.
-/

namespace TrafficGate

namespace Http

/-! ## 1. Payloads -/

namespace Head

/-- A length field, in any case. -/
def Field.isLength (f : Field) : Bool := Ascii.sameWord f.name "content-length".toList

/-- A coding field, in any case. -/
def Field.isCoding (f : Field) : Bool := Ascii.sameWord f.name "transfer-encoding".toList

/-- The fields of the two names that frame a payload. -/
def framing (fields : List Field) : List Field :=
  fields.filter fun f => f.isLength || f.isCoding

end Head

/-- What stands behind the empty line of a message. -/
inductive Payload where
  | bare
  | sized (body : Bytes)
  | chunked (coding : Chunked.Coding)
  deriving DecidableEq, Repr

namespace Payload

/-- The bytes of a payload. -/
def bytes : Payload → Bytes
  | bare => []
  | sized body => body
  | chunked coding => coding.bytes

/-- The body that a payload brings. -/
def data : Payload → Bytes
  | bare => []
  | sized body => body
  | chunked coding => coding.data

/-- Whether the status allows a body. -/
def Allowed (status : Option Nat) : Prop := ∀ code ∈ status, StatusLine.isBodiless code = false

instance : DecidablePred Allowed := fun status =>
  inferInstanceAs (Decidable (∀ code ∈ status, StatusLine.isBodiless code = false))

/-- The status and the fields announce the payload: no payload behind a status that allows none, or
    without a framing field; bytes whose number a length field gives in decimal digits; for a
    response, chunks behind a field that names their coding. No other framing field is there. -/
inductive Announced (status : Option Nat) (fields : List Head.Field) : Payload → Prop where
  | bodiless {code : Nat} (hstatus : status = some code)
      (hcode : StatusLine.isBodiless code = true) : Announced status fields bare
  | bare (hfields : Head.framing fields = []) : Announced status fields bare
  | sized {f : Head.Field} {body : Bytes} (hallowed : Allowed status)
      (hfields : Head.framing fields = [f]) (hname : f.isLength = true) (hne : f.value ≠ [])
      (hvalue : Numeral.readDigits? 10 0 f.value = some body.length) :
      Announced status fields (sized body)
  | chunked {f : Head.Field} {coding : Chunked.Coding} {code : Nat} (hstatus : status = some code)
      (hallowed : Allowed status) (hfields : Head.framing fields = [f]) (hname : f.isCoding = true)
      (hvalue : Ascii.sameWord f.value "chunked".toList = true) (hcoding : coding.Proper) :
      Announced status fields (chunked coding)

end Payload

/-! ## 2. What a head says -/

namespace Head

/-- No field has both names. -/
theorem Field.isCoding_eq_false_of_isLength {f : Field} (h : f.isLength = true) : f.isCoding = false := by
  rw [isLength, Ascii.sameWord, beq_iff_eq] at h
  rw [isCoding, Ascii.sameWord, h]
  decide

/-- Whether the body is chunked is a matter of the framing fields. -/
theorem isChunked_eq_framing (head : Text) :
    isChunked head = (framing (fields head)).any fun f =>
      f.isCoding && Search.occurs "chunked".toList (Ascii.lower f.value) := by
  rw [framing, List.any_filter, isChunked]
  congr 1
  funext f
  show (f.isCoding && _) = _
  cases f.isLength <;> cases f.isCoding <;> rfl

/-- So is the length of the body. -/
theorem find?_eq_framing (head : Text) :
    find? "content-length".toList head =
      ((framing (fields head)).find? Field.isLength).map (·.value) := by
  rw [framing, List.find?_filter, find?]
  congr 2
  funext f
  show f.isLength = _
  cases f.isLength <;> simp

theorem contentLength_of_bare {head : Text} (h : framing (fields head) = []) :
    contentLength head = 0 := by
  rw [contentLength, find?_eq_framing, h]
  rfl

/-- **The length that a head declares in digits.** -/
theorem contentLength_of_sized {head : Text} {f : Field} {n : Nat}
    (h : framing (fields head) = [f]) (hname : f.isLength = true) (hne : f.value ≠ [])
    (hvalue : Numeral.readDigits? 10 0 f.value = some n) (hn : n < Numeral.wordBound) :
    contentLength head = n := by
  have hfind : find? "content-length".toList head = some f.value := by
    rw [find?_eq_framing, h, List.find?_cons_of_pos hname, Option.map_some]
  have hword : Numeral.readWord? f.value = some n :=
    Numeral.readBase?_of_digits (by decide) hne hvalue hn
  rw [contentLength, hfind, Option.map_some, Numeral.trim_of_digits hvalue, Option.bind_some, hword,
    Option.getD_some]

theorem isChunked_of_bare {head : Text} (h : framing (fields head) = []) :
    isChunked head = false := by
  rw [isChunked_eq_framing, h]
  rfl

theorem isChunked_of_sized {head : Text} {f : Field} (h : framing (fields head) = [f])
    (hname : f.isLength = true) : isChunked head = false := by
  rw [isChunked_eq_framing, h, List.any_cons, Field.isCoding_eq_false_of_isLength hname]
  rfl

theorem isChunked_of_chunked {head : Text} {f : Field} (h : framing (fields head) = [f])
    (hname : f.isCoding = true) (hvalue : Ascii.sameWord f.value "chunked".toList = true) :
    isChunked head = true := by
  have hlower : Ascii.lower f.value = "chunked".toList := by
    rw [Ascii.sameWord, beq_iff_eq] at hvalue
    exact hvalue.trans (by decide)
  rw [isChunked_eq_framing, h, List.any_cons, hname, hlower]
  decide +kernel

end Head

namespace Frame

theorem isForbidden_of_allowed {status : Option Nat} (h : Payload.Allowed status) :
    isForbidden status false = false := by
  cases status with
  | none => rfl
  | some code => rw [isForbidden, h code rfl, Bool.false_or]

theorem ofLength_body (body rest : Bytes) :
    ofLength body.length (body ++ rest) = framed (ofBytes body) body.length := by
  cases body with
  | nil => rfl
  | cons b body =>
    have hthere : ((b :: body ++ rest).drop ((b :: body).length - 1)).isEmpty = false := by
      rw [Bool.eq_false_iff, ne_eq, List.isEmpty_iff, List.drop_eq_nil_iff]
      simp only [List.length_append, List.length_cons]
      omega
    rw [ofLength, if_neg (by simp), hthere, List.take_left]
    rfl

/-- Without a chunked coding, the declared length cuts the body. -/
theorem resolve_of_plain {head : Text} (h : Head.isChunked head = false) (side : Side)
    (status : Option Nat) (answersHead : Bool) (rest : Bytes) :
    resolve head side status answersHead rest =
      if isForbidden status answersHead then framed none 0
      else ofLength (Head.contentLength head) rest := by
  rw [resolve, h, if_neg fun hcoded : side = .response ∧ _ => Bool.false_ne_true hcoded.2]

end Frame

/-- **A head frames the payload that it announces**, whatever comes behind the payload. -/
theorem Payload.resolve {payload : Payload} {head : Text} {side : Side} {status : Option Nat}
    (h : payload.Announced status (Head.fields head))
    (hside : ∀ code ∈ status, side = .response)
    (hfits : payload.bytes.length < Numeral.wordBound) (rest : Bytes) :
    Frame.resolve head side status false (payload.bytes ++ rest) =
      .framed (Frame.ofBytes payload.data) payload.bytes.length := by
  cases h with
  | bodiless hstatus hcode =>
    rw [Frame.resolve, hstatus, Frame.isForbidden, hcode]
    rfl
  | bare hfields =>
    rw [Frame.resolve_of_plain (Head.isChunked_of_bare hfields),
      Head.contentLength_of_bare hfields]
    split <;> rfl
  | sized hallowed hfields hname hne hvalue =>
    rw [Frame.resolve_of_plain (Head.isChunked_of_sized hfields hname),
      Frame.isForbidden_of_allowed hallowed, if_neg Bool.false_ne_true,
      Head.contentLength_of_sized hfields hname hne hvalue hfits]
    exact Frame.ofLength_body _ rest
  | chunked hstatus hallowed hfields hname hvalue hcoding =>
    have hcoded : side = .response ∧ Head.isChunked head = true :=
      ⟨hside _ hstatus, Head.isChunked_of_chunked hfields hname hvalue⟩
    rw [Frame.resolve, Frame.isForbidden_of_allowed hallowed, if_neg Bool.false_ne_true,
      if_pos hcoded, bytes, Chunked.decode_bytes hcoding hfits rest]
    rfl

/-! ## 3. One message -/

/-- A head and a payload. -/
structure WrittenMessage where
  head : WrittenHead
  payload : Payload
  deriving DecidableEq, Repr

namespace WrittenMessage

/-- The side that writes the message. -/
def side (w : WrittenMessage) : Side := w.head.start.side

/-- The bytes: the head, an empty line, and the payload. -/
def bytes (w : WrittenMessage) : Bytes := w.head.bytes ++ (terminator ++ w.payload.bytes)

/-- The message: its bytes and its text, the body that was coded, and the status. -/
def message (w : WrittenMessage) : Message :=
  { side := w.side, raw := w.bytes, head := w.head.text, body := Frame.ofBytes w.payload.data,
    status := w.head.start.status }

/-- The head can be read, and announces the payload. As any bytes in memory the message is shorter
    than 2^64. -/
structure Proper (w : WrittenMessage) : Prop where
  head : w.head.Proper
  payload : w.payload.Announced w.head.start.status (w.head.fields.map (·.field))
  fits : w.bytes.length < Numeral.wordBound

variable {w : WrittenMessage}

/-- **A written message is carved.** -/
theorem carve_bytes (h : w.Proper) : carve w.bytes w.side = .complete w.message := by
  have hhead : headAt w.bytes w.side w.head.bytes.length = w.head.text := by
    rw [headAt, bytes, List.take_left]
    exact WrittenHead.decode_bytes h.head
  have hstatus : statusAt w.bytes w.side w.head.bytes.length = .ok w.head.start.status := by
    rw [statusAt, hhead, WrittenHead.startLine_text h.head]
    exact StartForm.status_text h.head.start
  have hplain : ¬ (w.side = .request ∧ Head.opensTunnel (Head.startLine w.head.text) = true) := by
    rw [WrittenHead.startLine_text h.head]
    exact StartForm.opensTunnel_text h.head.start
  have hbody : bodyAt w.bytes w.side false w.head.bytes.length =
      .framed (Frame.ofBytes w.payload.data) w.payload.bytes.length := by
    have hfits := h.fits
    have hannounced := h.payload
    rw [bytes, List.length_append, List.length_append] at hfits
    rw [← WrittenHead.fields_text h.head] at hannounced
    have hresolve := Payload.resolve hannounced StartForm.side_of_status (by omega) []
    rw [bodyAt, hhead, hstatus, Head.code?, bytes, ← List.append_assoc, ← List.length_append,
      List.drop_left]
    rwa [List.append_nil] at hresolve
  have hraw : w.bytes.take (w.head.bytes.length + terminator.length + w.payload.bytes.length) =
      w.bytes := by
    refine List.take_of_length_le (Nat.le_of_eq ?_)
    rw [bytes, List.length_append, List.length_append, Nat.add_assoc]
  rw [carve, carveFrom, bytes, WrittenHead.findTerminator?_bytes h.head, ← bytes]
  simp only [carveHead_eq, hhead, if_neg hplain, hbody, hstatus, hraw]
  rfl

/-- **Its start line and its fields are those that were written.** -/
theorem reads_message (h : w.Proper) :
    w.message.startLine = w.head.start.text ∧
      w.message.fields = w.head.fields.map (·.field) :=
  ⟨WrittenHead.startLine_text h.head, WrittenHead.fields_text h.head⟩

end WrittenMessage

end Http

/-! ## 4. One behind the other -/

namespace Stream

open Http

namespace Accumulator

/-- A search may start behind the first byte only where there is one. -/
theorem Searched.eq_empty {a : Accumulator} (h : a.Searched) (hu : a.unparsed = [])
    (hp : a.passed = 0) : a = empty := by
  have hscanned : a.scanned = 0 := by
    by_contra hne
    have hstart := h terminator 0 (Nat.pos_of_ne_zero hne)
    rw [hu] at hstart
    exact hstart List.prefix_rfl
  obtain ⟨passed, unparsed, scanned⟩ := a
  subst hu hp hscanned
  rfl

/-- **Messages are carved as they were written**: the bytes of proper messages of one side, one
    behind the other, give these messages in their order, with the start lines, the fields and the
    bodies that were written, and nothing is left. -/
theorem carveAll_written {side : Side} {messages : List WrittenMessage}
    (h : ∀ w ∈ messages, w.Proper ∧ w.side = side) :
    (empty.append (messages.flatMap WrittenMessage.bytes)).carveAll side (fun _ => false) =
        (messages.map fun w => .message w.message, empty) ∧
      ∀ w ∈ messages, w.message.startLine = w.head.start.text ∧
        w.message.fields = w.head.fields.map (·.field) := by
  refine ⟨?_, fun w hw => WrittenMessage.reads_message (h w hw).1⟩
  have hwhole : ∀ m ∈ messages.map WrittenMessage.message, carve m.raw side = .complete m := by
    refine List.forall_mem_map.mpr fun w hw => ?_
    obtain ⟨hproper, rfl⟩ := h w hw
    exact WrittenMessage.carve_bytes hproper
  have hsearched : (empty.append (messages.flatMap WrittenMessage.bytes)).Searched :=
    Searched.append searched_empty _
  have hstream : (empty.append (messages.flatMap WrittenMessage.bytes)).unparsed ++ [] =
      streamOf (messages.map WrittenMessage.message) := by
    rw [List.append_nil, streamOf, List.map_map, List.flatMap_def]
    rfl
  obtain ⟨done, later, hsplit, hpieces, hwaits⟩ := carveAll_stream hsearched hwhole hstream
  obtain ⟨hnone, rfl⟩ := hwaits.end
  rw [List.append_nil] at hsplit
  rw [← hsplit, List.map_map] at hpieces
  exact Prod.ext hpieces (Searched.eq_empty (hsearched.carveAll side _) hnone rfl)

/-- A field with one space in front of its value. -/
def spacedField (name value : String) : WrittenField :=
  { field := { name := name.toList, value := value.toList }, before := [' '], behind := [] }

/-- A response with one field. -/
def answer (code : String) (field : WrittenField) (payload : Payload) : WrittenMessage :=
  { head := { start := .response ⟨"HTTP/1.1".toList, code.toList, some "As said".toList⟩,
              fields := [field] },
    payload }

/-- A response whose body looks like another one. -/
def nestedAnswer : WrittenMessage :=
  answer "200" (spacedField "content-length" "028")
    (.sized (Utf8.encode "a\r\n\r\nHTTP/1.1 204 Empty\r\n\r\nb".toList))

/-- A response of one chunk, which looks like the end of the coding. -/
def chunkedAnswer : WrittenMessage :=
  answer "404" (spacedField "Transfer-Encoding" "Chunked")
    (.chunked
      { chunks := [⟨⟨"0A".toList, [59, 120]⟩, Utf8.encode "\r\n0\r\n\r\n0\r\n".toList⟩],
        last := ⟨['0'], []⟩ })

/-- A response without a body, which speaks of the length of another one. -/
def bareAnswer : WrittenMessage := answer "304" (spacedField "Content-Length" "5") .bare

/-- Three responses, one behind the other. -/
theorem carveAll_written_answers :
    (∀ w ∈ [nestedAnswer, chunkedAnswer, bareAnswer], w.Proper ∧ w.side = .response) ∧
      (empty.append ([nestedAnswer, chunkedAnswer, bareAnswer].flatMap
          WrittenMessage.bytes)).carveAll .response (fun _ => false) =
        ([.message nestedAnswer.message, .message chunkedAnswer.message,
          .message bareAnswer.message], empty) := by
  have hnested : nestedAnswer.Proper := by
    have hfields : Head.framing (nestedAnswer.head.fields.map (·.field)) =
        [⟨"content-length".toList, "028".toList⟩] := by decide +kernel
    exact ⟨by decide +kernel, .sized (by decide +kernel) hfields (by decide +kernel)
      (by decide +kernel) (by decide +kernel), by decide +kernel⟩
  have hchunked : chunkedAnswer.Proper := by
    have hstatus : chunkedAnswer.head.start.status = some 404 := by decide +kernel
    have hfields : Head.framing (chunkedAnswer.head.fields.map (·.field)) =
        [⟨"Transfer-Encoding".toList, "Chunked".toList⟩] := by decide +kernel
    exact ⟨by decide +kernel, .chunked hstatus (by decide +kernel) hfields (by decide +kernel)
      (by decide +kernel) (by decide +kernel), by decide +kernel⟩
  have hbare : bareAnswer.Proper := by
    have hstatus : bareAnswer.head.start.status = some 304 := by decide +kernel
    exact ⟨by decide +kernel, .bodiless hstatus (by decide +kernel), by decide +kernel⟩
  have hproper : ∀ w ∈ [nestedAnswer, chunkedAnswer, bareAnswer],
      w.Proper ∧ w.side = .response := by
    simp only [List.forall_mem_cons]
    exact ⟨⟨hnested, rfl⟩, ⟨hchunked, rfl⟩, ⟨hbare, rfl⟩, List.forall_mem_nil _⟩
  exact ⟨hproper, (carveAll_written hproper).1⟩

example : bareAnswer.bytes =
    Utf8.encode "HTTP/1.1 304 As said\r\nContent-Length: 5\r\n\r\n".toList := by
  decide +kernel

end Accumulator

end Stream

end TrafficGate
