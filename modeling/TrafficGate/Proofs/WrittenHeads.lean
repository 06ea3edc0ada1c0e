import Mathlib.Data.List.Basic
import Mathlib.Data.List.TakeWhile
import TrafficGate.Http.Head
import TrafficGate.Proofs.DigitStrings
import TrafficGate.Proofs.JoinedLists
/-!
  # Heads as they are written

  A writer puts a start line and fields into lines, joins the lines at CRLF and sends the bytes of
  their text. What is read of these bytes is what was written: the same text, the same start line
  and the same fields, and the head ends where it was ended.

  1. texts as the bytes of their side;
  2. request lines and status lines;
  3. fields, with white space around their values;
  4. heads.

  Main facts: **`Head.decode_encode`**, **`StartForm.status_text`**, **`WrittenField.field?_line`**,
  **`WrittenHead.startLine_text`**, **`WrittenHead.fields_text`** and
  **`WrittenHead.findTerminator?_bytes`**.
-/

namespace TrafficGate

/-! ## 1. Texts as bytes -/

namespace Latin1

/-- The bytes of a text, one for each character. -/
def encode (t : Text) : Bytes := t.map fun c => UInt8.ofNat c.toNat

theorem char_ofNat {c : Char} (hc : c.toNat < 256) : char (UInt8.ofNat c.toNat) = c := by
  rw [char, Utf8.toNat_byte hc, Char.ofNat_toNat]

/-- **A text of characters below 256 is read back.** -/
theorem decode_encode {t : Text} (ht : ∀ c ∈ t, c.toNat < 256) : decode (encode t) = t := by
  rw [decode, encode, List.map_map]
  exact (List.map_congr_left fun c hc => char_ofNat (ht c hc)).trans (List.map_id t)

theorem mem_of_mem_encode {b : UInt8} {t : Text} (ht : ∀ c ∈ t, c.toNat < 256)
    (h : b ∈ encode t) : char b ∈ t := by
  obtain ⟨c, hc, rfl⟩ := List.mem_map.mp h
  rwa [char_ofNat (ht c hc)]

end Latin1

namespace Http

namespace Head

/-- The bytes of a text of a head. -/
def encode (side : Side) (t : Text) : Bytes :=
  match side with
  | .request => Utf8.encode t
  | .response => Latin1.encode t

/-- The texts that a side has bytes for: any text for requests, and one of characters below 256 for
    responses. -/
def Writable (side : Side) (t : Text) : Prop := side = .response → ∀ c ∈ t, c.toNat < 256

instance (side : Side) : DecidablePred (Writable side) := fun t =>
  decidable_of_iff (side = .response → (t.all fun c => decide (c.toNat < 256)) = true)
    (by simp only [Writable, List.all_eq_true, decide_eq_true_eq])

theorem Writable.of_subset {side : Side} {s t : Text} (h : Writable side t) (hs : s ⊆ t) :
    Writable side s := fun hside c hc => h hside c (hs hc)

theorem encode_append (side : Side) (s t : Text) :
    encode side (s ++ t) = encode side s ++ encode side t := by
  cases side with
  | request => exact Utf8.encode_append s t
  | response => exact List.map_append

/-- **What was written is read back.** -/
theorem decode_encode {side : Side} {t : Text} (h : Writable side t) :
    decode side (encode side t) = t := by
  cases side with
  | request => exact Utf8.decodeLossy_encode t
  | response => exact Latin1.decode_encode (h rfl)

/-- A byte below 128 stands only where its character was written. -/
theorem mem_of_mem_encode {side : Side} {t : Text} (h : Writable side t) {b : UInt8}
    (hb : b.toNat < 0x80) (hmem : b ∈ encode side t) : Latin1.char b ∈ t := by
  cases side with
  | request => exact Utf8.mem_of_mem_encode hb hmem
  | response => exact Latin1.mem_of_mem_encode (h rfl) hmem

theorem encode_ne_nil {side : Side} {t : Text} (h : Writable side t) (ht : t ≠ []) :
    encode side t ≠ [] := by
  intro hnil
  have hback := decode_encode h
  rw [hnil] at hback
  refine ht (hback.symm.trans ?_)
  cases side with
  | request => simp only [decode, Utf8.decodeLossy]
  | response => rfl

end Head

/-! ## 2. Start lines -/

/-- A text that is part of one line. -/
def Unbroken (t : Text) : Prop := '\r' ∉ t ∧ '\n' ∉ t

instance : DecidablePred Unbroken := fun t => inferInstanceAs (Decidable ('\r' ∉ t ∧ '\n' ∉ t))

/-- A text that is part of one line and has no space. -/
def IsWord (t : Text) : Prop := ' ' ∉ t ∧ Unbroken t

instance : DecidablePred IsWord := fun t => inferInstanceAs (Decidable (' ' ∉ t ∧ Unbroken t))

/-- Words and their spaces are part of one line. -/
theorem unbroken_joined {first : Text} {parts : List Text} (hfirst : Unbroken first)
    (hparts : ∀ p ∈ parts, Unbroken p) : Unbroken (Seq.joined [' '] first parts) :=
  ⟨Seq.not_mem_joined (by decide) hfirst.1 fun p hp => (hparts p hp).1,
    Seq.not_mem_joined (by decide) hfirst.2 fun p hp => (hparts p hp).2⟩

/-- A character that is no letter stands in no text of letters. -/
theorem not_mem_of_isMethod {t : Text} (h : RequestLine.isMethod t = true) {c : Char}
    (hc : Ascii.isAlpha c = false) : c ∉ t := by
  rw [RequestLine.isMethod, Bool.and_eq_true, List.all_eq_true] at h
  exact fun hmem => absurd (h.2 c hmem) (by rw [hc]; exact Bool.false_ne_true)

/-- The words of a request line. -/
structure RequestForm where
  method : Text
  target : Text
  version : Text
  deriving DecidableEq, Repr

namespace RequestForm

/-- The line: the words, with one space between them. -/
def text (r : RequestForm) : Text := Seq.joined [' '] r.method [r.target, r.version]

/-- A method of letters that opens no tunnel, a target, and a version of HTTP. -/
structure Proper (r : RequestForm) : Prop where
  method : RequestLine.isMethod r.method = true
  plain : Head.opensTunnel r.method = false
  target_ne : r.target ≠ []
  target : IsWord r.target
  http : "HTTP/".toList <+: r.version
  version : IsWord r.version

instance : DecidablePred Proper := fun r =>
  decidable_of_iff (RequestLine.isMethod r.method = true ∧ Head.opensTunnel r.method = false ∧
      r.target ≠ [] ∧ IsWord r.target ∧ "HTTP/".toList <+: r.version ∧ IsWord r.version)
    ⟨fun ⟨hm, hp, hn, ht, hh, hv⟩ => ⟨hm, hp, hn, ht, hh, hv⟩,
      fun ⟨hm, hp, hn, ht, hh, hv⟩ => ⟨hm, hp, hn, ht, hh, hv⟩⟩

variable {r : RequestForm}

theorem unbroken_text (h : r.Proper) : Unbroken r.text := by
  have hmethod : Unbroken r.method :=
    ⟨not_mem_of_isMethod h.method (by decide), not_mem_of_isMethod h.method (by decide)⟩
  exact unbroken_joined hmethod
    (List.forall_mem_cons.mpr ⟨h.target.2, List.forall_mem_singleton.mpr h.version.2⟩)

/-- **The words are read back.** -/
theorem parse_text (h : r.Proper) :
    RequestLine.parse r.text = .ok { method := r.method, target := r.target } := by
  have hpieces : Seq.pieces [' '] r.text = [r.method, r.target, r.version] :=
    Seq.pieces_joined (not_mem_of_isMethod h.method (by decide))
      (List.forall_mem_cons.mpr ⟨h.target.1, List.forall_mem_singleton.mpr h.version.1⟩) []
  have hhttp : "HTTP/".toList.isPrefixOf r.version = true := List.isPrefixOf_iff_prefix.mpr h.http
  have htarget : r.target.isEmpty = false := by
    rw [Bool.eq_false_iff, ne_eq, List.isEmpty_iff]
    exact h.target_ne
  have hword : ∀ i, RequestLine.word i r.text = ([r.method, r.target, r.version][i]?).getD [] :=
    fun i => by rw [RequestLine.word, hpieces]
  rw [RequestLine.parse, hword 0, hword 1, hword 2]
  simp only [List.getElem?_cons_zero, List.getElem?_cons_succ, Option.getD_some, h.method, htarget,
    hhttp, Bool.not_true, Bool.false_eq_true, if_false]

/-- **The line opens no tunnel**: a method shorter than the word has a space in its place. -/
theorem opensTunnel_text (h : r.Proper) : Head.opensTunnel r.text = false := by
  obtain ⟨behind, htext⟩ : ∃ behind, r.text = r.method ++ ' ' :: behind := ⟨_, rfl⟩
  rw [htext]
  rcases Nat.lt_or_ge r.method.length 7 with hlt | hge
  · rw [Bool.eq_false_iff]
    intro hopens
    have hword : Ascii.lower ((r.method ++ ' ' :: behind).take 7) =
        Ascii.lower "CONNECT".toList := eq_of_beq hopens
    have hspace : ' ' ∈ (r.method ++ ' ' :: behind).take 7 :=
      List.mem_take_iff_getElem.mpr ⟨r.method.length, by simp; omega, by simp⟩
    have hlower : Ascii.lowerChar ' ' ∈ Ascii.lower ((r.method ++ ' ' :: behind).take 7) :=
      List.mem_map_of_mem hspace
    rw [hword] at hlower
    exact absurd hlower (by decide)
  · rw [Head.opensTunnel, List.take_append_of_le_length hge]
    exact h.plain

end RequestForm

/-- The words of a status line. -/
structure StatusForm where
  version : Text
  code : Text
  reason? : Option Text
  deriving DecidableEq, Repr

namespace StatusForm

/-- The line: a version, a code and perhaps a reason, with one space between them. -/
def text (s : StatusForm) : Text := Seq.joined [' '] s.version (s.code :: s.reason?.toList)

/-- The number that the code is. -/
def value? (s : StatusForm) : Option Nat := Numeral.readDigits? 10 0 s.code

/-- A version of HTTP, three digits, and a reason that is part of the line. -/
structure Proper (s : StatusForm) : Prop where
  http : "HTTP/".toList <+: s.version
  version : IsWord s.version
  length : s.code.length = StatusLine.codeLength
  digits : ∀ c ∈ s.code, Ascii.isDigit c = true
  reason : ∀ t ∈ s.reason?, Unbroken t

instance : DecidablePred Proper := fun s =>
  decidable_of_iff ("HTTP/".toList <+: s.version ∧ IsWord s.version ∧
      s.code.length = StatusLine.codeLength ∧ s.code.all Ascii.isDigit = true ∧
      ∀ t ∈ s.reason?, Unbroken t)
    ⟨fun ⟨hh, hv, hl, hd, hr⟩ => ⟨hh, hv, hl, List.all_eq_true.mp hd, hr⟩,
      fun ⟨hh, hv, hl, hd, hr⟩ => ⟨hh, hv, hl, List.all_eq_true.mpr hd, hr⟩⟩

variable {s : StatusForm}

theorem exists_value? (h : s.Proper) : ∃ code, s.value? = some code ∧ code < 1000 := by
  obtain ⟨code, hcode⟩ := Numeral.exists_readDigits? h.digits 0
  refine ⟨code, hcode, ?_⟩
  have hlt := Numeral.readDigits?_lt hcode
  rw [h.length] at hlt
  exact hlt

theorem not_mem_code (h : s.Proper) {c : Char} (hc : Numeral.digitValue? c = none) : c ∉ s.code :=
  (exists_value? h).elim fun _ hcode => Numeral.not_mem_of_readDigits? hcode.1 hc

theorem unbroken_text (h : s.Proper) : Unbroken s.text := by
  refine unbroken_joined h.version.2 (List.forall_mem_cons.mpr ⟨?_, fun t ht => ?_⟩)
  · exact ⟨not_mem_code h (by decide), not_mem_code h (by decide)⟩
  · exact h.reason t (Option.mem_toList.mp ht)

theorem cutSpace_of_not_mem {t : Text} (ht : ' ' ∉ t) : StatusLine.cutSpace t = (t, none) := by
  rw [StatusLine.cutSpace, Seq.cut?_eq_none_of_not_mem ht]

theorem cutSpace_joined {t behind : Text} (ht : ' ' ∉ t) :
    StatusLine.cutSpace (t ++ ([' '] ++ behind)) = (t, some behind) := by
  rw [StatusLine.cutSpace, Seq.cut?_of_not_mem ht]

/-- What stands behind the version is cut behind the code. -/
theorem cutSpace_code (hspace : ' ' ∉ s.code) :
    StatusLine.cutSpace (Seq.joined [' '] s.code s.reason?.toList) = (s.code, s.reason?) := by
  cases s.reason? with
  | none =>
    rw [Option.toList_none, Seq.joined_nil]
    exact cutSpace_of_not_mem hspace
  | some t =>
    rw [Option.toList_some, Seq.joined_cons, Seq.joined_nil]
    exact cutSpace_joined hspace

/-- **A line has its words in one way.** -/
theorem text_injective {r : StatusForm} (hversion : ' ' ∉ s.version) (hspace : ' ' ∉ s.code)
    (hversion' : ' ' ∉ r.version) (hspace' : ' ' ∉ r.code) (h : s.text = r.text) : s = r := by
  have hcut := congrArg StatusLine.cutSpace h
  rw [text, text, Seq.joined_cons, Seq.joined_cons, cutSpace_joined hversion,
    cutSpace_joined hversion'] at hcut
  obtain ⟨hsame, hbehind⟩ := Prod.mk.inj hcut
  have hcode := congrArg StatusLine.cutSpace (Option.some.inj hbehind)
  rw [cutSpace_code hspace, cutSpace_code hspace'] at hcode
  obtain ⟨hword, hreason⟩ := Prod.mk.inj hcode
  cases s
  cases r
  rw [StatusForm.mk.injEq]
  exact ⟨hsame, hword, hreason⟩

/-- The words are read back, and the code in them is read. -/
theorem parse_of_code? (hhttp : "HTTP/".toList <+: s.version) (hversion : ' ' ∉ s.version)
    (hspace : ' ' ∉ s.code) {code : Nat} (hcode : StatusLine.code? s.code = some code) :
    StatusLine.parse s.text = .ok { code, reason := Text.trim (s.reason?.getD []) } := by
  obtain ⟨number, hnumber⟩ := hhttp
  have hplain : ' ' ∉ number := fun hmem => hversion (hnumber ▸ List.mem_append_right _ hmem)
  have hstrip : Seq.stripStart? "HTTP/".toList s.text =
      some (number ++ ([' '] ++ Seq.joined [' '] s.code s.reason?.toList)) := by
    rw [text, Seq.joined_cons, ← hnumber, List.append_assoc, Seq.stripStart?_eq_some_iff]
  simp only [StatusLine.parse, hstrip, cutSpace_joined hplain, cutSpace_code hspace, hcode]

/-- **The code and the reason are read back.** -/
theorem parse_text (h : s.Proper) {code : Nat} (hcode : s.value? = some code) :
    StatusLine.parse s.text = .ok { code, reason := Text.trim (s.reason?.getD []) } := by
  have hne : s.code ≠ [] := List.ne_nil_of_length_pos (by rw [h.length]; decide)
  have hread : StatusLine.code? s.code = some code := by
    obtain ⟨_, hvalue, hlt⟩ := exists_value? h
    obtain rfl := Option.some.inj (hcode.symm.trans hvalue)
    rw [StatusLine.code?, if_pos h.length]
    exact Numeral.readBase?_of_digits (by decide) hne hcode (by omega)
  exact parse_of_code? h.http h.version.1 (not_mem_code h (by decide)) hread

end StatusForm

/-- A start line. -/
inductive StartForm where
  | request (r : RequestForm)
  | response (s : StatusForm)
  deriving DecidableEq, Repr

namespace StartForm

/-- The side that writes the line. -/
def side : StartForm → Side
  | request _ => .request
  | response _ => .response

/-- The line. -/
def text : StartForm → Text
  | request r => r.text
  | response s => s.text

/-- The status that the line tells. -/
def status : StartForm → Option Nat
  | request _ => none
  | response s => s.value?

/-- The words can be told apart. -/
def Proper : StartForm → Prop
  | request r => r.Proper
  | response s => s.Proper

instance : DecidablePred Proper
  | request r => inferInstanceAs (Decidable r.Proper)
  | response s => inferInstanceAs (Decidable s.Proper)

variable {f : StartForm}

theorem unbroken_text (h : f.Proper) : Unbroken f.text := by
  cases f with
  | request r => exact RequestForm.unbroken_text h
  | response s => exact StatusForm.unbroken_text h

/-- **The status is read back.** -/
theorem status_text (h : f.Proper) : Head.status f.side f.text = .ok f.status := by
  cases f with
  | request r => simp only [Head.status, side, text, status, RequestForm.parse_text h, Except.map]
  | response s =>
    obtain ⟨code, hcode, _⟩ := StatusForm.exists_value? h
    simp only [Head.status, side, text, status, StatusForm.parse_text h hcode, Except.map, hcode]

/-- Only a response tells a status. -/
theorem side_of_status : ∀ code ∈ f.status, f.side = .response := by
  intro code hcode
  cases f with
  | request r => cases hcode
  | response s => rfl

theorem opensTunnel_text (h : f.Proper) :
    ¬ (f.side = .request ∧ Head.opensTunnel f.text = true) := by
  rintro ⟨hside, hopens⟩
  cases f with
  | request r => exact absurd hopens (Bool.eq_false_iff.mp (RequestForm.opensTunnel_text h))
  | response s => cases hside

end StartForm

end Http

/-! ## 3. Fields -/

namespace Text

/-- A text that trimming leaves alone is left alone at both ends. -/
theorem ends_of_trim_eq_self {t : Text} (h : trim t = t) : trimStart t = t ∧ trimEnd t = t := by
  have hstart : trimStart t = t := by
    have hsuffix : trimStart t <:+ t := List.dropWhile_suffix _
    have hle : (trim t).length ≤ (trimStart t).length := by
      rw [trim, trimEnd, List.length_reverse]
      exact Nat.le_trans (List.dropWhile_suffix _).length_le (Nat.le_of_eq (List.length_reverse ..))
    rw [h] at hle
    exact hsuffix.eq_of_length (Nat.le_antisymm hsuffix.length_le hle)
  rw [trim, hstart] at h
  exact ⟨hstart, h⟩

theorem trimStart_append {before : Text} (h : ∀ c ∈ before, Blank.isBlank c = true) (t : Text) :
    trimStart (before ++ t) = trimStart t :=
  List.dropWhile_append_of_pos h

theorem trimEnd_append {behind : Text} (h : ∀ c ∈ behind, Blank.isBlank c = true) (t : Text) :
    trimEnd (t ++ behind) = trimEnd t := by
  rw [trimEnd_eq_reverse, trimEnd_eq_reverse, List.reverse_append,
    trimStart_append fun c hc => h c (List.mem_reverse.mp hc)]

/-- **White space around a trimmed text is trimmed off.** -/
theorem trim_padded {before t behind : Text} (hbefore : ∀ c ∈ before, Blank.isBlank c = true)
    (ht : trim t = t) (hbehind : ∀ c ∈ behind, Blank.isBlank c = true) :
    trim (before ++ (t ++ behind)) = t := by
  obtain ⟨hstart, hend⟩ := ends_of_trim_eq_self ht
  rw [trim, trimStart_append hbefore]
  rcases trimStart_head t with hnil | ⟨c, r, hcons, hc⟩
  · rw [hstart] at hnil
    have hblank : trimStart behind = [] := List.dropWhile_eq_nil_iff.mpr hbehind
    rw [hnil, List.nil_append, hblank]
    rfl
  · rw [hstart] at hcons
    have hkeep : trimStart (t ++ behind) = t ++ behind := by
      rw [hcons]
      exact trimStart_eq_self hc
    rw [hkeep, trimEnd_append hbehind, hend]

end Text

namespace Http

/-- A field, and the white space in front of its value and behind it. -/
structure WrittenField where
  field : Head.Field
  before : Text
  behind : Text
  deriving DecidableEq, Repr

namespace WrittenField

/-- The line of a field. -/
def line (f : WrittenField) : Text :=
  f.field.name ++ ([':'] ++ (f.before ++ (f.field.value ++ f.behind)))

/-- A name without a colon and a value, both trimmed, on one line. -/
structure Proper (f : WrittenField) : Prop where
  name_ne : f.field.name ≠ []
  colon : ':' ∉ f.field.name
  name : Text.trim f.field.name = f.field.name
  value : Text.trim f.field.value = f.field.value
  before : ∀ c ∈ f.before, Blank.isBlank c = true
  behind : ∀ c ∈ f.behind, Blank.isBlank c = true
  unbroken : Unbroken f.line

instance : DecidablePred Proper := fun f =>
  decidable_of_iff (f.field.name ≠ [] ∧ ':' ∉ f.field.name ∧
      Text.trim f.field.name = f.field.name ∧ Text.trim f.field.value = f.field.value ∧
      f.before.all Blank.isBlank = true ∧ f.behind.all Blank.isBlank = true ∧ Unbroken f.line)
    ⟨fun ⟨hn, hc, ht, hv, hb, he, hu⟩ =>
        ⟨hn, hc, ht, hv, List.all_eq_true.mp hb, List.all_eq_true.mp he, hu⟩,
      fun ⟨hn, hc, ht, hv, hb, he, hu⟩ =>
        ⟨hn, hc, ht, hv, List.all_eq_true.mpr hb, List.all_eq_true.mpr he, hu⟩⟩

variable {f : WrittenField}

theorem line_ne_nil (f : WrittenField) : f.line ≠ [] :=
  List.append_ne_nil_of_right_ne_nil _ (List.cons_ne_nil _ _)

/-- **A field is read back.** -/
theorem field?_line (h : f.Proper) : Head.field? f.line = some f.field := by
  rw [Head.field?, line, Seq.cut?_of_not_mem h.colon, Option.map_some, h.name,
    Text.trim_padded h.before h.value h.behind]

end WrittenField

/-! ## 4. Heads -/

/-- A start line and fields. -/
structure WrittenHead where
  start : StartForm
  fields : List WrittenField
  deriving DecidableEq, Repr

namespace WrittenHead

/-- The lines, joined at CRLF. -/
def text (h : WrittenHead) : Text :=
  Seq.joined ['\r', '\n'] h.start.text (h.fields.map WrittenField.line)

/-- The bytes of the text, without the empty line behind it. -/
def bytes (h : WrittenHead) : Bytes := Head.encode h.start.side h.text

/-- Every line is one line, and its side has bytes for it. -/
structure Proper (h : WrittenHead) : Prop where
  start : h.start.Proper
  fields : ∀ f ∈ h.fields, f.Proper
  writable : Head.Writable h.start.side h.text

instance : DecidablePred Proper := fun h =>
  decidable_of_iff (h.start.Proper ∧ (∀ f ∈ h.fields, f.Proper) ∧
      Head.Writable h.start.side h.text)
    ⟨fun ⟨hs, hf, hw⟩ => ⟨hs, hf, hw⟩, fun ⟨hs, hf, hw⟩ => ⟨hs, hf, hw⟩⟩

variable {h : WrittenHead}

/-- **The text is read back.** -/
theorem decode_bytes (hp : h.Proper) : Head.decode h.start.side h.bytes = h.text :=
  Head.decode_encode hp.writable

/-- **The start line is read back.** -/
theorem startLine_text (hp : h.Proper) : Head.startLine h.text = h.start.text := by
  obtain ⟨hreturn, hfeed⟩ := StartForm.unbroken_text hp.start
  obtain ⟨start, fields⟩ := h
  cases fields with
  | nil =>
    rw [text, List.map_nil, Seq.joined_nil, Head.startLine, Seq.cut?_eq_none_of_not_mem hfeed]
  | cons f fields =>
    have hfront : '\n' ∉ start.text ++ ['\r'] := by
      intro hmem
      exact (List.mem_append.mp hmem).elim hfeed (by decide)
    have hlines : text ⟨start, f :: fields⟩ = start.text ++ ['\r'] ++ (['\n'] ++
        Seq.joined ['\r', '\n'] f.line (fields.map WrittenField.line)) := by
      rw [text, List.map_cons, Seq.joined_cons, List.append_assoc]
      rfl
    rw [Head.startLine, hlines, Seq.cut?_of_not_mem hfront]
    exact Head.dropReturn_concat start.text

/-- **The fields are read back.** -/
theorem fields_text (hp : h.Proper) : Head.fields h.text = h.fields.map (·.field) := by
  have hlines : Head.fieldLines h.text = h.fields.map WrittenField.line := by
    rw [Head.fieldLines, text, Seq.pieces_joined (StartForm.unbroken_text hp.start).1
      (List.forall_mem_map.mpr fun f hf => (hp.fields f hf).unbroken.1), List.drop_one,
      List.tail_cons]
  rw [Head.fields, hlines, List.filterMap_map, List.filterMap_eq_map_iff_forall_eq_some]
  exact fun f hf => WrittenField.field?_line (hp.fields f hf)

/-- **The head ends where it was ended**, whatever comes behind it. -/
theorem findTerminator?_bytes (hp : h.Proper) (behind : Bytes) :
    findTerminator? (h.bytes ++ (terminator ++ behind)) 0 = some h.bytes.length := by
  have hline : ∀ f ∈ h.fields, Head.Writable h.start.side f.line := fun f hf =>
    hp.writable.of_subset (Seq.subset_joined_of_mem (List.mem_map_of_mem hf))
  have hstart : Head.Writable h.start.side h.start.text :=
    hp.writable.of_subset (Seq.subset_joined ..)
  have hbytes : h.bytes = Seq.joined crlf (Head.encode h.start.side h.start.text)
      ((h.fields.map WrittenField.line).map (Head.encode h.start.side)) := by
    have hcrlf : Head.encode h.start.side ['\r', '\n'] = crlf := by
      cases h.start.side <;> decide
    rw [bytes, text, Seq.map_joined (Head.encode_append h.start.side), hcrlf]
  rw [hbytes]
  refine findTerminator?_joined ?_ (fun line hmem => ?_) behind
  · exact fun hmem => (StartForm.unbroken_text hp.start).1
      (Head.mem_of_mem_encode hstart (by decide) hmem)
  · rw [List.map_map] at hmem
    obtain ⟨f, hf, rfl⟩ := List.mem_map.mp hmem
    exact ⟨fun hreturn => (hp.fields f hf).unbroken.1
        (Head.mem_of_mem_encode (hline f hf) (by decide) hreturn),
      Head.encode_ne_nil (hline f hf) f.line_ne_nil⟩

end WrittenHead

end Http

end TrafficGate
