import Mathlib.Data.List.Basic
import Mathlib.Data.List.TakeWhile
import TrafficGate.Exchange.Request
import TrafficGate.Exchange.Response
import TrafficGate.Proofs.JoinedLists
import TrafficGate.Proofs.StepExtension
import TrafficGate.Proofs.WrittenTexts
/-!
  # The lines of a head

  The start line of a head ends at the first line feed, and the lines behind it are cut at CRLF. The
  two agree where the first line feed has a carriage return in front of it. Where it has none, the
  text from there to the next CRLF is in no line: no field is found in it, and the head is read as
  if it were not there.

  1. the first line feed of a list;
  2. start line, `overlooked` and the lines behind it are the whole head;
  3. what is read of a head is read without the overlooked text;
  4. the first line feed of the bytes;
  5. messages.

  Main facts: **`Head.eq_startLine_append`**, **`Head.accounted_iff`**, **`Head.startLine_seen`**,
  **`Head.fieldLines_seen`**, **`Head.loose_decode`** and **`carveFrom_accounts`**.
-/

namespace TrafficGate

namespace Seq

/-! ## 1. The first line feed -/

variable {α : Type} [DecidableEq α] {ret feed : α} {l x y : List α}

/-- There is a line feed, and the first one has no carriage return in front of it. -/
def Loose (ret feed : α) (l : List α) : Prop :=
  feed ∈ l ∧ (l.takeWhile (· ≠ feed)).getLast? ≠ some ret

instance : Decidable (Loose ret feed l) :=
  inferInstanceAs (Decidable (feed ∈ l ∧ (l.takeWhile (· ≠ feed)).getLast? ≠ some ret))

/-- A list up to its first line feed. -/
inductive FirstFeed (ret feed : α) : List α → Prop where
  | absent {l : List α} (h : feed ∉ l) : FirstFeed ret feed l
  | ended {x : List α} (y : List α) (h : feed ∉ x) : FirstFeed ret feed (x ++ ret :: feed :: y)
  | loose {x : List α} (y : List α) (h : feed ∉ x) (hlast : x.getLast? ≠ some ret) :
      FirstFeed ret feed (x ++ feed :: y)

theorem firstFeed (ret feed : α) (l : List α) : FirstFeed ret feed l := by
  by_cases hmem : feed ∈ l
  · obtain ⟨x, y, rfl, hx⟩ := List.eq_append_cons_of_mem hmem
    by_cases hlast : x.getLast? = some ret
    · obtain ⟨front, rfl⟩ := List.getLast?_eq_some_iff.mp hlast
      rw [List.append_assoc]
      exact .ended y fun hfront => hx (List.mem_append_left _ hfront)
    · exact .loose y hx hlast
  · exact .absent hmem

theorem takeWhile_ne_append (h : feed ∉ x) (y : List α) :
    (x ++ feed :: y).takeWhile (· ≠ feed) = x :=
  takeWhile_append_of_head (fun _ hc => decide_eq_true fun he => h (he ▸ hc)) (by simp)

theorem takeWhile_of_not_mem (h : feed ∉ l) : l.takeWhile (· ≠ feed) = l :=
  List.takeWhile_eq_self_iff.mpr fun _ hc => decide_eq_true fun he => h (he ▸ hc)

theorem loose_append_iff (h : feed ∉ x) (y : List α) :
    Loose ret feed (x ++ feed :: y) ↔ x.getLast? ≠ some ret := by
  rw [Loose, takeWhile_ne_append h]
  exact and_iff_right (List.mem_append_right _ List.mem_cons_self)

theorem not_loose_append (hne : ret ≠ feed) (h : feed ∉ x) (y : List α) :
    ¬ Loose ret feed (x ++ ret :: feed :: y) := by
  have hfront : feed ∉ x ++ [ret] := by
    simp only [List.mem_append, List.mem_singleton, not_or]
    exact ⟨h, hne.symm⟩
  rw [List.append_cons, loose_append_iff hfront, List.getLast?_concat]
  exact not_not_intro rfl

/-- What stands behind a line end does not change which line feed is the first. -/
theorem loose_append_ended_iff (hne : ret ≠ feed) (l y : List α) :
    Loose ret feed (l ++ ret :: feed :: y) ↔ Loose ret feed l := by
  cases firstFeed ret feed l with
  | absent h => exact iff_of_false (not_loose_append hne h y) fun hloose => h hloose.1
  | ended z h =>
    rw [List.append_assoc]
    exact iff_of_false (not_loose_append hne h _) (not_loose_append hne h z)
  | loose z h hlast => rw [List.append_assoc, List.cons_append, loose_append_iff h, loose_append_iff h]

theorem cut?_of_absent (h : feed ∉ l) : cut? [ret, feed] l = none := by
  cases hcut : cut? [ret, feed] l with
  | none => rfl
  | some cut =>
    refine absurd ?_ h
    rw [cut?_eq_some hcut]
    simp

omit [DecidableEq α] in
/-- A line end does not start at a carriage return that no line feed stands behind. -/
theorem not_prefix_cons {c : α} (h : feed ∉ c :: x)
    (hlast : (c :: x).getLast? = some ret → y.head? ≠ some feed) :
    ¬ [ret, feed] <+: c :: (x ++ y) := by
  rintro ⟨rest, hrest⟩
  obtain ⟨rfl, hbehind⟩ := List.cons.inj hrest
  cases x with
  | nil =>
    refine hlast rfl ?_
    rw [List.nil_append] at hbehind
    rw [← hbehind]
    rfl
  | cons d x =>
    obtain ⟨rfl, -⟩ := List.cons.inj hbehind
    exact h (List.mem_cons_of_mem _ List.mem_cons_self)

/-- **A line ends at its line end**, which is the first one. -/
theorem cut?_of_ended (hne : ret ≠ feed) (h : feed ∉ x) (y : List α) :
    cut? [ret, feed] (x ++ ret :: feed :: y) = some (x, y) := by
  induction x with
  | nil =>
    rw [cut?, show [] ++ ret :: feed :: y = [ret, feed] ++ y from rfl, indexOf?_self]
    rfl
  | cons c x ih =>
    have hrest := ih fun hmem => h (List.mem_cons_of_mem c hmem)
    have hstart : ¬ [ret, feed] <+: c :: (x ++ ret :: feed :: y) :=
      not_prefix_cons h fun _ hhead => hne (Option.some.inj hhead)
    rw [List.cons_append, cut?_cons hstart, hrest]
    rfl

/-- **A line goes on behind a loose line feed.** -/
theorem cut?_of_loose (hne : ret ≠ feed) (h : feed ∉ x) (hlast : x.getLast? ≠ some ret)
    (y : List α) : cut? [ret, feed] (x ++ feed :: y) =
      (cut? [ret, feed] y).map fun cut => (x ++ feed :: cut.1, cut.2) := by
  induction x with
  | nil =>
    have hstart : ¬ [ret, feed] <+: feed :: y := fun ⟨_, hrest⟩ => hne (List.cons.inj hrest).1
    rw [List.nil_append, cut?_cons hstart]
    rfl
  | cons c x ih =>
    have hstart : ¬ [ret, feed] <+: c :: (x ++ feed :: y) :=
      not_prefix_cons h fun hret => absurd hret hlast
    have hrest := ih (fun hmem => h (List.mem_cons_of_mem c hmem)) fun hret => hlast (by
      rw [List.getLast?_cons, hret, Option.getD_some])
    rw [List.cons_append, cut?_cons hstart, hrest, Option.map_map]
    rfl

/-- The pieces behind the first are the pieces of what they are joined to. -/
theorem pieces_joined_of_pieces {pat first part : List α} {parts : List (List α)}
    (h : pieces pat l = first :: part :: parts) :
    pieces pat (joined pat part parts) = part :: parts := by
  rw [pieces] at h
  split at h
  · cases h
  · split at h
    · cases h
    · obtain ⟨-, hrest⟩ := List.cons.inj h
      rw [joined_of_pieces hrest, hrest]

end Seq

namespace Http

namespace Head

/-! ## 2. The lines of a head -/

/-- The head up to its first CRLF. -/
def firstLine (head : Text) : Text := (Seq.pieces ['\r', '\n'] head).headD []

/-- What the first line has from its first line feed on. -/
def overlooked (head : Text) : Text := (firstLine head).dropWhile (· ≠ '\n')

/-- The start line and the lines behind it, joined at CRLF. -/
def seen (head : Text) : Text := Seq.joined ['\r', '\n'] (startLine head) (fieldLines head)

/-- The head is its start line and the lines behind it. -/
def Accounted (head : Text) : Prop := head = seen head

variable {head x : Text}

theorem pieces_eq (head : Text) :
    Seq.pieces ['\r', '\n'] head = firstLine head :: fieldLines head := by
  obtain ⟨first, parts, hpieces⟩ :=
    List.exists_cons_of_length_pos (Seq.pieces_length_pos ['\r', '\n'] head)
  rw [firstLine, fieldLines, hpieces, List.headD_cons, List.drop_one, List.tail_cons]

theorem lines_of_cons {first : Text} {parts : List Text}
    (h : Seq.pieces ['\r', '\n'] head = first :: parts) :
    firstLine head = first ∧ fieldLines head = parts := by
  obtain ⟨hfirst, hparts⟩ := List.cons.inj ((pieces_eq head).symm.trans h)
  exact ⟨hfirst, hparts⟩

/-- **All lines, joined at CRLF, are the head.** -/
theorem joined_lines (head : Text) :
    Seq.joined ['\r', '\n'] (firstLine head) (fieldLines head) = head :=
  Seq.joined_of_pieces (pieces_eq head)

theorem dropReturn_of_getLast? (h : x.getLast? ≠ some '\r') : dropReturn x = x := by
  unfold dropReturn
  cases hstrip : Seq.stripEnd? ['\r'] x with
  | none => rfl
  | some front =>
    obtain rfl := Seq.stripEnd?_eq_some_iff.mp hstrip
    exact absurd List.getLast?_concat h

/-- A head of one line. -/
theorem lines_of_absent (h : '\n' ∉ head) :
    startLine head = head ∧ firstLine head = head ∧ fieldLines head = [] := by
  refine ⟨?_, lines_of_cons ?_⟩
  · rw [startLine, Seq.cut?_eq_none_of_not_mem h]
  · rw [Seq.pieces_of_cut?_eq_none (Seq.cut?_of_absent h)]

/-- A head whose first line feed ends a line. -/
theorem lines_of_ended (h : '\n' ∉ x) (y : Text) :
    startLine (x ++ '\r' :: '\n' :: y) = x ∧ firstLine (x ++ '\r' :: '\n' :: y) = x ∧
      fieldLines (x ++ '\r' :: '\n' :: y) = Seq.pieces ['\r', '\n'] y := by
  refine ⟨?_, lines_of_cons ?_⟩
  · have hfront : '\n' ∉ x ++ ['\r'] := fun hmem =>
      (List.mem_append.mp hmem).elim h (by decide)
    have hcut : Seq.cut? ['\n'] (x ++ ['\r'] ++ '\n' :: y) = some (x ++ ['\r'], y) :=
      Seq.cut?_of_not_mem hfront [] y
    rw [List.append_cons, startLine, hcut]
    exact dropReturn_concat x
  · exact Seq.pieces_of_cut? (by decide) (Seq.cut?_of_ended (by decide) h y)

/-- A head whose first line feed ends no line. -/
theorem lines_of_loose (h : '\n' ∉ x) (hlast : x.getLast? ≠ some '\r') (y : Text) :
    startLine (x ++ '\n' :: y) = x ∧ firstLine (x ++ '\n' :: y) = x ++ '\n' :: firstLine y ∧
      fieldLines (x ++ '\n' :: y) = fieldLines y := by
  refine ⟨?_, lines_of_cons ?_⟩
  · have hcut : Seq.cut? ['\n'] (x ++ '\n' :: y) = some (x, y) := Seq.cut?_of_not_mem h [] y
    rw [startLine, hcut]
    exact dropReturn_of_getLast? hlast
  · have hcut : Seq.cut? ['\r', '\n'] (x ++ '\n' :: y) = _ :=
      Seq.cut?_of_loose (by decide) h hlast y
    cases hbehind : Seq.cut? ['\r', '\n'] y with
    | none =>
      rw [hbehind] at hcut
      obtain ⟨hfirst, hlines⟩ := lines_of_cons (Seq.pieces_of_cut?_eq_none hbehind)
      rw [Seq.pieces_of_cut?_eq_none hcut, hfirst, hlines]
    | some cut =>
      rw [hbehind] at hcut
      obtain ⟨hfirst, hlines⟩ := lines_of_cons (Seq.pieces_of_cut? (by decide) hbehind)
      rw [Seq.pieces_of_cut? (by decide) hcut, hfirst, hlines]

/-- **The start line is what the first line has in front of its first line feed.** -/
theorem startLine_eq (head : Text) : startLine head = (firstLine head).takeWhile (· ≠ '\n') := by
  cases Seq.firstFeed '\r' '\n' head with
  | absent h =>
    obtain ⟨hstart, hfirst, -⟩ := lines_of_absent h
    rw [hstart, hfirst, Seq.takeWhile_of_not_mem h]
  | ended y h =>
    obtain ⟨hstart, hfirst, -⟩ := lines_of_ended h y
    rw [hstart, hfirst, Seq.takeWhile_of_not_mem h]
  | loose y h hlast =>
    obtain ⟨hstart, hfirst, -⟩ := lines_of_loose h hlast y
    rw [hstart, hfirst, Seq.takeWhile_ne_append h]

/-- The first line has a line feed exactly if that is the first one and ends no line. -/
theorem mem_firstLine_iff : '\n' ∈ firstLine head ↔ Seq.Loose '\r' '\n' head := by
  cases Seq.firstFeed '\r' '\n' head with
  | absent h =>
    rw [(lines_of_absent h).2.1]
    exact iff_of_false h fun hloose => h hloose.1
  | ended y h =>
    rw [(lines_of_ended h y).2.1]
    exact iff_of_false h (Seq.not_loose_append (by decide) h y)
  | loose y h hlast =>
    rw [(lines_of_loose h hlast y).2.1, Seq.loose_append_iff h]
    exact iff_of_true (List.mem_append_right _ List.mem_cons_self) hlast

theorem not_mem_startLine (head : Text) : '\n' ∉ startLine head := by
  rw [startLine_eq]
  intro hmem
  have hother := List.mem_takeWhile_imp hmem
  exact absurd hother (by decide)

/-- **The start line, what is overlooked and the lines behind are the head.** -/
theorem eq_startLine_append (head : Text) : head =
    startLine head ++ (overlooked head ++ (fieldLines head).flatMap (['\r', '\n'] ++ ·)) := by
  rw [← List.append_assoc, startLine_eq, overlooked, List.takeWhile_append_dropWhile]
  exact (joined_lines head).symm

theorem overlooked_eq_nil_iff : overlooked head = [] ↔ ¬ Seq.Loose '\r' '\n' head := by
  rw [← mem_firstLine_iff, overlooked, List.dropWhile_eq_nil_iff]
  simp only [decide_eq_true_eq]
  exact ⟨fun hall hmem => hall _ hmem rfl, fun hno c hc he => hno (he ▸ hc)⟩

/-- What is overlooked starts with the line feed that ended the start line. -/
theorem head?_overlooked (h : Seq.Loose '\r' '\n' head) : (overlooked head).head? = some '\n' := by
  have hne : overlooked head ≠ [] := fun hnil => overlooked_eq_nil_iff.mp hnil h
  have hstop : decide ((overlooked head).head hne ≠ '\n') = false := List.head_dropWhile_not _ hne
  rw [List.head?_eq_some_head hne]
  exact congrArg some (not_not.mp (of_decide_eq_false hstop))

/-- **A head is its lines** exactly if its first line feed ends a line. -/
theorem accounted_iff : Accounted head ↔ ¬ Seq.Loose '\r' '\n' head := by
  rw [← overlooked_eq_nil_iff]
  constructor
  · intro h
    have hwhole := (eq_startLine_append head).symm.trans h
    rw [seen, Seq.joined, List.append_cancel_left_eq, List.append_left_eq_self] at hwhole
    exact hwhole
  · intro h
    have hwhole := eq_startLine_append head
    rw [h, List.nil_append] at hwhole
    exact hwhole

/-! ## 3. What is read of a head -/

/-- **The start line is read without the overlooked text**, and so are the lines behind it. -/
theorem startLine_seen (head : Text) : startLine (seen head) = startLine head := by
  have hstart := not_mem_startLine head
  unfold seen
  generalize startLine head = start at hstart
  cases fieldLines head with
  | nil => rw [Seq.joined_nil, (lines_of_absent hstart).1]
  | cons part parts =>
    rw [Seq.joined_cons]
    exact (lines_of_ended hstart _).1

theorem fieldLines_seen (head : Text) : fieldLines (seen head) = fieldLines head := by
  have hstart := not_mem_startLine head
  have hpieces := pieces_eq head
  unfold seen
  generalize startLine head = start at hstart
  cases hlines : fieldLines head with
  | nil => rw [Seq.joined_nil, (lines_of_absent hstart).2.2]
  | cons part parts =>
    rw [hlines] at hpieces
    rw [Seq.joined_cons]
    exact (lines_of_ended hstart _).2.2.trans (Seq.pieces_joined_of_pieces hpieces)

theorem fieldText_seen (head : Text) : fieldText (seen head) = fieldText head := by
  rw [fieldText, fieldText, fieldLines_seen]

theorem fields_seen (head : Text) : fields (seen head) = fields head := by
  rw [fields, fields, fieldLines_seen]

theorem find?_seen (name head : Text) : find? name (seen head) = find? name head := by
  rw [find?, find?, fields_seen]

theorem isChunked_seen (head : Text) : isChunked (seen head) = isChunked head := by
  rw [isChunked, isChunked, fields_seen]

theorem contentLength_seen (head : Text) : contentLength (seen head) = contentLength head := by
  rw [contentLength, contentLength, find?_seen]

end Head

/-- A message without the overlooked text of its head. -/
def Message.seen (m : Message) : Message := { m with head := Head.seen m.head }

namespace Message

variable (m : Message)

theorem startLine_seen : m.seen.startLine = m.startLine := Head.startLine_seen m.head

theorem field?_seen (name : Text) : m.seen.field? name = m.field? name := Head.find?_seen name m.head

theorem fieldText_seen : m.seen.fieldText = m.fieldText := Head.fieldText_seen m.head

end Message

/-- **The body behind a head is framed without the overlooked text.** -/
theorem Frame.resolve_seen (head : Text) (side : Side) (status : Option Nat) (answersHead : Bool)
    (rest : Bytes) : resolve (Head.seen head) side status answersHead rest =
      resolve head side status answersHead rest := by
  rw [resolve, resolve, Head.isChunked_seen, Head.contentLength_seen]

end Http

namespace Exchange

open Http

/-- **A request is read without the overlooked text**: its URL, its fields and its host. -/
theorem Request.ofMessage_seen (flow : FlowId) (m : Message) :
    ofMessage flow m.seen = ofMessage flow m := by
  unfold ofMessage
  rw [m.startLine_seen, m.field?_seen, m.field?_seen, m.fieldText_seen]
  rfl

theorem Response.ofMessage_seen (m : Message) : ofMessage m.seen = ofMessage m := by
  unfold ofMessage
  rw [m.startLine_seen, m.field?_seen, m.field?_seen, m.fieldText_seen]
  rfl

end Exchange

namespace Http

namespace Head

/-! ## 4. Bytes -/

variable {side : Side} {b : UInt8} {bs : Bytes}

/-- A byte below 128 is a character of its own. -/
theorem decode_append_ascii (side : Side) (hb : b.toNat < 0x80) (front behind : Bytes) :
    decode side (front ++ b :: behind) =
      decode side front ++ Latin1.char b :: decode side behind := by
  cases side with
  | request => exact Utf8.decodeLossy_append_ascii hb front behind
  | response => simp only [decode, Latin1.decode, List.map_append, List.map_cons]

theorem mem_decode_iff (side : Side) (hb : b.toNat < 0x80) :
    Latin1.char b ∈ decode side bs ↔ b ∈ bs := by
  cases side with
  | request => exact Utf8.mem_decodeLossy_iff hb
  | response => exact List.mem_map_of_injective fun _ _ => Latin1.char_injective

theorem decode_eq_nil_iff (side : Side) : decode side bs = [] ↔ bs = [] := by
  cases side with
  | request => cases bs <;> simp [decode, Utf8.decodeLossy]
  | response => exact List.map_eq_nil_iff

/-- The text ends with a character below 128 exactly if the bytes end with its byte. -/
theorem getLast?_decode_iff (side : Side) (hb : b.toNat < 0x80) :
    (decode side bs).getLast? = some (Latin1.char b) ↔ bs.getLast? = some b := by
  constructor
  · intro hlast
    have hmem : b ∈ bs := (mem_decode_iff side hb).mp (List.mem_of_getLast? hlast)
    -- the last of these bytes is the last character
    obtain ⟨behind, front, hreverse, hbehind⟩ :=
      List.eq_append_cons_of_mem (List.mem_reverse.mpr hmem)
    obtain rfl : bs = front.reverse ++ b :: behind.reverse := by
      rw [← List.reverse_reverse bs, hreverse]
      simp
    by_cases hnil : behind = []
    · rw [hnil, List.reverse_nil]
      exact List.getLast?_concat
    · have htext : decode side behind.reverse ≠ [] := fun he =>
        hnil (List.reverse_eq_nil_iff.mp ((decode_eq_nil_iff side).mp he))
      rw [decode_append_ascii side hb, List.append_cons,
        List.getLast?_append_of_ne_nil _ htext] at hlast
      have hlate := (mem_decode_iff side hb).mp (List.mem_of_getLast? hlast)
      exact absurd (List.mem_reverse.mp hlate) hbehind
  · intro hlast
    obtain ⟨front, rfl⟩ := List.getLast?_eq_some_iff.mp hlast
    rw [decode_append_ascii side hb, (decode_eq_nil_iff side).mpr rfl]
    exact List.getLast?_concat

/-- **The first line feed of the text is that of the bytes**, with a carriage return in front of it
    or without. -/
theorem loose_decode (side : Side) (bs : Bytes) :
    Seq.Loose '\r' '\n' (decode side bs) ↔ Seq.Loose 13 10 bs := by
  have hfeed : ∀ {part : Bytes}, '\n' ∈ decode side part ↔ 10 ∈ part :=
    mem_decode_iff side (b := 10) (by decide)
  cases Seq.firstFeed (13 : UInt8) 10 bs with
  | absent h => exact iff_of_false (fun hloose => h (hfeed.mp hloose.1)) fun hloose => h hloose.1
  | ended y h =>
    refine iff_of_false ?_ (Seq.not_loose_append (by decide) h y)
    rw [decode_append_ascii side (by decide), ← List.nil_append (10 :: y),
      decode_append_ascii side (by decide), (decode_eq_nil_iff side).mpr rfl]
    exact Seq.not_loose_append (by decide) (fun hmem => h (hfeed.mp hmem)) _
  | @loose x y h hlast =>
    have hfront : '\n' ∉ decode side x := fun hmem => h (hfeed.mp hmem)
    rw [decode_append_ascii side (by decide), Seq.loose_append_iff h]
    exact (Seq.loose_append_iff hfront _).trans
      (not_congr (getLast?_decode_iff side (b := 13) (by decide)))

end Head

/-! ## 5. Messages -/

/-- The bytes of a message start with those of its head and an empty line. -/
theorem exists_front_of_carveFrom {data : Bytes} {side : Side} {scan : Nat} {answersHead : Bool}
    {m : Message} (h : carveFrom data side scan answersHead = .complete m) :
    ∃ front behind, data = front ++ (terminator ++ behind) ∧ m.head = Head.decode side front := by
  unfold carveFrom at h
  split at h
  · cases h
  · next i hi =>
    obtain ⟨_, _, _, -, -, rfl⟩ := carveHead_eq_complete h
    obtain ⟨-, hat, -⟩ := findTerminator?_eq_some_iff.mp hi
    obtain ⟨behind, hbehind⟩ := hat
    exact ⟨data.take i, behind, by rw [hbehind, List.take_append_drop], rfl⟩

/-- **What the lines of a head leave out.** The head of a message is its start line, the text that is
    overlooked and the lines behind, at CRLF. Nothing is overlooked exactly if the first line feed of
    the bytes has a carriage return in front of it, and what is overlooked is not there for any
    reader: the message without it is the same request and response, with the same fields and the
    same body. -/
theorem carveFrom_accounts {data : Bytes} {side : Side} {scan : Nat} {answersHead : Bool}
    {m : Message} (h : carveFrom data side scan answersHead = .complete m) :
    m.head = m.startLine ++ (Head.overlooked m.head ++
        (Head.fieldLines m.head).flatMap (['\r', '\n'] ++ ·)) ∧
    (Head.Accounted m.head ↔ ¬ Seq.Loose 13 10 data) ∧
    (Seq.Loose 13 10 data → (Head.overlooked m.head).head? = some '\n') ∧
    m.seen.startLine = m.startLine ∧ Head.fieldLines m.seen.head = Head.fieldLines m.head ∧
    m.seen.fields = m.fields ∧ m.seen.fieldText = m.fieldText ∧
    (∀ flow, Exchange.Request.ofMessage flow m.seen = Exchange.Request.ofMessage flow m) ∧
    Exchange.Response.ofMessage m.seen = Exchange.Response.ofMessage m ∧
    ∀ status flag rest,
      Frame.resolve m.seen.head side status flag rest = Frame.resolve m.head side status flag rest := by
  obtain ⟨front, behind, rfl, hhead⟩ := exists_front_of_carveFrom h
  have hloose : Seq.Loose '\r' '\n' m.head ↔ Seq.Loose 13 10 (front ++ (terminator ++ behind)) := by
    rw [hhead, Head.loose_decode]
    exact (Seq.loose_append_ended_iff (by decide) front _).symm
  refine ⟨Head.eq_startLine_append m.head, ?_, fun hdata => Head.head?_overlooked (hloose.mpr hdata),
    m.startLine_seen, Head.fieldLines_seen m.head, Head.fields_seen m.head, m.fieldText_seen,
    fun flow => Exchange.Request.ofMessage_seen flow m, Exchange.Response.ofMessage_seen m,
    Frame.resolve_seen m.head side⟩
  rw [Head.accounted_iff, hloose]

/-- A request with a line feed in the first line, or with a whole line end. -/
def splitRequest (lineEnd : String) : Bytes :=
  Utf8.encode ("GET / HTTP/1.1".toList ++ lineEnd.toList ++ "Host: h\r\nA: b\r\n\r\n".toList)

/-- The message of such a request. -/
def splitMessage (lineEnd : String) : Message :=
  { side := .request
    raw := splitRequest lineEnd
    head := "GET / HTTP/1.1".toList ++ lineEnd.toList ++ "Host: h\r\nA: b".toList
    body := none
    status := none }

/-- A request whose lines are its head. -/
theorem carveFrom_accounts_ended :
    carve (splitRequest "\r\n") .request = .complete (splitMessage "\r\n") ∧
      Head.Accounted (splitMessage "\r\n").head := by
  have hcarve : carve (splitRequest "\r\n") .request = .complete (splitMessage "\r\n") := by
    decide +kernel
  exact ⟨hcarve, (carveFrom_accounts hcarve).2.1.mpr (by decide +kernel)⟩

/-- **A field behind a bare line feed is in no line**: the request has no host. -/
theorem exists_overlooked_field :
    ∃ m, carve (splitRequest "\n") .request = .complete m ∧ ¬ Head.Accounted m.head ∧
      Head.overlooked m.head = "\nHost: h".toList ∧ m.startLine = "GET / HTTP/1.1".toList ∧
      m.field? "host".toList = none ∧
      Exchange.Request.ofMessage ⟨7, false⟩ m = .error .missingHost := by
  refine ⟨splitMessage "\n", by decide +kernel, ?_, by decide +kernel, by decide +kernel,
    by decide +kernel, by decide +kernel⟩
  rw [Head.accounted_iff]
  exact not_not_intro (by decide +kernel)

end Http

end TrafficGate
