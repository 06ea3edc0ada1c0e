import TrafficGate.Proofs.HeadAlignment
/-!
  # Bodies on the wire

  The bytes of a message are its head, an empty line and a content. The content is the payload
  itself, or holds it in chunks. Said without carving: where the first empty line stands, and what
  the chunks are. The body of a message that is framed is its payload, and no body stands for a
  payload without bytes; what was cut or lost has none.

  1. `Decodes` -- a content in chunks and the payload in it;
  2. `Holds` -- a content behind a head and its payload;
  3. `Carries` -- a message and its payload;
  4. messages that are carved, and `CarryInTurn`: what buffers give;
  5. `Trails` -- where the bytes of messages, and those that wait, stand in what was observed.

  Main facts: **`decodes_decode`**, **`Carries.unique`**, **`carries_receive`** and
  **`Trails.receive`**.
-/

namespace TrafficGate

namespace Http

/-! ## 1. Chunks -/

namespace Chunked

/-- A content in chunks, and the payload in it: each chunk stands behind a line with its size and has
    a line end behind it, and a line without a size ends them. -/
inductive Decodes : Bytes → Bytes → Prop where
  | last {content line : Bytes} (hcut : Seq.cut? crlf content = some (line, crlf))
      (hsize : sizeOf line = 0) : Decodes content []
  | chunk {content line data rest payload : Bytes}
      (hcut : Seq.cut? crlf content = some (line, data ++ (crlf ++ rest)))
      (hsize : sizeOf line = data.length) (hdata : data ≠ []) (hrest : Decodes rest payload) :
      Decodes content (data ++ payload)

/-- **A content has one payload.** -/
theorem Decodes.unique {content payload other : Bytes} (h : Decodes content payload)
    (h' : Decodes content other) : payload = other := by
  induction h generalizing other with
  | last hcut hsize =>
    cases h' with
    | last => rfl
    | chunk hcut' hsize' hdata =>
      obtain ⟨rfl, -⟩ := Prod.mk.inj (Option.some.inj (hcut.symm.trans hcut'))
      exact absurd (List.length_eq_zero_iff.mp (hsize'.symm.trans hsize)) hdata
  | chunk hcut hsize hdata _ ih =>
    cases h' with
    | last hcut' hsize' =>
      obtain ⟨rfl, -⟩ := Prod.mk.inj (Option.some.inj (hcut.symm.trans hcut'))
      exact absurd (List.length_eq_zero_iff.mp (hsize.symm.trans hsize')) hdata
    | chunk hcut' hsize' _ hrest' =>
      obtain ⟨rfl, hbehind⟩ := Prod.mk.inj (Option.some.inj (hcut.symm.trans hcut'))
      obtain ⟨rfl, hend⟩ := List.append_inj hbehind (hsize.symm.trans hsize')
      rw [ih (List.append_cancel_left hend ▸ hrest')]

theorem eq_complete_of_addChunk {chunk body : Bytes} {c : Chunked} {n : Nat}
    (h : addChunk chunk c = complete body n) :
    ∃ payload, c = complete payload n ∧ body = chunk ++ payload := by
  cases c with
  | complete payload m =>
    cases h
    exact ⟨payload, rfl, rfl⟩
  | incomplete => cases h
  | malformed m flaw => cases h

/-- The parts of the bytes behind a size line whose chunk has a line end behind it. -/
theorem split_of_ending {rest : Bytes} {size : Nat}
    (h : (rest.drop size).take crlf.length = crlf) :
    rest = rest.take size ++ (crlf ++ (rest.drop size).drop crlf.length) ∧
      (rest.take size).length = size := by
  have hend := List.take_append_drop crlf.length (rest.drop size)
  rw [h] at hend
  refine ⟨by rw [hend, List.take_append_drop], ?_⟩
  have hlength := congrArg List.length h
  simp only [List.length_take, List.length_drop, crlf, List.length_cons, List.length_nil] at *
  omega

/-- **What a walk takes for a body is the payload of what it took.** -/
theorem decodes_walk (pos : Nat) (data : Bytes) :
    ∀ body n, walk pos data = complete body n →
      pos ≤ n ∧ Decodes (data.take (n - pos)) body := by
  fun_induction walk pos data with
  | case1 | case2 | case3 =>
    intro body n h
    cases h
  | case4 pos data line rest hcut size stop frame behind ending hroom hending hzero =>
    intro body n h
    obtain ⟨rfl, hn⟩ := complete.inj h
    obtain ⟨hrest, -⟩ := split_of_ending (Classical.not_not.mp hending)
    rw [show rest.take size = [] from hzero ▸ List.take_zero] at hrest
    have hdata := Seq.cut?_eq_some hcut
    have hfront : data = (line ++ crlf ++ crlf) ++ behind.drop crlf.length := by
      rw [hdata]
      conv => lhs; rw [hrest]
      simp only [List.nil_append, List.append_assoc, behind]
    have htaken : n - pos = (line ++ crlf ++ crlf).length := by
      simp only [← hn, List.length_append, frame, stop]
      omega
    refine ⟨by simp only [← hn, frame, stop]; omega, ?_⟩
    rw [htaken, hfront, List.take_left]
    exact .last (Seq.cut?_front hcut crlf) hzero
  | case5 pos data line rest hcut size stop frame behind ending hroom hending hsize ih =>
    intro body n h
    obtain ⟨payload, hwalk, rfl⟩ := eq_complete_of_addChunk h
    obtain ⟨hle, hdecodes⟩ := ih payload n hwalk
    obtain ⟨hrest, hlength⟩ := split_of_ending (Classical.not_not.mp hending)
    have hdata := Seq.cut?_eq_some hcut
    have hfront : data =
        (line ++ crlf ++ (rest.take size ++ crlf)) ++ behind.drop crlf.length := by
      rw [hdata]
      conv => lhs; rw [hrest]
      simp only [List.append_assoc, behind]
    have htaken : n - pos =
        (line ++ crlf ++ (rest.take size ++ crlf)).length + (n - frame) := by
      simp only [List.length_append, hlength, frame, stop] at hle ⊢
      omega
    refine ⟨by omega, ?_⟩
    rw [htaken, hfront, List.take_length_add_append, List.append_assoc _ _ (List.take _ _),
      List.append_assoc (rest.take size)]
    refine .chunk (Seq.cut?_front hcut _) hlength.symm (fun hnil => hsize ?_) hdecodes
    rw [← hlength, hnil, List.length_nil]

/-- **Decoding finds the payload.** -/
theorem decodes_decode {data body : Bytes} {n : Nat} (h : decode data = complete body n) :
    Decodes (data.take n) body := by
  have hwalk := (decodes_walk 0 data body n h).2
  rwa [Nat.sub_zero] at hwalk

end Chunked

/-! ## 2. Contents -/

/-- A content behind a head, and the payload in it, when the message answers a HEAD request or does
    not. -/
inductive Holds (side : Side) (head : Text) (status : Option Nat) (answersHead : Bool) :
    Bytes → Bytes → Prop where
  /-- There is no content, whatever the fields say. -/
  | forbidden (h : Frame.isForbidden status answersHead = true) :
      Holds side head status answersHead [] []
  | chunked {content payload : Bytes} (hallowed : Frame.isForbidden status answersHead = false)
      (h : side = .response ∧ Head.isChunked head = true)
      (hdecodes : Chunked.Decodes content payload) :
      Holds side head status answersHead content payload
  /-- As many bytes as the head declares. -/
  | plain {content : Bytes} (hallowed : Frame.isForbidden status answersHead = false)
      (h : ¬ (side = .response ∧ Head.isChunked head = true))
      (hlength : content.length = Head.contentLength head) :
      Holds side head status answersHead content content

/-- **A content holds one payload.** -/
theorem Holds.unique {side : Side} {head : Text} {status : Option Nat} {answersHead : Bool}
    {content payload other : Bytes} (h : Holds side head status answersHead content payload)
    (h' : Holds side head status answersHead content other) : payload = other := by
  cases h with
  | forbidden hforbidden =>
    cases h' with
    | forbidden => rfl
    | chunked hallowed | plain hallowed => exact absurd (hforbidden.symm.trans hallowed) nofun
  | chunked hallowed hchunked hdecodes =>
    cases h' with
    | forbidden hforbidden => exact absurd (hforbidden.symm.trans hallowed) nofun
    | chunked _ _ hdecodes' => exact hdecodes.unique hdecodes'
    | plain _ hplain => exact absurd hchunked hplain
  | plain hallowed hplain =>
    cases h' with
    | forbidden hforbidden => exact absurd (hforbidden.symm.trans hallowed) nofun
    | chunked _ hchunked => exact absurd hchunked hplain
    | plain => rfl

/-- The content of a declared length is its own payload. -/
theorem Frame.plain_of_ofLength {length n : Nat} {rest : Bytes} {body : Option Bytes}
    (h : ofLength length rest = framed body n) :
    (rest.take n).length = length ∧ body = ofBytes (rest.take n) := by
  unfold ofLength at h
  split at h
  · next hzero =>
    cases h
    exact ⟨hzero.symm, rfl⟩
  · next hsome =>
    split at h
    · cases h
    · next hroom =>
      cases h
      rw [List.isEmpty_iff, List.drop_eq_nil_iff] at hroom
      have hlength : (rest.take length).length = length := by
        rw [List.length_take]
        omega
      refine ⟨hlength, ?_⟩
      rw [ofBytes, if_neg]
      rw [List.isEmpty_iff, ← List.length_eq_zero_iff, hlength]
      exact hsome

/-- A content that is decoded holds its chunks. -/
theorem Frame.decodes_of_ofChunked {n : Nat} {rest : Bytes} {body : Option Bytes}
    (h : ofChunked (Chunked.decode rest) = framed body n) :
    ∃ payload, Chunked.Decodes (rest.take n) payload ∧ body = ofBytes payload := by
  cases hdecode : Chunked.decode rest with
  | complete payload m =>
    rw [hdecode] at h
    cases h
    exact ⟨payload, Chunked.decodes_decode hdecode, rfl⟩
  | incomplete => rw [hdecode] at h; cases h
  | malformed m flaw => rw [hdecode] at h; cases h

/-- **The body behind a head is the payload of the content.** -/
theorem Frame.holds_of_resolve {head : Text} {side : Side} {status : Option Nat}
    {answersHead : Bool} {rest : Bytes} {body : Option Bytes} {n : Nat}
    (h : resolve head side status answersHead rest = framed body n) :
    ∃ payload, Holds side head status answersHead (rest.take n) payload ∧
      body = ofBytes payload := by
  unfold resolve at h
  split at h
  · next hforbidden =>
    cases h
    exact ⟨[], .forbidden hforbidden, rfl⟩
  · next hforbidden =>
    have hallowed : isForbidden status answersHead = false := Bool.eq_false_iff.mpr hforbidden
    split at h
    · next hchunked =>
      obtain ⟨payload, hdecodes, hbody⟩ := decodes_of_ofChunked h
      exact ⟨payload, .chunked hallowed hchunked hdecodes, hbody⟩
    · next hplain =>
      obtain ⟨hlength, hbody⟩ := plain_of_ofLength h
      exact ⟨_, .plain hallowed hplain hlength, hbody⟩

/-! ## 3. Messages -/

/-- The bytes of a message are its head, the first empty line, and a content with the payload. -/
def Message.Carries (m : Message) (answersHead : Bool) (payload : Bytes) : Prop :=
  ∃ front content, Seq.cut? terminator m.raw = some (front, content) ∧
    m.head = Head.decode m.side front ∧ Holds m.side m.head m.status answersHead content payload

/-- **A message carries one payload.** -/
theorem Message.Carries.unique {m : Message} {answersHead : Bool} {payload other : Bytes}
    (h : m.Carries answersHead payload) (h' : m.Carries answersHead other) : payload = other := by
  obtain ⟨_, _, hcut, -, hholds⟩ := h
  obtain ⟨_, _, hcut', -, hholds'⟩ := h'
  obtain ⟨rfl, rfl⟩ := Prod.mk.inj (Option.some.inj (hcut.symm.trans hcut'))
  exact hholds.unique hholds'

/-! ## 4. Carving -/

theorem cut?_of_findTerminator? {data : Bytes} {i : Nat} (h : findTerminator? data 0 = some i) :
    Seq.cut? terminator data = some (data.take i, data.drop (i + terminator.length)) := by
  obtain ⟨j, hj, rfl⟩ := Option.map_eq_some_iff.mp h
  rw [Nat.zero_add, Seq.cut?]
  rw [List.drop_zero] at hj
  rw [hj, Option.map_some]

theorem carries_carveHead {data : Bytes} {side : Side} {answersHead : Bool} {i : Nat}
    {m : Message} (hi : findTerminator? data 0 = some i)
    (h : carveHead data side answersHead i = .complete m) :
    ∃ payload, m.Carries answersHead payload ∧ m.body = Frame.ofBytes payload := by
  obtain ⟨body, n, status, hbody, hstatus, rfl⟩ := carveHead_eq_complete h
  rw [bodyAt, hstatus] at hbody
  obtain ⟨payload, hholds, hpayload⟩ := Frame.holds_of_resolve hbody
  have hcut := cut?_of_findTerminator? hi
  have hdata := Seq.cut?_eq_some hcut
  have hroom := findTerminator?_le hi
  have hraw : data.take (i + terminator.length + n) =
      data.take i ++ terminator ++ (data.drop (i + terminator.length)).take n := by
    have hfront : i + terminator.length = (data.take i ++ terminator).length := by
      rw [List.length_append, List.length_take, Nat.min_eq_left (by omega)]
    conv => lhs; rw [hdata]
    rw [hfront, List.take_length_add_append]
  refine ⟨payload, ⟨_, _, ?_, rfl, hholds⟩, hpayload⟩
  rw [hraw]
  exact Seq.cut?_front hcut _

/-- **A message that is carved carries its body.** -/
theorem carries_carveFrom {data : Bytes} {side : Side} {scan : Nat} {answersHead : Bool}
    {m : Message} (hquiet : ∀ j < scan, ¬ terminator <+: data.drop j)
    (h : carveFrom data side scan answersHead = .complete m) :
    ∃ payload, m.Carries answersHead payload ∧ m.body = Frame.ofBytes payload := by
  rw [carveFrom_of_quiet hquiet] at h
  unfold carveFrom at h
  cases hi : findTerminator? data 0 with
  | none => rw [hi] at h; cases h
  | some i =>
    rw [hi] at h
    exact carries_carveHead hi h

/-- What is left of a message that is too large has no body. -/
theorem body_of_read? {data : Bytes} {side : Side} {t : Truncated} {m : Message}
    (h : Truncated.read? data side = some t) (hm : t.message = some m) : m.body = none := by
  obtain ⟨i, _, rfl⟩ := Option.map_eq_some_iff.mp h
  simp only [] at hm
  split at hm
  · cases hm
    rfl
  · cases hm

end Http

namespace Stream

open Http

/-- What an entry carries: a message its payload, and nothing stands for a payload without bytes; what
    was cut or lost nothing. -/
def Framed.Carries (f : Framed) (answersHead : Bool) (payload : Option Bytes) : Prop :=
  match f with
  | .message m => ∃ bytes, m.Carries answersHead bytes ∧ payload = Frame.ofBytes bytes
  | .truncated _ | .lost _ => payload = none

/-- The body of an entry. -/
def Framed.body? (f : Framed) : Option Bytes := f.message?.bind (·.body)

/-- Each entry carries its body, when it is asked of the number of exchanges that ended before it
    whether it answers a HEAD request. -/
def CarryInTurn (answersHead : Nat → Bool) : List Framed → Prop
  | [] => True
  | f :: fs => f.Carries (answersHead 0) f.body? ∧
      CarryInTurn (fun n => answersHead ((if f.endsExchange then 1 else 0) + n)) fs

/-- An entry that carries its body whatever it answers may stand behind the others. -/
theorem CarryInTurn.concat {answersHead : Nat → Bool} {fs : List Framed}
    (h : CarryInTurn answersHead fs) {f : Framed} (hf : ∀ flag, f.Carries flag f.body?) :
    CarryInTurn answersHead (fs ++ [f]) := by
  induction fs generalizing answersHead with
  | nil => exact ⟨hf _, trivial⟩
  | cons g fs ih => exact ⟨h.1, ih h.2⟩

theorem Accumulator.carries_carveAll {a : Accumulator} (ha : a.Searched) (side : Side)
    (answersHead : Nat → Bool) :
    CarryInTurn (flagAt side answersHead) (Buffer.reported (a.carveAll side answersHead).1) := by
  induction answersHead, a using carve_induction side with
  | waits answersHead a k hk =>
    rw [carveAll_of_none hk]
    trivial
  | piece answersHead a p hp ih =>
    rw [carveAll_of_some hp]
    have hbehind := ih (ha.skip _)
    cases p with
    | skipped bytes reason =>
      have hfinals : (fun n => answersHead ((Carved.skipped bytes reason).finals + n)) =
          answersHead := funext fun n => by rw [Carved.finals, Nat.zero_add]
      rw [hfinals] at hbehind ⊢
      exact hbehind
    | message m => exact ⟨carries_carveFrom ha.quiet (step_of_message hp), hbehind⟩

namespace Buffer

/-- What was given up carries nothing. -/
theorem carries_overflow {side : Side} {b : Buffer} {f : Framed}
    (h : (overflow side b).1 = some f) (flag : Bool) : f.Carries flag f.body? := by
  simp only [overflow] at h
  cases ht : Truncated.read? b.acc.unparsed side with
  | none =>
    rw [ht] at h
    cases h
    rfl
  | some t =>
    rw [ht] at h
    obtain ⟨m, hm, rfl⟩ := Option.map_eq_some_iff.mp h
    exact body_of_read? ht hm

theorem carries_receive {limit : Nat} {side : Side} {answersHead : Nat → Bool} {bs : Bytes}
    {b : Buffer} (hb : b.acc.Searched) :
    CarryInTurn (Accumulator.flagAt side answersHead)
      (receive limit side answersHead bs b).1 := by
  have hreported : CarryInTurn (Accumulator.flagAt side answersHead)
      (reported (absorb side answersHead bs b).1) :=
    Accumulator.carries_carveAll (searched_recover (hb.append bs) side) side answersHead
  rw [receive_eq]
  simp only []
  split
  · cases hover : (overflow side (absorb side answersHead bs b).2).1 with
    | none => exact (List.append_nil _).symm ▸ hreported
    | some f => exact hreported.concat (carries_overflow hover)
  · exact hreported

end Buffer

/-- **Every entry carries its body.** -/
theorem Buffers.carries_receive {s : Buffers} (hs : s.Searched) (flow : FlowId) (side : Side)
    (answersHead : Nat → Bool) (bs : Bytes) :
    CarryInTurn (Accumulator.flagAt side answersHead)
      (s.receive flow side answersHead bs).1 := by
  by_cases hbs : bs = []
  · rw [hbs, receive_nil]
    trivial
  · rw [receive_of_ne_nil hbs]
    exact Buffer.carries_receive (hs flow side)

/-! ## 5. Streams -/

namespace Accumulator

variable {a : Accumulator} {side : Side} {answersHead : Nat → Bool}

theorem infix_carveAll {p : Carved} (h : p ∈ (a.carveAll side answersHead).1) :
    p.raw <:+: a.unparsed := by
  obtain ⟨before, behind, hsplit⟩ := List.append_of_mem h
  have hall := raws_walk side answersHead 0 a
  rw [show (a.walk side answersHead 0).1 = before ++ p :: behind from hsplit, List.flatMap_append,
    List.flatMap_cons] at hall
  refine ⟨before.flatMap Carved.raw,
    behind.flatMap Carved.raw ++ (a.walk side answersHead 0).2.unparsed, ?_⟩
  simp only [← hall, List.append_assoc]

theorem suffix_carveAll : (a.carveAll side answersHead).2.unparsed <:+ a.unparsed :=
  ⟨_, raws_walk side answersHead 0 a⟩

end Accumulator

namespace Buffer

variable {limit : Nat} {side : Side} {answersHead : Nat → Bool} {bs : Bytes} {b : Buffer}

theorem suffix_recover (side : Side) (b : Buffer) :
    (recover side b).acc.unparsed <:+ b.acc.unparsed := by
  unfold recover
  split
  · exact List.suffix_refl _
  · exact List.drop_suffix _ _
  · split
    · exact List.drop_suffix _ _
    · exact List.drop_suffix _ _

theorem suffix_absorb : (absorb side answersHead bs b).2.acc.unparsed <:+ b.acc.unparsed ++ bs :=
  Accumulator.suffix_carveAll.trans (suffix_recover side _)

/-- **What waits are the last bytes that came.** -/
theorem suffix_receive :
    (receive limit side answersHead bs b).2.acc.unparsed <:+ b.acc.unparsed ++ bs := by
  rw [receive_eq]
  simp only []
  split
  · exact List.nil_suffix
  · exact suffix_absorb

theorem infix_overflow {f : Framed} (h : (overflow side b).1 = some f) {m : Message}
    (hm : f.message? = some m) : m.raw <:+: b.acc.unparsed := by
  simp only [overflow] at h
  cases ht : Truncated.read? b.acc.unparsed side with
  | none =>
    rw [ht] at h
    cases h
    cases hm
  | some t =>
    rw [ht] at h
    obtain ⟨m', hm', rfl⟩ := Option.map_eq_some_iff.mp h
    obtain rfl : m' = m := Option.some.inj hm
    obtain ⟨i, -, rfl⟩ := Option.map_eq_some_iff.mp ht
    simp only [] at hm'
    split at hm'
    · cases hm'
      exact (List.take_prefix _ _).isInfix
    · cases hm'

/-- **The bytes of a message came in one piece.** -/
theorem infix_receive {f : Framed} (h : f ∈ (receive limit side answersHead bs b).1) {m : Message}
    (hm : f.message? = some m) : m.raw <:+: b.acc.unparsed ++ bs := by
  have hreported : f ∈ reported (absorb side answersHead bs b).1 →
      m.raw <:+: b.acc.unparsed ++ bs := by
    intro hf
    obtain ⟨m', rfl, hmem⟩ := mem_reported hf
    obtain rfl : m' = m := Option.some.inj hm
    exact (Accumulator.infix_carveAll hmem).trans (suffix_recover side _).isInfix
  rw [receive_eq] at h
  simp only [] at h
  split at h
  · rcases List.mem_append.mp h with hf | hf
    · exact hreported hf
    · exact (infix_overflow (Option.mem_toList.mp hf) hm).trans suffix_absorb.isInfix
  · exact hreported h

end Buffer

namespace Buffers

variable {stream : FlowId → Side → Bytes} {s : Buffers}

/-- Each buffer has the last bytes of its stream. -/
def Trails (stream : FlowId → Side → Bytes) (s : Buffers) : Prop :=
  ∀ flow side, (s.buffer flow side).acc.unparsed <:+ stream flow side

theorem trails_empty (limit : Nat) : (empty limit).Trails stream := fun _ _ => List.nil_suffix

/-- **Buffers take in the next bytes of a stream.** -/
theorem Trails.receive (h : s.Trails stream) (flow : FlowId) (side : Side)
    (answersHead : Nat → Bool) (bs : Bytes) :
    (s.receive flow side answersHead bs).2.Trails
      (fun other side' => stream other side' ++ if (other, side') = (flow, side) then bs else []) := by
  intro other side'
  by_cases hbs : bs = []
  · simp only [hbs, receive_nil, ite_self, List.append_nil]
    exact h other side'
  · rw [receive_of_ne_nil hbs]
    by_cases hkey : (other, side') = (flow, side)
    · obtain ⟨rfl, rfl⟩ := Prod.mk.inj hkey
      simp only [if_true, (same_buffer_keep other side' _ s).1]
      exact Buffer.suffix_receive.trans (List.suffix_append_self_iff.mpr (h other side'))
    · simp only [if_neg hkey, List.append_nil]
      rw [buffer_keep_other hkey]
      exact h other side'

/-- **The bytes of a message stand in its stream in one piece.** -/
theorem Trails.infix_receive (h : s.Trails stream) {flow : FlowId} {side : Side}
    {answersHead : Nat → Bool} {bs : Bytes} {f : Framed}
    (hf : f ∈ (s.receive flow side answersHead bs).1) {m : Message} (hm : f.message? = some m) :
    m.raw <:+: stream flow side ++ bs := by
  by_cases hbs : bs = []
  · rw [hbs, receive_nil] at hf
    cases hf
  · rw [receive_of_ne_nil hbs] at hf
    have hbuffer : (s.buffer flow side).acc.unparsed ++ bs <:+ stream flow side ++ bs :=
      List.suffix_append_self_iff.mpr (h flow side)
    exact (Buffer.infix_receive hf hm).trans hbuffer.isInfix

theorem Trails.removeFlow (h : s.Trails stream) (flow : FlowId) :
    (s.removeFlow flow).Trails stream := by
  intro other side
  by_cases hflow : other = flow
  · rw [hflow, buffer_removeFlow_self]
    exact List.nil_suffix
  · rw [buffer_removeFlow_other hflow]
    exact h other side

end Buffers

end Stream

end TrafficGate
