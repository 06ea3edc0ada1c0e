import Mathlib.Data.List.Forall2
import TrafficGate.Proofs.Absorption
import TrafficGate.Proofs.InputRuns
/-!
  # Messages that outgrow the limit

  A stream of messages whose lengths are declared is framed message by message, in any fragments and
  under any limit that leaves room for their heads. A message that outgrows the limit is cut to its
  head; the rest of it is counted and dropped, and the message behind it is framed as if nothing had
  happened.

  1. messages of declared length, and what is known from a part of one;
  2. carving a part of a stream;
  3. `Expects` -- a buffer and the part of the stream that is still to come;
  4. any number of fragments.

  Main facts: **`Delimited.read?_of_front`**, **`carveAll_stream`**, **`Expects.receive`** and
  **`receiveEach_stream`**.
-/

namespace TrafficGate

namespace Http

/-! ## 1. Messages of declared length -/

/-- The head at the start of the bytes, with the empty line behind it. -/
def headBlock (data : Bytes) : Bytes :=
  match findTerminator? data 0 with
  | some i => data.take (i + terminator.length)
  | none => data

/-- A message without its body. -/
def Message.cut (m : Message) : Message := { m with raw := headBlock m.raw, body := none }

/-- A whole message that is not chunked when it is a response, with a head for which the limit
    leaves room. As any bytes in memory it is shorter than 2^64. -/
structure Delimited (side : Side) (limit : Nat) (m : Message) : Prop where
  whole : carve m.raw side = .complete m
  plain : side = .response → Head.isChunked m.head = false
  head_le : (headBlock m.raw).length ≤ limit
  fits : m.raw.length < Numeral.wordBound

theorem findTerminator?_of_append {data more : Bytes} {i : Nat}
    (h : findTerminator? (data ++ more) 0 = some i) (hi : i + terminator.length ≤ data.length) :
    findTerminator? data 0 = some i := by
  obtain ⟨_, hat, hbefore⟩ := findTerminator?_eq_some_iff.mp h
  refine findTerminator?_eq_some_iff.mpr ⟨Nat.zero_le i, ?_, fun j hj hlt hp => ?_⟩
  · rw [List.drop_append_of_le_length (by omega)] at hat
    exact (Seq.prefix_append_iff (by rw [List.length_drop]; omega) more).mp hat
  · refine hbefore j hj hlt ?_
    rw [List.drop_append_of_le_length (by omega)]
    exact hp.trans (List.prefix_append _ _)

theorem isNeedMore_of_carve {data : Bytes} {side : Side} {m : Message}
    (h : carve data side = .complete m) : (carve data side).isNeedMore = false := by
  rw [h]
  rfl

/-- A whole message is found in front of any bytes. -/
theorem carve_append {side : Side} {m : Message} (h : carve m.raw side = .complete m)
    (rest : Bytes) : carve (m.raw ++ rest) side = .complete m :=
  (carveFrom_append (isNeedMore_of_carve h) rest).trans h

/-- A whole message has the empty line behind its head at least. -/
theorem length_raw_of_carve {side : Side} {m : Message} (h : carve m.raw side = .complete m) :
    terminator.length ≤ m.raw.length := by
  have hbound := (consumed_carveFrom (isNeedMore_of_carve h)).1
  rw [carve] at h
  rwa [h] at hbound

/-- **A part of a whole message waits for the rest**, also when it answers a HEAD request. -/
theorem needMore_of_part {side : Side} {answersHead : Bool} {m : Message}
    (h : carveFrom m.raw side 0 answersHead = .complete m) {front rest : Bytes}
    (hm : front ++ rest = m.raw) (hlt : front.length < m.raw.length) :
    ∃ k, carveFrom front side 0 answersHead = .needMore k := by
  cases hn : (carveFrom front side 0 answersHead).isNeedMore with
  | true =>
    cases hc : carveFrom front side 0 answersHead with
    | needMore k => exact ⟨k, rfl⟩
    | complete m' => rw [hc] at hn; cases hn
    | tunnel k => rw [hc] at hn; cases hn
    | malformed k flaw => rw [hc] at hn; cases hn
  | false =>
    -- it would be decided, and would consume more than there is
    have hend := (consumed_carveFrom hn).2
    rw [← carveFrom_append hn rest, hm, h] at hend
    exact absurd hend (Nat.not_le_of_lt hlt)

theorem needMore_of_front {side : Side} {m : Message} (h : carve m.raw side = .complete m)
    {front rest : Bytes} (hm : front ++ rest = m.raw) (hlt : front.length < m.raw.length) :
    ∃ k, carve front side = .needMore k := needMore_of_part h hm hlt

/-- A body that is not chunked has the declared length, or none. -/
theorem Frame.length_of_plain {head : Text} {side : Side} {status : Option Nat}
    {answersHead : Bool} {rest : Bytes} {body : Option Bytes} {length : Nat}
    (h : Frame.resolve head side status answersHead rest = .framed body length)
    (hplain : side = .response → Head.isChunked head = false) (hpos : 0 < length) :
    length = Head.contentLength head := by
  unfold Frame.resolve at h
  split at h
  · cases h
    exact absurd hpos (Nat.lt_irrefl 0)
  · split at h
    · next hchunked =>
      rw [hplain hchunked.1] at hchunked
      cases hchunked.2
    · unfold Frame.ofLength at h
      split at h
      · cases h
        exact absurd hpos (Nat.lt_irrefl 0)
      · split at h
        · cases h
        · cases h
          rfl

namespace Delimited

variable {side : Side} {limit : Nat} {m : Message}

/-- Where the head of a message ends. -/
theorem headEnd (h : Delimited side limit m) :
    ∃ i, findTerminator? m.raw 0 = some i ∧ carveHead m.raw side false i = .complete m ∧
      headBlock m.raw = m.raw.take (i + terminator.length) ∧ i + terminator.length ≤ limit := by
  have hwhole := h.whole
  unfold carve carveFrom at hwhole
  cases hi : findTerminator? m.raw 0 with
  | none => rw [hi] at hwhole; cases hwhole
  | some i =>
    rw [hi] at hwhole
    have hblock : headBlock m.raw = m.raw.take (i + terminator.length) := by
      rw [headBlock, hi]
    have hle := h.head_le
    rw [hblock, List.length_take, Nat.min_eq_left (findTerminator?_le hi)] at hle
    exact ⟨i, rfl, hwhole, hblock, hle⟩

/-- What the head of a message says, the message says too. -/
theorem head_of_carveHead {i : Nat} (h : carveHead m.raw side false i = .complete m) :
    m.side = side ∧ Head.decode side (m.raw.take i) = m.head ∧
      Head.status side (Head.startLine m.head) = .ok m.status := by
  obtain ⟨body, length, status, -, hstatus, heq⟩ := carveHead_eq_complete h
  have hhead : headAt m.raw side i = m.head := (congrArg Message.head heq).symm
  have hcode : m.status = status := congrArg Message.status heq
  rw [statusAt, hhead, ← hcode] at hstatus
  exact ⟨congrArg Message.side heq, hhead, hstatus⟩

/-- **The head of a message that is larger than the limit declares its length.** -/
theorem framedLength?_of_long (h : Delimited side limit m) (hlong : limit < m.raw.length) {i : Nat}
    (hwhole : carveHead m.raw side false i = .complete m) (hle : i + terminator.length ≤ limit) :
    Truncated.framedLength? m.head side (i + terminator.length) = some m.raw.length := by
  obtain ⟨body, length, status, hbody, -, heq⟩ := carveHead_eq_complete hwhole
  have hhead : headAt m.raw side i = m.head := (congrArg Message.head heq).symm
  -- the message ends where its body does
  have hend : m.raw.length = i + terminator.length + length := by
    have hraw := congrArg (fun m => m.raw.length) heq
    have hbound := length_bodyAt_le m.raw side false i
    rw [hbody] at hbound
    simp only [List.length_take, Frame.length] at hraw hbound
    omega
  have hlength : length = Head.contentLength m.head := by
    rw [← hhead]
    refine Frame.length_of_plain hbody (fun hside => ?_) (by omega)
    rw [hhead]
    exact h.plain hside
  have hplain : ¬ (side = .response ∧ Head.isChunked m.head = true) := fun hchunked => by
    rw [h.plain hchunked.1] at hchunked
    cases hchunked.2
  rw [Truncated.framedLength?, if_neg hplain, ← hlength, ← hend]
  exact if_pos h.fits

/-- **What is known of a message when a part beyond the limit is there**: everything but its body,
    and its length. -/
theorem read?_of_front (h : Delimited side limit m) {front rest : Bytes}
    (hm : front ++ rest = m.raw) (hlong : limit < front.length)
    (hlt : front.length < m.raw.length) :
    Truncated.read? front side =
      some { message := some m.cut, framedLength := some m.raw.length } := by
  obtain ⟨i, hi, hwhole, hblock, hle⟩ := h.headEnd
  obtain ⟨hside, hhead, hstatus⟩ := head_of_carveHead hwhole
  have hframed := h.framedLength?_of_long (Nat.lt_trans hlong hlt) hwhole hle
  have hroom : i + terminator.length ≤ front.length := by omega
  have hfront : findTerminator? front 0 = some i := by
    rw [← hm] at hi
    exact findTerminator?_of_append hi hroom
  have htake : ∀ n ≤ front.length, front.take n = m.raw.take n := by
    intro n hn
    rw [← hm, List.take_append_of_le_length hn]
  rw [Truncated.read?, hfront, Option.map_some]
  simp only [htake i (by omega), htake (i + terminator.length) hroom, ← hblock, hhead, hstatus,
    hframed, Message.cut, hside]

end Delimited

end Http

namespace Stream

open Http

variable {side : Side} {limit : Nat}

/-! ## 2. A part of a stream -/

/-- The bytes of messages, one behind the other. -/
def streamOf (messages : List Message) : Bytes := (messages.map Message.raw).flatten

theorem streamOf_append (messages later : List Message) :
    streamOf (messages ++ later) = streamOf messages ++ streamOf later := by
  rw [streamOf, List.map_append, List.flatten_append]
  rfl

/-- A stream is what a number of its messages take and what those behind them do. -/
theorem length_streamOf (messages : List Message) (k : Nat) :
    (streamOf messages).length =
      (streamOf (messages.take k)).length + (streamOf (messages.drop k)).length := by
  rw [← List.length_append, ← streamOf_append, List.take_append_drop]

theorem length_streamOf_drop_le (messages : List Message) (k : Nat) :
    (streamOf (messages.drop k)).length ≤ (streamOf messages).length := by
  rw [length_streamOf messages k]
  exact Nat.le_add_left _ _

/-- What is there of a stream, with the `rest` still to come, is less than its next message. -/
def Waits (front rest : Bytes) (messages : List Message) : Prop :=
  front ++ rest = streamOf messages ∧ ∀ m ∈ messages.head?, front.length < m.raw.length

/-- At the end of a stream nothing waits. -/
theorem Waits.end {front : Bytes} {later : List Message} (h : Waits front [] later) :
    front = [] ∧ later = [] := by
  obtain ⟨hstream, hshort⟩ := h
  rw [List.append_nil] at hstream
  cases later with
  | nil => exact ⟨hstream, rfl⟩
  | cons m later =>
    have hlt := hshort m rfl
    rw [hstream, streamOf, List.map_cons, List.flatten_cons, List.length_append] at hlt
    omega

/-- The bytes that are there end behind the next piece of a stream, or in it. -/
theorem cut_stream {front rest piece more : Bytes} (h : front ++ rest = piece ++ more) :
    (∃ behind, front = piece ++ behind ∧ behind ++ rest = more) ∨
      ∃ missing, missing ≠ [] ∧ front ++ missing = piece ∧ rest = missing ++ more := by
  rcases List.append_eq_append_iff.mp h with ⟨missing, hpiece, hrest⟩ | ⟨behind, hfront, hmore⟩
  · cases missing with
    | nil =>
      rw [List.append_nil] at hpiece
      exact Or.inl ⟨[], by rw [hpiece, List.append_nil], hrest⟩
    | cons b missing => exact Or.inr ⟨b :: missing, nofun, hpiece.symm, hrest⟩
  · exact Or.inl ⟨behind, hfront, hmore.symm⟩

theorem length_lt_of_missing {front missing piece : Bytes} (hne : missing ≠ [])
    (h : front ++ missing = piece) : front.length < piece.length := by
  have hpos := List.length_pos_iff.mpr hne
  rw [← h, List.length_append]
  omega

theorem Accumulator.Searched.step_eq_carve {a : Accumulator} (ha : a.Searched) :
    a.step side (fun _ => false) 0 = carve a.unparsed side := by
  rw [ha.step_eq, Bool.and_false]
  rfl

/-- **Carving a part of a stream** gives the messages that are there whole, in their order. -/
theorem carveAll_stream {a : Accumulator} (ha : a.Searched) {messages : List Message}
    (hm : ∀ m ∈ messages, carve m.raw side = .complete m) {rest : Bytes}
    (h : a.unparsed ++ rest = streamOf messages) :
    ∃ done later, messages = done ++ later ∧
      (a.carveAll side fun _ => false).1 = done.map .message ∧
      Waits (a.carveAll side fun _ => false).2.unparsed rest later := by
  induction messages generalizing a with
  | nil =>
    have hnil : a.unparsed = [] := (List.append_eq_nil_iff.mp h).1
    have hstep : a.step side (fun _ => false) 0 = .needMore 0 := by
      rw [ha.step_eq_carve, hnil]
      rfl
    refine ⟨[], [], rfl, ?_, ?_⟩
    · rw [Accumulator.carveAll_of_none hstep]
      rfl
    · rw [Accumulator.carveAll_of_none hstep]
      exact ⟨h, nofun⟩
  | cons m messages ih =>
    have hwhole := hm m List.mem_cons_self
    rcases cut_stream (show a.unparsed ++ rest = m.raw ++ streamOf messages from h) with
      ⟨behind, hfront, hbehind⟩ | ⟨missing, hne, hfront, -⟩
    · -- the message is there
      have hstep : a.step side (fun _ => false) 0 = .complete m := by
        rw [ha.step_eq_carve, hfront]
        exact carve_append hwhole behind
      have hp : a.piece? (a.step side (fun _ => false) 0) = some (.message m) := by
        rw [hstep]
        rfl
      have hrest : (a.skip m.raw.length).unparsed ++ rest = streamOf messages := by
        rw [Accumulator.unparsed_skip, hfront, List.drop_left]
        exact hbehind
      obtain ⟨done, later, hsplit, hpieces, hwaits⟩ :=
        ih (ha.skip m.raw.length) (fun m' hm' => hm m' (List.mem_cons_of_mem m hm')) hrest
      refine ⟨m :: done, later, by rw [hsplit, List.cons_append], ?_, ?_⟩
      · rw [Accumulator.carveAll_of_some hp, hstep]
        exact congrArg (Carved.message m :: ·) hpieces
      · rw [Accumulator.carveAll_of_some hp, hstep]
        exact hwaits
    · -- it is not
      have hlt := length_lt_of_missing hne hfront
      obtain ⟨k, hk⟩ := needMore_of_front hwhole hfront hlt
      have hstep : a.step side (fun _ => false) 0 = .needMore k := by
        rw [ha.step_eq_carve, hk]
      refine ⟨[], m :: messages, rfl, ?_, ?_⟩
      · rw [Accumulator.carveAll_of_none hstep]
        rfl
      · rw [Accumulator.carveAll_of_none hstep]
        refine ⟨h, fun m' hm' => ?_⟩
        cases hm'
        exact hlt

/-! ## 3. A buffer and the rest of a stream -/

namespace Buffer

/-- What a buffer is before the `rest` of a stream, when the entries of `messages` are still to
    come. -/
inductive Expects (b : Buffer) (rest : Bytes) (messages : List Message) : Prop where
  /-- A part of the next message is there. -/
  | waiting (ha : b.acc.Searched) (hr : b.recovery = .none)
      (h : Waits b.acc.unparsed rest messages)
  /-- The next bytes belong to a message that was given up. -/
  | dropping (ha : b.acc.Searched) {gone : Bytes} (hgone : gone ≠ [])
      (hr : b.recovery = .discard gone.length) (hu : b.acc.unparsed = [])
      (h : rest = gone ++ streamOf messages)

/-- An entry for a message: the message, or its head when it is larger than the limit. -/
inductive Reports (limit : Nat) : Message → Framed → Prop where
  | message (m : Message) : Reports limit m (.message m)
  | truncated (m : Message) (h : limit < m.raw.length) : Reports limit m (.truncated m.cut)

theorem Expects.recovery_ne {b : Buffer} {rest : Bytes} {messages : List Message}
    (h : b.Expects rest messages) : b.recovery ≠ .resync := by
  cases h with
  | waiting _ hr => rw [hr]; exact nofun
  | dropping _ _ hr => rw [hr]; exact nofun

theorem Expects.of_same {b c : Buffer} {rest : Bytes} {messages : List Message}
    (h : b.Expects rest messages) (hc : c.acc.Searched) (hsame : Same c b) :
    c.Expects rest messages := by
  obtain ⟨hu, hr⟩ := hsame
  cases h with
  | waiting _ hr' h =>
    rw [← hu] at h
    exact .waiting hc (hr.trans hr') h
  | dropping _ hgone hr' hu' h => exact .dropping hc hgone (hr.trans hr') (hu.trans hu') h

/-- **Bytes of the stream give the messages that they complete.** -/
theorem Expects.absorb {b : Buffer} {bs rest : Bytes} {messages : List Message}
    (h : b.Expects (bs ++ rest) messages)
    (hm : ∀ m ∈ messages, carve m.raw side = .complete m) :
    ∃ done later, messages = done ++ later ∧
      (absorb side (fun _ => false) bs b).1 = done.map .message ∧
      (absorb side (fun _ => false) bs b).2.Expects rest later := by
  have hsearched : (Buffer.absorb side (fun _ => false) bs b).2.acc.Searched := by
    cases h with
    | waiting ha | dropping ha => exact searched_absorb ha side _ bs
  obtain ⟨a, recovery⟩ := b
  cases h with
  | waiting ha hr h =>
    obtain rfl : recovery = .none := hr
    have ha' : (a.append bs).Searched := Accumulator.Searched.append ha bs
    have hstream : (a.append bs).unparsed ++ rest = streamOf messages := by
      rw [Accumulator.unparsed_append, List.append_assoc]
      exact h.1
    obtain ⟨done, later, hsplit, hpieces, hwaits⟩ := carveAll_stream ha' hm hstream
    rw [absorb_none ha] at hsearched ⊢
    exact ⟨done, later, hsplit, hpieces, .waiting hsearched rfl hwaits⟩
  | dropping ha hgone hr hu h =>
    next gone =>
    obtain rfl : recovery = .discard gone.length := hr
    have ha' : (a.append bs).Searched := Accumulator.Searched.append ha bs
    have hbs : (a.append bs).unparsed = bs := by
      rw [Accumulator.unparsed_append]
      exact congrArg (· ++ bs) hu
    rcases cut_stream h with ⟨behind, hfront, hbehind⟩ | ⟨more, hne, hfront, hrest⟩
    · -- the message given up ends in these bytes
      have hle : gone.length ≤ (a.append bs).unparsed.length := by
        rw [hbs, hfront, List.length_append]
        exact Nat.le_add_right _ _
      have hstream : ((a.append bs).skip gone.length).unparsed ++ rest = streamOf messages := by
        rw [Accumulator.unparsed_skip, hbs, hfront, List.drop_left]
        exact hbehind
      obtain ⟨done, later, hsplit, hpieces, hwaits⟩ :=
        carveAll_stream (ha'.skip gone.length) hm hstream
      rw [absorb_discard ha hle] at hsearched ⊢
      exact ⟨done, later, hsplit, hpieces, .waiting hsearched rfl hwaits⟩
    · -- it goes on behind them
      have hlt : (a.append bs).unparsed.length < gone.length := by
        rw [hbs]
        exact length_lt_of_missing hne hfront
      rw [absorb_discard_all ha hlt] at hsearched ⊢
      refine ⟨[], messages, rfl, rfl, .dropping hsearched hne ?_ rfl hrest⟩
      rw [hbs, ← hfront, List.length_append, Nat.add_sub_cancel_left]

/-- **A message that outgrows the limit is cut**, and the rest of it is dropped. -/
theorem overflow_stream {b : Buffer} {rest : Bytes} {messages : List Message}
    (h : Waits b.acc.unparsed rest messages)
    (hm : ∀ m ∈ messages, Delimited side limit m) (hlong : limit < b.acc.unparsed.length) :
    ∃ m later, messages = m :: later ∧ limit < m.raw.length ∧
      (overflow side b).1 = some (.truncated m.cut) ∧ (overflow side b).2.Expects rest later := by
  cases messages with
  | nil =>
    have hnil : b.acc.unparsed = [] := (List.append_eq_nil_iff.mp h.1).1
    rw [hnil] at hlong
    cases hlong
  | cons m later =>
    have hlt := h.2 m rfl
    rcases cut_stream (show b.acc.unparsed ++ rest = m.raw ++ streamOf later from h.1) with
      ⟨behind, hfront, -⟩ | ⟨gone, hne, hfront, hrest⟩
    · rw [hfront, List.length_append] at hlt
      omega
    · have hread := (hm m List.mem_cons_self).read?_of_front hfront hlong hlt
      have hlength : m.raw.length - b.acc.unparsed.length = gone.length := by
        rw [← hfront, List.length_append, Nat.add_sub_cancel_left]
      refine ⟨m, later, rfl, Nat.lt_trans hlong hlt, ?_, ?_⟩
      · simp only [overflow, hread, Option.map_some]
      · refine .dropping Accumulator.searched_empty hne ?_ rfl hrest
        simp only [overflow, hread, Option.bind_some, recoveryFor, if_pos hlt, hlength]

theorem reports_reported (limit : Nat) (done : List Message) :
    List.Forall₂ (Reports limit) done (reported (done.map .message)) := by
  induction done with
  | nil => exact .nil
  | cons m done ih => exact .cons (.message m) ih

/-- **A fragment of the stream gives one entry for each message that it ends**, and for each that it
    makes outgrow the limit. -/
theorem Expects.receive {b : Buffer} {bs rest : Bytes} {messages : List Message}
    (h : b.Expects (bs ++ rest) messages) (hm : ∀ m ∈ messages, Delimited side limit m) :
    ∃ done later, messages = done ++ later ∧
      List.Forall₂ (Reports limit) done (receive limit side (fun _ => false) bs b).1 ∧
      (receive limit side (fun _ => false) bs b).2.Expects rest later := by
  obtain ⟨done, later, hsplit, hpieces, hafter⟩ := h.absorb fun m hmem => (hm m hmem).whole
  rw [receive_eq]
  simp only [hpieces]
  split
  · next hlong =>
    cases hafter with
    | waiting _ _ hwaits =>
      have hlater : ∀ m ∈ later, Delimited side limit m := by
        intro m hmem
        exact hm m (hsplit ▸ List.mem_append_right done hmem)
      obtain ⟨m, later', rfl, hm', hframed, hexpects⟩ := overflow_stream hwaits hlater hlong
      refine ⟨done ++ [m], later', by rw [hsplit, List.append_cons], ?_, hexpects⟩
      rw [hframed]
      exact List.rel_append (reports_reported limit done) (.cons (.truncated m hm') .nil)
    | dropping _ _ _ hu _ =>
      rw [hu] at hlong
      cases hlong
  · exact ⟨done, later, hsplit, reports_reported limit done, hafter⟩

/-- **A message that arrived as a whole is not expected any more.** -/
theorem Expects.arrived {b : Buffer} {rest : Bytes} {messages : List Message}
    (h : b.Expects rest messages) {k : Nat} (hk : k ≤ messages.length)
    (hrest : rest.length ≤ (streamOf (messages.drop k)).length) : k = 0 := by
  cases k with
  | zero => rfl
  | succ k =>
    cases messages with
    | nil => cases hk
    | cons m messages =>
      have hlater := length_streamOf_drop_le messages k
      have hcons : (streamOf (m :: messages)).length = m.raw.length + (streamOf messages).length :=
        List.length_append
      rw [List.drop_succ_cons] at hrest
      cases h with
      | waiting _ _ h =>
        have hlt := h.2 m rfl
        have hstream := congrArg List.length h.1
        rw [List.length_append] at hstream
        omega
      | dropping _ hgone _ _ h =>
        have hpos := List.length_pos_iff.mpr hgone
        have hlength := congrArg List.length h
        rw [List.length_append] at hlength
        omega

end Buffer

/-! ## 4. Any number of fragments -/

namespace Buffers

/-- Takes in fragments of a flow and side, one after the other. -/
def receiveEach (flow : FlowId) (side : Side) (answersHead : Nat → Bool) (fragments : List Bytes)
    (s : Buffers) : List Framed × Buffers :=
  takeEach (fun bs s => s.receive flow side answersHead bs) fragments s

/-- What the buffer of a flow and side is before the `rest` of a stream. It is kept only while it is
    not idle. -/
def Expects (flow : FlowId) (side : Side) (rest : Bytes) (messages : List Message)
    (s : Buffers) : Prop :=
  (s.buffer flow side).Expects rest messages ∧
    ((s.buffer flow side).isIdle = true → s.table.find? (flow, side) = none)

variable {flow : FlowId} {s : Buffers} {rest : Bytes} {messages : List Message}

theorem idle_keep (flow : FlowId) (side : Side) (b : Buffer) (s : Buffers)
    (h : ((s.keep flow side b).buffer flow side).isIdle = true) :
    (s.keep flow side b).table.find? (flow, side) = none := by
  by_cases hidle : b.isIdle
  · rw [keep, if_pos hidle]
    exact Table.find?_erase_self _ _
  · rw [keep, if_neg hidle, buffer, Table.find?_set_self] at h
    exact absurd h hidle

/-- One fragment. -/
theorem Expects.receive {bs : Bytes} (h : s.Expects flow side (bs ++ rest) messages)
    (hm : ∀ m ∈ messages, Delimited side s.limit m) :
    ∃ done later, messages = done ++ later ∧
      List.Forall₂ (Buffer.Reports s.limit) done
        (s.receive flow side (fun _ => false) bs).1 ∧
      (s.receive flow side (fun _ => false) bs).2.Expects flow side rest later := by
  by_cases hbs : bs = []
  · subst hbs
    exact ⟨[], messages, rfl, .nil, h⟩
  · obtain ⟨done, later, hsplit, hreports, hexpects⟩ := h.1.receive hm
    rw [receive_of_ne_nil hbs]
    refine ⟨done, later, hsplit, hreports, ?_, idle_keep flow side _ s⟩
    refine hexpects.of_same (searched_buffer_keep ?_) (same_buffer_keep flow side _ s)
    cases hexpects with
    | waiting ha | dropping ha => exact ha

/-- **Any number of fragments of a stream.** -/
theorem Expects.receiveEach {fragments : List Bytes}
    (h : s.Expects flow side (fragments.flatten ++ rest) messages)
    (hm : ∀ m ∈ messages, Delimited side s.limit m) :
    ∃ done later, messages = done ++ later ∧
      List.Forall₂ (Buffer.Reports s.limit) done
        (s.receiveEach flow side (fun _ => false) fragments).1 ∧
      (s.receiveEach flow side (fun _ => false) fragments).2.Expects flow side rest later := by
  induction fragments generalizing s messages with
  | nil => exact ⟨[], messages, rfl, .nil, h⟩
  | cons bs fragments ih =>
    rw [List.flatten_cons, List.append_assoc] at h
    obtain ⟨done, later, hsplit, hreports, hexpects⟩ := h.receive hm
    have hlimit := limit_receive flow side (fun _ => false) bs s
    have hlater : ∀ m ∈ later,
        Delimited side (s.receive flow side (fun _ => false) bs).2.limit m := by
      intro m hmem
      rw [hlimit]
      exact hm m (hsplit ▸ List.mem_append_right done hmem)
    obtain ⟨done', later', hsplit', hreports', hexpects'⟩ := ih hexpects hlater
    rw [hlimit] at hreports'
    exact ⟨done ++ done', later', by rw [hsplit, hsplit', List.append_assoc],
      List.rel_append hreports hreports', hexpects'⟩

/-- At the end of a stream nothing is expected, and nothing is kept. -/
theorem Expects.end (h : s.Expects flow side [] messages) :
    messages = [] ∧ s.table.find? (flow, side) = none := by
  obtain ⟨hbuffer, hidle⟩ := h
  cases hbuffer with
  | waiting ha hr hwaits =>
    obtain ⟨hu, rfl⟩ := hwaits.end
    refine ⟨rfl, hidle ?_⟩
    simp [Buffer.isIdle, Accumulator.isEmpty, hu, hr]
  | dropping ha hgone hr hu h =>
    exact absurd (List.append_eq_nil_iff.mp h.symm).1 hgone

/-- Before its first byte a buffer expects any stream. -/
theorem expects_new (hnew : s.table.find? (flow, side) = none)
    (hm : ∀ m ∈ messages, Delimited side s.limit m) :
    s.Expects flow side (streamOf messages) messages := by
  have hbuffer : s.buffer flow side = Buffer.empty := by
    rw [buffer, hnew]
    rfl
  refine ⟨?_, fun _ => hnew⟩
  rw [hbuffer]
  refine .waiting Accumulator.searched_empty rfl ⟨rfl, fun m hmem => ?_⟩
  have hwhole := (hm m (List.mem_of_mem_head? hmem)).whole
  exact Nat.lt_of_lt_of_le (by decide) (length_raw_of_carve hwhole)

/-- **Messages that outgrow the limit do not show in those behind them.** A stream of messages of
    declared length, in any fragments, gives one entry for each message, in their order: the
    message, or its head when it is larger than the limit. No fragment leaves the place in the
    stream unknown, and behind the last one nothing is kept. -/
theorem receiveEach_stream (hnew : s.table.find? (flow, side) = none)
    (hm : ∀ m ∈ messages, Delimited side s.limit m) {fragments : List Bytes}
    (hstream : fragments.flatten = (messages.map Message.raw).flatten) :
    List.Forall₂ (Buffer.Reports s.limit) messages
        (s.receiveEach flow side (fun _ => false) fragments).1 ∧
      (s.receiveEach flow side (fun _ => false) fragments).2.table.find? (flow, side) = none ∧
      ∀ k, ((s.receiveEach flow side (fun _ => false) (fragments.take k)).2.buffer flow
        side).recovery ≠ .resync := by
  have hstart := expects_new hnew hm
  refine ⟨?_, ?_, fun k => ?_⟩
  · rw [streamOf, ← hstream, ← List.append_nil fragments.flatten] at hstart
    obtain ⟨done, later, hsplit, hreports, hexpects⟩ := hstart.receiveEach hm
    obtain ⟨rfl, _⟩ := hexpects.end
    rw [hsplit, List.append_nil]
    exact hreports
  · rw [streamOf, ← hstream, ← List.append_nil fragments.flatten] at hstart
    obtain ⟨_, _, _, _, hexpects⟩ := hstart.receiveEach hm
    exact hexpects.end.2
  · rw [streamOf, ← hstream, ← List.take_append_drop k fragments, List.flatten_append] at hstart
    obtain ⟨_, _, _, _, hexpects⟩ := hstart.receiveEach hm
    exact hexpects.1.recovery_ne

/-- A request with twenty bytes behind its head. -/
def longRequest : Message :=
  { side := .request,
    raw := Utf8.encode "POST / HTTP/1.1\r\nContent-Length: 20\r\n\r\n".toList ++
      List.replicate 20 65,
    head := "POST / HTTP/1.1\r\nContent-Length: 20".toList, body := some (List.replicate 20 65),
    status := none }

/-- A request without fields. -/
def shortRequest : Message :=
  { side := .request, raw := Utf8.encode "GET / HTTP/1.1\r\n\r\n".toList,
    head := "GET / HTTP/1.1".toList, body := none, status := none }

/-- A large request, cut in its body, with a small one behind it, under a limit of 45 bytes. -/
theorem receiveEach_stream_two :
    [longRequest.raw.take 50, longRequest.raw.drop 50 ++ shortRequest.raw].flatten =
        ([longRequest, shortRequest].map Message.raw).flatten ∧
      List.Forall₂ (Buffer.Reports 45) [longRequest, shortRequest]
        ((empty 45).receiveEach ⟨7, false⟩ .request (fun _ => false)
          [longRequest.raw.take 50, longRequest.raw.drop 50 ++ shortRequest.raw]).1 ∧
      ((empty 45).receiveEach ⟨7, false⟩ .request (fun _ => false)
        [longRequest.raw.take 50, longRequest.raw.drop 50 ++ shortRequest.raw]).2.table.find?
          (⟨7, false⟩, .request) = none := by
  have hlong : Delimited .request 45 longRequest :=
    ⟨by decide +kernel, nofun, by decide +kernel, by decide +kernel⟩
  have hshort : Delimited .request 45 shortRequest :=
    ⟨by decide +kernel, nofun, by decide +kernel, by decide +kernel⟩
  have hm : ∀ m ∈ [longRequest, shortRequest], Delimited .request (empty 45).limit m := by
    intro m hmem
    rcases List.mem_pair.mp hmem with rfl | rfl
    · exact hlong
    · exact hshort
  have hstream : [longRequest.raw.take 50, longRequest.raw.drop 50 ++ shortRequest.raw].flatten =
      ([longRequest, shortRequest].map Message.raw).flatten := by decide +kernel
  obtain ⟨hreports, hgone, _⟩ :=
    @receiveEach_stream .request ⟨7, false⟩ (empty 45) _ rfl hm _ hstream
  exact ⟨hstream, hreports, hgone⟩

example : ((empty 45).receiveEach ⟨7, false⟩ .request (fun _ => false)
    [longRequest.raw.take 50, longRequest.raw.drop 50 ++ shortRequest.raw]).1 =
      [.truncated longRequest.cut, .message shortRequest] := by
  decide +kernel

end Buffers

end Stream

end TrafficGate
