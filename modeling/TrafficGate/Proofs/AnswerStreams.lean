import TrafficGate.Proofs.HeadAlignment
import TrafficGate.Proofs.OverflowTransparency
import TrafficGate.Proofs.Resynchronisation
/-!
  # Streams of responses

  A stream of final responses, each framed as the answer to a HEAD request or not, gives one entry
  for each response, in their order: the response, its head when it outgrew the limit, or the note
  that it was lost. Whether a response answers a HEAD request has to be told right only when a byte
  of it is there.

  1. `Answer` -- a response with the flag under which it is framed;
  2. carving a part of a stream;
  3. `Recoverable` -- a response that may be given up without harm to the next one, and what giving
     it up leaves;
  4. `Awaits` and `Delivers` -- a buffer before a part of the stream, and what one fragment comes to;
  5. the buffer of a flow.

  Main facts: **`carveAll_answers`**, **`overflow_answers`**, **`Awaits.receive`** and
  **`Awaits.arrived`**.
-/

namespace TrafficGate

namespace Http

/-! ## 1. Answers -/

/-- A response, and whether it is framed as the answer to a HEAD request. -/
structure Answer where
  message : Message
  toHead : Bool

/-- The bytes of a response, all of them, are a final response. -/
structure Answer.Whole (e : Answer) : Prop where
  complete : carveFrom e.message.raw .response 0 e.toHead = .complete e.message
  final : e.message.isFinal = true

theorem carveFrom_raw_append {side : Side} {answersHead : Bool} {m : Message}
    (h : carveFrom m.raw side 0 answersHead = .complete m) (rest : Bytes) :
    carveFrom (m.raw ++ rest) side 0 answersHead = .complete m := by
  refine (carveFrom_append ?_ rest).trans h
  rw [h]
  rfl

/-- A response has room for a status line and an empty line. -/
theorem length_raw_of_response {answersHead : Bool} {m : Message}
    (h : carveFrom m.raw .response 0 answersHead = .complete m) : 13 ≤ m.raw.length := by
  obtain ⟨line, hline, _⟩ := (isOf_carveFrom h).code
  have hparse := StatusLine.length_of_parse hline
  have hstart := Head.length_startLine_le m.head
  unfold carveFrom at h
  split at h
  · cases h
  · next i hi =>
    have hroom := findTerminator?_le hi
    obtain ⟨_, _, _, _, _, heq⟩ := carveHead_eq_complete h
    have hhead := congrArg (fun m => m.head.length) heq
    simp only [headAt, Head.length_decode_response, List.length_take] at hhead
    simp only [Message.startLine, terminator, List.length_cons, List.length_nil] at *
    omega

end Http

namespace Stream

open Http

variable {limit : Nat} {answersHead : Nat → Bool} {rest : Bytes} {es : List Answer}

/-! ## 2. A part of a stream -/

/-- The bytes of answers, one behind the other. -/
def answerStream (es : List Answer) : Bytes := streamOf (es.map Answer.message)

theorem answerStream_cons (e : Answer) (es : List Answer) :
    answerStream (e :: es) = e.message.raw ++ answerStream es := rfl

theorem length_answerStream_drop_le (es : List Answer) (k : Nat) :
    (answerStream (es.drop k)).length ≤ (answerStream es).length := by
  rw [answerStream, List.map_drop]
  exact length_streamOf_drop_le _ k

/-- The first of these answers has begun when only `rest` is still to come. -/
def Begun (rest : Bytes) (es : List Answer) : Prop := rest.length < (answerStream es).length

/-- Whoever tells whether an answer is one to a HEAD request tells right for those that have
    begun. -/
def Informed (answersHead : Nat → Bool) (rest : Bytes) (es : List Answer) : Prop :=
  ∀ n e, es[n]? = some e → Begun rest (es.drop n) → answersHead n = e.toHead

theorem Informed.tail {e : Answer} (h : Informed answersHead rest (e :: es)) :
    Informed (fun n => answersHead (1 + n)) rest es := by
  intro n e' he hbegun
  have hflag := h (n + 1) e' he hbegun
  rwa [Nat.add_comm] at hflag

theorem begun_of_le {e : Answer} (he : e.Whole) (h : rest.length ≤ (answerStream es).length) :
    Begun rest (e :: es) := by
  have hlength := length_raw_of_response he.complete
  rw [Begun, answerStream_cons, List.length_append]
  omega

theorem begun_of_front {e : Answer} {front : Bytes} (hne : front ≠ [])
    (h : front ++ rest = answerStream (e :: es)) : Begun rest (e :: es) := by
  have hpos := List.length_pos_iff.mpr hne
  rw [Begun, ← h, List.length_append]
  omega

/-- **Carving a part of a stream** gives the answers that are there whole, in their order. -/
theorem carveAll_answers {a : Accumulator} (ha : a.Searched) (hes : ∀ e ∈ es, e.Whole)
    (hinformed : Informed answersHead rest es) (h : a.unparsed ++ rest = answerStream es) :
    ∃ done later, es = done ++ later ∧
      (a.carveAll .response answersHead).1 = done.map (fun e => .message e.message) ∧
      Waits (a.carveAll .response answersHead).2.unparsed rest (later.map Answer.message) := by
  induction es generalizing a answersHead with
  | nil =>
    have hnil : a.unparsed = [] := (List.append_eq_nil_iff.mp h).1
    have hstep : a.step .response answersHead 0 = .needMore 0 := by
      rw [ha.step_eq, hnil]
      rfl
    refine ⟨[], [], rfl, ?_, ?_⟩
    · rw [Accumulator.carveAll_of_none hstep]
      rfl
    · rw [Accumulator.carveAll_of_none hstep]
      exact ⟨h, fun _ hm => by cases hm⟩
  | cons e es ih =>
    have he := hes e List.mem_cons_self
    rcases cut_stream (show a.unparsed ++ rest = e.message.raw ++ answerStream es from h) with
      ⟨behind, hfront, hbehind⟩ | ⟨missing, hne, hfront, -⟩
    · -- the answer is there
      have hle : rest.length ≤ (answerStream es).length := by
        rw [← hbehind, List.length_append]
        exact Nat.le_add_left _ _
      have hflag : answersHead 0 = e.toHead := hinformed 0 e rfl (begun_of_le he hle)
      have hstep : a.step .response answersHead 0 = .complete e.message := by
        rw [ha.step_eq, hflag, hfront]
        exact carveFrom_raw_append he.complete behind
      have hp : a.piece? (a.step .response answersHead 0) = some (.message e.message) := by
        rw [hstep]
        rfl
      have hfinals : (Carved.message e.message).finals = 1 := by
        simp only [Carved.finals, he.final, if_true]
      have hrest : (a.skip e.message.raw.length).unparsed ++ rest = answerStream es := by
        rw [Accumulator.unparsed_skip, hfront, List.drop_left]
        exact hbehind
      obtain ⟨done, later, hsplit, hpieces, hwaits⟩ := ih (ha.skip e.message.raw.length)
        (fun e' he' => hes e' (List.mem_cons_of_mem e he')) hinformed.tail hrest
      refine ⟨e :: done, later, by rw [hsplit, List.cons_append], ?_, ?_⟩
      · rw [Accumulator.carveAll_of_some hp, hstep, hfinals]
        exact congrArg (Carved.message e.message :: ·) hpieces
      · rw [Accumulator.carveAll_of_some hp, hstep, hfinals]
        exact hwaits
    · -- it is not
      have hlt := length_lt_of_missing hne hfront
      have hwait : ∃ k, a.step .response answersHead 0 = .needMore k := by
        rw [ha.step_eq]
        by_cases hnil : a.unparsed = []
        · rw [hnil]
          exact ⟨0, rfl⟩
        · rw [hinformed 0 e rfl (begun_of_front hnil h)]
          exact needMore_of_part he.complete hfront hlt
      obtain ⟨k, hstep⟩ := hwait
      refine ⟨[], e :: es, rfl, ?_, ?_⟩
      · rw [Accumulator.carveAll_of_none hstep]
        rfl
      · rw [Accumulator.carveAll_of_none hstep]
        refine ⟨h, fun m hm => ?_⟩
        cases hm
        exact hlt

/-! ## 3. Answers that are given up -/

/-- What the entry of a response can be. -/
inductive Yields (m : Message) : Framed → Prop where
  | message : Yields m (.message m)
  | truncated : Yields m (.truncated m.cut)
  | lost (dropped : Nat) : Yields m (.lost dropped)

/-- An answer that does no harm to those `behind` it when the limit is small: it is within the
    limit, or declares its length in a head that is, or the search for the next start ends behind
    it. -/
inductive Recoverable (limit : Nat) (e : Answer) (behind : Bytes) : Prop where
  | fits (h : e.message.raw.length ≤ limit)
  | declared (h : Delimited .response limit e.message)
  | resumes (hlimit : openingLength ≤ limit) (h : Resumes (e.message.raw.drop 1) behind)

/-- Each answer of a stream does no harm to those behind it. -/
def Recoverables (limit : Nat) : List Answer → Prop
  | [] => True
  | e :: es => Recoverable limit e (answerStream es) ∧ Recoverables limit es

theorem Recoverables.append_right {done later : List Answer}
    (h : Recoverables limit (done ++ later)) : Recoverables limit later := by
  induction done with
  | nil => exact h
  | cons e done ih => exact ih h.2

/-- **What is known of a response when a part of it with its head is there**: everything but its
    body, and its length or nothing about it. -/
theorem read?_of_part {answersHead : Bool} {m : Message} {front gone : Bytes} {t : Truncated}
    (h : carveFrom m.raw .response 0 answersHead = .complete m) (hm : front ++ gone = m.raw)
    (hgone : gone ≠ []) (ht : Truncated.read? front .response = some t) :
    t.message = some m.cut ∧ (t.framedLength = none ∨ t.framedLength = some m.raw.length) := by
  obtain ⟨i, hi, rfl⟩ := Option.map_eq_some_iff.mp ht
  have hroom := findTerminator?_le hi
  have hlt := length_lt_of_missing hgone hm
  have hwhole : findTerminator? m.raw 0 = some i := hm ▸ findTerminator?_append hi gone
  have hblock : headBlock m.raw = m.raw.take (i + terminator.length) := by rw [headBlock, hwhole]
  have htake : ∀ n ≤ front.length, front.take n = m.raw.take n := by
    intro n hn
    rw [← hm, List.take_append_of_le_length hn]
  rw [carveFrom, hwhole] at h
  obtain ⟨body, length, status, hbody, hstatus, heq⟩ := carveHead_eq_complete h
  have hhead : headAt m.raw .response i = m.head := (congrArg Message.head heq).symm
  have hcode : m.status = status := congrArg Message.status heq
  have hside : m.side = .response := congrArg Message.side heq
  -- the response ends where its body does, behind what is there
  have hend : m.raw.length = i + terminator.length + length := by
    have hraw := congrArg (fun m => m.raw.length) heq
    have hbound := length_bodyAt_le m.raw .response answersHead i
    rw [hbody] at hbound
    simp only [List.length_take, Frame.length] at hraw hbound
    omega
  have hdecode : Head.decode .response (front.take i) = m.head := by
    rw [htake i (by omega)]
    exact hhead
  simp only [htake (i + terminator.length) hroom, hdecode]
  refine ⟨?_, ?_⟩
  · rw [statusAt, hhead, ← hcode] at hstatus
    rw [hstatus]
    simp only [Message.cut, hblock, hside]
  · unfold Truncated.framedLength?
    split
    · exact .inl rfl
    · next hplain =>
      have hlength : length = Head.contentLength m.head := by
        rw [← hhead]
        refine Frame.length_of_plain hbody (fun hresponse => ?_) (by omega)
        rw [hhead, Bool.eq_false_iff]
        exact fun hchunked => hplain ⟨hresponse, hchunked⟩
      simp only [← hlength, ← hend]
      split
      · exact .inr rfl
      · exact .inl rfl

namespace Buffer

/-- What a buffer is before the `rest` of a stream, when the entries of the answers `es` are still
    to come. -/
inductive Awaits (limit : Nat) (b : Buffer) (rest : Bytes) (es : List Answer) : Prop where
  /-- A part of the next answer is there. -/
  | waiting (ha : b.acc.Searched) (hr : b.recovery = .none)
      (h : Waits b.acc.unparsed rest (es.map Answer.message))
  /-- The next bytes belong to an answer that was given up. -/
  | dropping (ha : b.acc.Searched) {gone : Bytes} (hgone : gone ≠ [])
      (hr : b.recovery = .discard gone.length) (hu : b.acc.unparsed = [])
      (h : rest = gone ++ answerStream es)
  /-- The start of the next answer is searched for behind one that was given up. -/
  | searching (ha : b.acc.Searched) (hr : b.recovery = .resync) (hlimit : openingLength ≤ limit)
      {left : Bytes} (h : Resumes left (answerStream es))
      (hu : b.acc.unparsed ++ rest = left ++ answerStream es)
      (hshort : b.acc.unparsed.length < left.length + opening.length)
      (hkept : b.acc.unparsed.length ≤ openingLength)

theorem Awaits.searched {b : Buffer} (h : b.Awaits limit rest es) : b.acc.Searched := by
  cases h with
  | waiting ha | dropping ha | searching ha => exact ha

theorem Awaits.of_same {b c : Buffer} (h : b.Awaits limit rest es) (hc : c.acc.Searched)
    (hsame : Same c b) : c.Awaits limit rest es := by
  obtain ⟨hu, hr⟩ := hsame
  cases h with
  | waiting _ hr' h =>
    rw [← hu] at h
    exact .waiting hc (hr.trans hr') h
  | dropping _ hgone hr' hu' h => exact .dropping hc hgone (hr.trans hr') (hu.trans hu') h
  | searching _ hr' hlimit h hu' hshort hkept =>
    rw [← hu] at hu' hshort hkept
    exact .searching hc (hr.trans hr') hlimit h hu' hshort hkept

/-- **An answer that outgrows the limit gives one entry**, and leaves the place of the next one
    known, or to be found. -/
theorem overflow_answers {b : Buffer} (hes : ∀ e ∈ es, e.Whole) (hrec : Recoverables limit es)
    (h : Waits b.acc.unparsed rest (es.map Answer.message))
    (hlong : limit < b.acc.unparsed.length) :
    ∃ e later f, es = e :: later ∧ (overflow .response b).1 = some f ∧ Yields e.message f ∧
      (overflow .response b).2.Awaits limit rest later ∧ Begun rest es := by
  have hne : b.acc.unparsed ≠ [] := by
    intro he
    rw [he] at hlong
    cases hlong
  cases es with
  | nil => exact absurd (List.append_eq_nil_iff.mp h.1).1 hne
  | cons e later =>
    have hlt := h.2 e.message rfl
    have hwhole := (hes e List.mem_cons_self).complete
    refine ⟨e, later, ?_⟩
    rcases cut_stream (show b.acc.unparsed ++ rest = e.message.raw ++ answerStream later from h.1)
      with ⟨behind, hfront, -⟩ | ⟨gone, hgone, hfront, hrest⟩
    · rw [hfront, List.length_append] at hlt
      omega
    · have hbegun : Begun rest (e :: later) := begun_of_front hne h.1
      have hlength : e.message.raw.length - b.acc.unparsed.length = gone.length := by
        rw [← hfront, List.length_append, Nat.add_sub_cancel_left]
      -- the length of the answer was declared
      have hdiscard : ∀ m, Truncated.read? b.acc.unparsed .response =
            some { message := some m, framedLength := some e.message.raw.length } →
          (overflow .response b).1 = some (.truncated m) ∧
            (overflow .response b).2.Awaits limit rest later := by
        intro m hread
        refine ⟨by simp only [overflow, hread, Option.map_some], ?_⟩
        refine .dropping Accumulator.searched_empty hgone ?_ rfl hrest
        simp only [overflow, hread, Option.bind_some, recoveryFor, if_pos hlt, hlength]
      cases hrec.1 with
      | fits hfits => omega
      | declared hd =>
        obtain ⟨hframed, hawaits⟩ := hdiscard _ (hd.read?_of_front hfront hlong hlt)
        exact ⟨_, rfl, hframed, .truncated, hawaits, hbegun⟩
      | resumes hlimit hresumes =>
        -- what is left of the answer is a part of it without its first byte
        have hleft : e.message.raw.drop b.acc.unparsed.length = gone := by
          rw [← hfront, List.drop_left]
        have hgone' : Resumes gone (answerStream later) := by
          have hdrop := hresumes.drop (b.acc.unparsed.length - 1)
          rwa [List.drop_drop, Nat.add_sub_cancel' (List.length_pos_iff.mpr hne), hleft] at hdrop
        have hsearch : (overflow .response b).2.recovery = .resync →
            (overflow .response b).2.Awaits limit rest later := by
          intro hr
          refine .searching Accumulator.searched_empty hr hlimit hgone' ?_ ?_ (Nat.zero_le _)
          · exact hrest
          · show 0 < gone.length + opening.length
            rw [length_opening]
            omega
        cases ht : Truncated.read? b.acc.unparsed .response with
        | none =>
          refine ⟨.lost b.acc.unparsed.length, rfl, by simp only [overflow, ht], .lost _,
            hsearch ?_, hbegun⟩
          simp only [overflow, ht, Option.bind_none, recoveryFor]
        | some t =>
          obtain ⟨hmessage, hlen⟩ := read?_of_part hwhole hfront hgone ht
          obtain ⟨message, framedLength⟩ := t
          obtain rfl : message = some e.message.cut := hmessage
          rcases hlen with rfl | rfl
          · refine ⟨_, rfl, by simp only [overflow, ht, Option.map_some], .truncated,
              hsearch ?_, hbegun⟩
            simp only [overflow, ht, Option.bind_some, recoveryFor]
          · obtain ⟨hframed, hawaits⟩ := hdiscard _ ht
            exact ⟨_, rfl, hframed, .truncated, hawaits, hbegun⟩

/-! ## 4. Fragments -/

theorem yields_reported (done : List Answer) :
    List.Forall₂ (fun e f => Yields e.message f) done
      (reported (done.map fun e => .message e.message)) := by
  induction done with
  | nil => exact .nil
  | cons e done ih => exact .cons .message ih

/-- Every answer that is there whole has begun. -/
theorem begun_of_done {done later : List Answer} (hes : ∀ e ∈ done ++ later, e.Whole)
    (h : rest.length ≤ (answerStream later).length) {k : Nat} (hk : k < done.length) :
    Begun rest ((done ++ later).drop k) := by
  have hlt : k < (done ++ later).length := by
    rw [List.length_append]
    omega
  rw [List.drop_eq_getElem_cons hlt]
  refine begun_of_le (hes _ (List.getElem_mem hlt)) (Nat.le_trans h ?_)
  have hlater := length_answerStream_drop_le ((done ++ later).drop (k + 1)) (done.length - (k + 1))
  rwa [List.drop_drop, Nat.add_sub_cancel' hk, List.drop_left] at hlater

theorem waits_length_le {front : Bytes} {later : List Answer}
    (h : Waits front rest (later.map Answer.message)) :
    rest.length ≤ (answerStream later).length := by
  rw [answerStream, ← h.1, List.length_append]
  exact Nat.le_add_left _ _

/-- What bytes of the stream come to: entries for the answers that end in them, which have begun, and
    a buffer before those behind. -/
def Delivers (limit : Nat) (rest : Bytes) (es : List Answer) (framed : List Framed) (b : Buffer) :
    Prop :=
  ∃ done later, es = done ++ later ∧ List.Forall₂ (fun e f => Yields e.message f) done framed ∧
    b.Awaits limit rest later ∧ ∀ k < done.length, Begun rest (es.drop k)

theorem Delivers.nothing {b : Buffer} (h : b.Awaits limit rest es) :
    Delivers limit rest es [] b :=
  ⟨[], es, rfl, .nil, h, fun k hk => by cases hk⟩

/-- Carving from the start of an answer on gives the answers that are there whole. -/
theorem delivers_carveAll {a : Accumulator} (ha : a.Searched) (hes : ∀ e ∈ es, e.Whole)
    (hinformed : Informed answersHead rest es) (h : a.unparsed ++ rest = answerStream es) :
    Delivers limit rest es (reported (a.carveAll .response answersHead).1)
      { acc := (a.carveAll .response answersHead).2, recovery := .none } := by
  have hsearched := ha.carveAll .response answersHead
  obtain ⟨done, later, rfl, hpieces, hwaits⟩ := carveAll_answers ha hes hinformed h
  refine ⟨done, later, rfl, ?_, .waiting hsearched rfl hwaits, fun k hk => ?_⟩
  · rw [hpieces]
    exact yields_reported done
  · exact begun_of_done hes (waits_length_le hwaits) hk

/-- **Bytes of the stream give the answers that they complete.** -/
theorem Awaits.absorb {b : Buffer} {bs : Bytes} (h : b.Awaits limit (bs ++ rest) es)
    (hes : ∀ e ∈ es, e.Whole) (hinformed : Informed answersHead rest es) :
    Delivers limit rest es (reported (absorb .response answersHead bs b).1)
      (absorb .response answersHead bs b).2 := by
  have hsearched := searched_absorb h.searched .response answersHead bs
  obtain ⟨a, recovery⟩ := b
  have ha : a.Searched := h.searched
  have ha' : (a.append bs).Searched := Accumulator.Searched.append ha bs
  cases h with
  | waiting _ hr h =>
    obtain rfl : recovery = .none := hr
    rw [absorb_none ha]
    refine delivers_carveAll ha' hes hinformed ?_
    rw [Accumulator.unparsed_append, List.append_assoc]
    exact h.1
  | dropping _ hgone hr hu h =>
    next gone =>
    obtain rfl : recovery = .discard gone.length := hr
    have hbs : (a.append bs).unparsed = bs := by
      rw [Accumulator.unparsed_append]
      exact congrArg (· ++ bs) hu
    rcases cut_stream h with ⟨behind, hfront, hbehind⟩ | ⟨more, hne, hfront, hrest⟩
    · -- the answer given up ends in these bytes
      have hle : gone.length ≤ (a.append bs).unparsed.length := by
        rw [hbs, hfront, List.length_append]
        exact Nat.le_add_right _ _
      rw [absorb_discard ha hle]
      refine delivers_carveAll (ha'.skip gone.length) hes hinformed ?_
      rw [Accumulator.unparsed_skip, hbs, hfront, List.drop_left]
      exact hbehind
    · -- it goes on behind them
      have hlt : (a.append bs).unparsed.length < gone.length := by
        rw [hbs]
        exact length_lt_of_missing hne hfront
      rw [absorb_discard_all ha hlt] at hsearched ⊢
      refine .nothing (.dropping hsearched hne ?_ rfl hrest)
      rw [hbs, ← hfront, List.length_append, Nat.add_sub_cancel_left]
  | searching _ hr hlimit h hu hshort hkept =>
    next left =>
    have hu' : (a.append bs).unparsed ++ rest = left ++ answerStream es := by
      rw [Accumulator.unparsed_append, List.append_assoc]
      exact hu
    rcases absorb_resync ha hr h hu' answersHead with
      ⟨a', ha'', hstream, habsorb⟩ | ⟨n, hnone, hr', hrest, hshort', hkept'⟩
    · rw [habsorb]
      exact delivers_carveAll ha'' hes hinformed hstream
    · rw [hnone]
      exact .nothing (.searching hsearched hr' hlimit (h.drop n) hrest hshort' hkept')

/-- **A fragment of the stream gives one entry for each answer that it ends**, and for each that it
    makes outgrow the limit. -/
theorem Awaits.receive {b : Buffer} {bs : Bytes} (h : b.Awaits limit (bs ++ rest) es)
    (hes : ∀ e ∈ es, e.Whole) (hrec : Recoverables limit es)
    (hinformed : Informed answersHead rest es) :
    Delivers limit rest es (receive limit .response answersHead bs b).1
      (receive limit .response answersHead bs b).2 := by
  obtain ⟨done, later, rfl, hyields, hafter, hbegun⟩ := h.absorb hes hinformed
  rw [receive_eq]
  simp only []
  split
  · next hlong =>
    cases hafter with
    | waiting _ _ hwaits =>
      obtain ⟨e, later', f, rfl, hframed, hyield, hawaits, hbegun'⟩ := overflow_answers
        (fun e he => hes e (List.mem_append_right done he)) hrec.append_right hwaits hlong
      refine ⟨done ++ [e], later', by rw [List.append_assoc, List.singleton_append], ?_, hawaits,
        fun k hk => ?_⟩
      · rw [hframed]
        exact List.rel_append hyields (.cons hyield .nil)
      · rw [List.length_append, List.length_singleton] at hk
        rcases Nat.lt_succ_iff_lt_or_eq.mp hk with hk | rfl
        · exact hbegun k hk
        · rwa [List.drop_left]
    | dropping _ _ _ hu _ =>
      rw [hu] at hlong
      cases hlong
    | searching _ _ hlimit _ _ _ hkept => exact absurd hlong (by omega)
  · exact ⟨done, later, rfl, hyields, hafter, hbegun⟩

/-- **An answer that arrived as a whole has given its entry.** -/
theorem Awaits.arrived {b : Buffer} (h : b.Awaits limit rest es) (hes : ∀ e ∈ es, e.Whole)
    {k : Nat} (hk : k ≤ es.length) (hrest : rest.length ≤ (answerStream (es.drop k)).length) :
    k = 0 := by
  cases k with
  | zero => rfl
  | succ k =>
    cases es with
    | nil => cases hk
    | cons e es =>
      have hlater := length_answerStream_drop_le es k
      have hlength := length_raw_of_response (hes e List.mem_cons_self).complete
      rw [List.drop_succ_cons] at hrest
      cases h with
      | waiting _ _ h =>
        have hlt := h.2 e.message rfl
        have hstream := congrArg List.length
          (show b.acc.unparsed ++ rest = e.message.raw ++ answerStream es from h.1)
        rw [List.length_append, List.length_append] at hstream
        omega
      | dropping _ _ _ _ h =>
        rw [h, answerStream_cons, List.length_append, List.length_append] at hrest
        omega
      | searching _ _ _ _ hu hshort _ =>
        have hstream := congrArg List.length hu
        rw [answerStream_cons, List.length_append, List.length_append, List.length_append]
          at hstream
        rw [length_opening] at hshort
        omega

end Buffer

/-! ## 5. The buffer of a flow -/

namespace Buffers

variable {flow : FlowId} {s : Buffers}

/-- One fragment. -/
theorem awaits_receive {bs : Bytes} (h : (s.buffer flow .response).Awaits s.limit (bs ++ rest) es)
    (hes : ∀ e ∈ es, e.Whole) (hrec : Recoverables s.limit es)
    (hinformed : Informed answersHead rest es) :
    Buffer.Delivers s.limit rest es (s.receive flow .response answersHead bs).1
      ((s.receive flow .response answersHead bs).2.buffer flow .response) := by
  by_cases hbs : bs = []
  · subst hbs
    exact .nothing h
  · obtain ⟨done, later, hsplit, hyields, hawaits, hbegun⟩ := h.receive hes hrec hinformed
    rw [receive_of_ne_nil hbs]
    refine ⟨done, later, hsplit, hyields, ?_, hbegun⟩
    exact hawaits.of_same (searched_buffer_keep hawaits.searched) (same_buffer_keep flow _ _ s)

end Buffers

end Stream

end TrafficGate
