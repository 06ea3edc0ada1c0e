import TrafficGate.Proofs.Exchanges
/-!
  # Responses to HEAD requests

  Whether a response answers a HEAD request is asked when it is framed, by the place that its
  request should have in the queue. Requests are taken from the queue later, when the response is
  handled. Both meet the same request: in front of an entry as many responses were counted as
  requests have been taken.

  1. `flagWalk` -- the walk, with the flag under which each piece was found;
  2. `flagged` -- the messages that an arrival of bytes gives, with their flags;
  3. the entry behind them, when the rest outgrew the limit;
  4. a call on the response side of a flow.

  Main facts: **`map_fst_flagWalk`**, **`numbered_flagWalk`**, **`exists_needMore_absorb`**,
  **`isFinal_of_overflow`** and **`onBytes_aligned`**.
-/

namespace TrafficGate

namespace Http

/-- A response that was framed as the answer to a HEAD request has no body. -/
theorem body_of_answersHead {data : Bytes} {scan : Nat} {m : Message}
    (h : carveFrom data .response scan true = .complete m) : m.body = none := by
  have hstatus := (isOf_carveFrom h).code
  unfold carveFrom at h
  split at h
  · cases h
  · next i _ =>
    obtain ⟨body, length, status, hbody, hs, rfl⟩ := carveHead_eq_complete h
    obtain ⟨line, _, hline⟩ := hstatus
    obtain rfl : status = some line.code := hline
    simp only [bodyAt, hs, Head.code?, Frame.resolve, Frame.isForbidden, Bool.or_true,
      if_true] at hbody
    cases hbody
    rfl

/-- **A response whose body is missing is final and was no answer to a HEAD request**, if its head
    is there. -/
theorem isFinal_of_needMore {data : Bytes} {answersHead : Bool} {k : Nat} {t : Truncated}
    {m : Message} (hmore : carveFrom data .response 0 answersHead = .needMore k)
    (ht : Truncated.read? data .response = some t) (hm : t.message = some m) :
    m.isFinal = true ∧ answersHead = false := by
  have hcode := (isOf_read? ht hm).code
  obtain ⟨i, hi, rfl⟩ := Option.map_eq_some_iff.mp ht
  unfold carveFrom at hmore
  rw [hi] at hmore
  have hbody := (carveHead_eq_needMore hmore).2
  simp only [] at hm
  split at hm
  · next status hs =>
    cases hm
    obtain ⟨line, _, hline⟩ := hcode
    obtain rfl : status = some line.code := hline
    have hstatus : statusAt data .response i = .ok (some line.code) := hs
    have hallowed : Frame.isForbidden (some line.code) answersHead = false := by
      rw [Bool.eq_false_iff]
      intro hf
      simp only [bodyAt, hstatus, Head.code?, Frame.resolve, hf, if_true] at hbody
      cases hbody
    simp only [Frame.isForbidden, Bool.or_eq_false_iff] at hallowed
    refine ⟨?_, hallowed.2⟩
    simp only [Message.isFinal, Bool.not_eq_true', Bool.eq_false_iff]
    intro hinterim
    rw [StatusLine.isBodiless_of_isInterim hinterim] at hallowed
    cases hallowed.1
  · cases hm

end Http

namespace Stream

open Http

/-! ## 1. The walk with its flags -/

namespace Accumulator

/-- Whether the step that is next takes its message as the answer to a HEAD request. -/
def flagAt (side : Side) (answersHead : Nat → Bool) (finals : Nat) : Bool :=
  decide (side = .response) && answersHead finals

theorem step_eq_flagAt (side : Side) (answersHead : Nat → Bool) (finals : Nat) (a : Accumulator) :
    a.step side answersHead finals =
      carveFrom a.unparsed side a.scanned (flagAt side answersHead finals) := rfl

/-- The pieces that a walk takes, each with the flag of its step. -/
def flagWalk (side : Side) (answersHead : Nat → Bool) (finals : Nat) (a : Accumulator) :
    List (Carved × Bool) :=
  match _h : a.piece? (a.step side answersHead finals) with
  | none => []
  | some p =>
    let rest := a.skip (a.step side answersHead finals).consumed
    if rest.isEmpty then [(p, flagAt side answersHead finals)]
    else
      (p, flagAt side answersHead finals) ::
        flagWalk side answersHead (finals + p.finals) rest
termination_by a.unparsed.length
decreasing_by exact length_skip_step _h

/-- **Without its flags it is the walk.** -/
theorem map_fst_flagWalk (side : Side) (answersHead : Nat → Bool) (finals : Nat)
    (a : Accumulator) :
    (a.flagWalk side answersHead finals).map Prod.fst = (a.walk side answersHead finals).1 := by
  fun_induction flagWalk side answersHead finals a with
  | case1 finals a hnone =>
    rw [walk_of_none hnone]
    rfl
  | case2 finals a p hsome rest hrest =>
    rw [walk_of_some hsome]
    simp only [rest] at hrest
    simp only [if_pos hrest, List.map_cons, List.map_nil]
  | case3 finals a p hsome rest hrest ih =>
    rw [walk_of_some hsome]
    simp only [rest] at hrest ih
    simp only [if_neg hrest]
    exact congrArg (p :: ·) ih

end Accumulator

/-- The messages among pieces with flags. -/
def messagesIn (pieces : List (Carved × Bool)) : List (Message × Bool) :=
  pieces.filterMap fun e => e.1.message?.map fun m => (m, e.2)

/-- The entries that report messages with flags. -/
def entriesOf (messages : List (Message × Bool)) : List Framed :=
  messages.map fun e => .message e.1

theorem entriesOf_messagesIn (pieces : List (Carved × Bool)) :
    entriesOf (messagesIn pieces) = Buffer.reported (pieces.map Prod.fst) := by
  induction pieces with
  | nil => rfl
  | cons e pieces ih =>
    obtain ⟨p, flag⟩ := e
    cases p with
    | skipped bytes reason => exact ih
    | message m => exact congrArg (Framed.message m :: ·) ih

theorem countP_entriesOf (messages : List (Message × Bool)) :
    (entriesOf messages).countP Framed.endsExchange = messages.countP fun e => e.1.isFinal := by
  rw [entriesOf, List.countP_map]
  rfl

/-- Messages whose flags are asked by the number of exchanges that ended before them, `finals`
    having ended before the first. Under a flag that is set there is no body. -/
def Numbered (answersHead : Nat → Bool) (finals : Nat) (messages : List (Message × Bool)) : Prop :=
  ∀ i m flag, messages[i]? = some (m, flag) →
    flag = answersHead (finals + (messages.take i).countP fun e => e.1.isFinal) ∧
      (flag = true → m.body = none)

theorem numbered_nil (answersHead : Nat → Bool) (finals : Nat) :
    Numbered answersHead finals [] := fun _ _ _ h => by cases h

theorem numbered_cons {answersHead : Nat → Bool} {finals : Nat} {m : Message}
    {messages : List (Message × Bool)} (hbody : answersHead finals = true → m.body = none)
    (h : Numbered answersHead (finals + if m.isFinal then 1 else 0) messages) :
    Numbered answersHead finals ((m, answersHead finals) :: messages) := by
  intro i m' flag hi
  cases i with
  | zero =>
    cases hi
    exact ⟨rfl, hbody⟩
  | succ i =>
    obtain ⟨hflag, hempty⟩ := h i m' flag hi
    refine ⟨?_, hempty⟩
    rw [hflag, List.take_succ_cons, List.countP_cons, Nat.add_assoc,
      Nat.add_comm (ite _ _ _)]

namespace Accumulator

theorem numbered_piece {answersHead : Nat → Bool} {finals : Nat} {a : Accumulator} {p : Carved}
    {pieces : List (Carved × Bool)} (hp : a.piece? (a.step .response answersHead finals) = some p)
    (h : Numbered answersHead (finals + p.finals) (messagesIn pieces)) :
    Numbered answersHead finals
      (messagesIn ((p, flagAt .response answersHead finals) :: pieces)) := by
  cases p with
  | skipped bytes reason => exact h
  | message m =>
    refine numbered_cons (fun hflag => ?_) h
    have hstep := step_of_message hp
    rw [step_eq_flagAt, flagAt, hflag] at hstep
    exact body_of_answersHead hstep

/-- **The flag of a message is asked by the number of exchanges that ended before it.** -/
theorem numbered_flagWalk (answersHead : Nat → Bool) (finals : Nat) (a : Accumulator) :
    Numbered answersHead finals (messagesIn (a.flagWalk .response answersHead finals)) := by
  fun_induction flagWalk .response answersHead finals a with
  | case1 finals a hnone => exact numbered_nil answersHead finals
  | case2 finals a p hsome => exact numbered_piece hsome (numbered_nil answersHead _)
  | case3 finals a p hsome rest hrest ih => exact numbered_piece hsome ih

end Accumulator

/-! ## 2. An arrival of bytes -/

/-- The responses that bytes complete in a buffer, each with its flag. -/
def Buffer.flagged (answersHead : Nat → Bool) (bs : Bytes) (b : Buffer) : List (Message × Bool) :=
  messagesIn ((recover .response { b with acc := b.acc.append bs }).acc.flagWalk .response
    answersHead 0)

/-- The responses that bytes of a flow complete, each with its flag. -/
def Buffers.flagged (flow : FlowId) (answersHead : Nat → Bool) (bs : Bytes) (s : Buffers) :
    List (Message × Bool) :=
  if bs.isEmpty then [] else (s.buffer flow .response).flagged answersHead bs

theorem Buffer.entriesOf_flagged (answersHead : Nat → Bool) (bs : Bytes) (b : Buffer) :
    entriesOf (b.flagged answersHead bs) = reported (absorb .response answersHead bs b).1 := by
  rw [flagged, entriesOf_messagesIn, Accumulator.map_fst_flagWalk]
  rfl

theorem Buffers.numbered_flagged (flow : FlowId) (answersHead : Nat → Bool) (bs : Bytes)
    (s : Buffers) : Numbered answersHead 0 (s.flagged flow answersHead bs) := by
  unfold flagged
  split
  · exact numbered_nil answersHead 0
  · exact Accumulator.numbered_flagWalk answersHead 0 _

/-! ## 3. What outgrew the limit -/

/-- A step waits where carving takes nothing. -/
theorem Accumulator.step_of_carveAll_nil {a : Accumulator} {side : Side}
    {answersHead : Nat → Bool} (h : (a.carveAll side answersHead).1 = []) :
    ∃ k, a.step side answersHead 0 = .needMore k := by
  cases hp : a.piece? (a.step side answersHead 0) with
  | none => exact ⟨_, eq_needMore_of_piece? hp⟩
  | some p =>
    rw [carveAll_of_some hp] at h
    cases h

/-- **Behind what bytes complete, the step waits.** -/
theorem Buffer.exists_needMore_absorb {b : Buffer} (hb : b.acc.Searched) (side : Side)
    (answersHead : Nat → Bool) (bs : Bytes) :
    ∃ k, carveFrom (absorb side answersHead bs b).2.acc.unparsed side 0
      (decide (side = .response) &&
        answersHead (finalsIn (absorb side answersHead bs b).1)) = .needMore k := by
  have hsearched : (recover side { b with acc := b.acc.append bs }).acc.Searched :=
    searched_recover (Accumulator.Searched.append hb bs) side
  have hsettled := congrArg Prod.fst (Accumulator.carveAll_carveAll hsearched side answersHead)
  obtain ⟨k, hmore⟩ := Accumulator.step_of_carveAll_nil hsettled
  refine ⟨k, ?_⟩
  rw [← hmore]
  exact ((searched_absorb hb side answersHead bs).step_eq side
    (fun n => answersHead (finalsIn (absorb side answersHead bs b).1 + n)) 0).symm

/-- **The entry of a response that outgrew the limit ends an exchange**, and when it has a head, the
    response was not framed as the answer to a HEAD request. -/
theorem Buffer.isFinal_of_overflow {b : Buffer} (hb : b.acc.Searched) (answersHead : Nat → Bool)
    (bs : Bytes) {f : Framed}
    (h : (overflow .response (absorb .response answersHead bs b).2).1 = some f) :
    f.endsExchange = true ∧ (∀ m, f ≠ .message m) ∧
      ∀ m, f = .truncated m →
        answersHead (finalsIn (absorb .response answersHead bs b).1) = false := by
  obtain ⟨k, hmore⟩ := exists_needMore_absorb hb .response answersHead bs
  simp only [overflow] at h
  cases ht : Truncated.read? (absorb .response answersHead bs b).2.acc.unparsed .response with
  | none =>
    rw [ht] at h
    cases h
    refine ⟨rfl, fun m hm => ?_, fun m hm => ?_⟩
    · cases hm
    · cases hm
  | some t =>
    rw [ht] at h
    obtain ⟨m, hm, rfl⟩ := Option.map_eq_some_iff.mp h
    obtain ⟨hfinal, hflag⟩ := isFinal_of_needMore hmore ht hm
    refine ⟨hfinal, fun m' hm' => ?_, fun _ _ => hflag⟩
    cases hm'

/-- What bytes of a response side give: the messages, and at most one entry behind them. -/
theorem Buffers.receive_flagged {s : Buffers} (hs : s.Searched) (flow : FlowId)
    (answersHead : Nat → Bool) (bs : Bytes) :
    ∃ last : Option Framed,
      (s.receive flow .response answersHead bs).1 =
        entriesOf (s.flagged flow answersHead bs) ++ last.toList ∧
      ∀ f ∈ last, f.endsExchange = true ∧ (∀ m, f ≠ .message m) ∧
        ∀ m, f = .truncated m →
          answersHead ((s.flagged flow answersHead bs).countP fun e => e.1.isFinal) = false := by
  by_cases hbs : bs = []
  · rw [hbs]
    exact ⟨none, rfl, fun f => nofun⟩
  · have hflagged : s.flagged flow answersHead bs =
        (s.buffer flow .response).flagged answersHead bs := by
      rw [flagged, if_neg (by rwa [List.isEmpty_iff])]
    rw [receive_of_ne_nil hbs, hflagged, Buffer.receive_eq, ← countP_entriesOf,
      Buffer.entriesOf_flagged, ← finalsIn_eq_countP]
    simp only []
    split
    · exact ⟨_, rfl, fun f hf => Buffer.isFinal_of_overflow (hs flow .response) answersHead bs hf⟩
    · exact ⟨none, (List.append_nil _).symm, fun f => nofun⟩

end Stream

/-! ## 4. A call on the response side -/

namespace Engine.State

open Http TrafficGate.Stream Exchange Rule Verdict

variable {W : Type}

/-- What a call frames. -/
def framed (flow : FlowId) (side : Side) (bytes : Bytes) (s : State W) : List Framed × Buffers :=
  s.buffers.receive flow side (fun n => s.pending.isHeadAt flow n) bytes

/-- Handling what was framed leaves the buffers as framing left them. -/
theorem buffers_onBytes (backend : Backend W) (now : Time.Moment) (flow : FlowId) (side : Side)
    (bytes : Bytes) (snapshot : Option Text) (s : State W) :
    (s.onBytes backend now flow side bytes snapshot).2.buffers = (s.framed flow side bytes).2 := by
  unfold onBytes
  simp only [snd_settle]
  exact (handlings_handleAll backend now flow side snapshot _ _ _).frame.2

/-- The state in which a call handles the `i`-th entry that it framed. -/
def stateAt (backend : Backend W) (now : Time.Moment) (flow : FlowId) (side : Side)
    (bytes : Bytes) (snapshot : Option Text) (s : State W) (i : Nat) : State W :=
  (handleAll backend now flow side snapshot ((s.framed flow side bytes).1.take i) .proceed
    { s with buffers := (s.framed flow side bytes).2 }).2

/-- How the entries that a call frames of the response side meet the requests that wait: `messages`
    are the complete responses with the flags under which they were framed, `last` is the entry
    behind them, and `states` are those in which the entries are handled. -/
structure Aligned (backend : Backend W) (now : Time.Moment) (flow : FlowId)
    (snapshot : Option Text) (s : State W) (entries : List Framed) (states : Nat → State W)
    (messages : List (Message × Bool)) (last : Option Framed) : Prop where
  entries_eq : entries = entriesOf messages ++ last.toList
  last_ne : ∀ f ∈ last, ∀ m, f ≠ .message m
  /-- Each entry is handled in the state behind the entry before it. -/
  handled : ∀ i f, entries[i]? = some f →
    ∃ d, (states i).handleFramed backend now flow .response snapshot f = (.done d, states (i + 1))
  /-- An entry that ends an exchange is joined to the oldest request. -/
  answered : ∀ i f, entries[i]? = some f → f.endsExchange = true →
    (states i).handleFramed backend now flow .response snapshot f =
      (states i).handleAnswer backend now flow
        (f.response?.map (trimResponse (states i).config))
  /-- Any other entry changes nothing. -/
  passed : ∀ i f, entries[i]? = some f → f.endsExchange = false → states (i + 1) = states i
  /-- As many requests are gone as exchanges ended. -/
  queue : ∀ i, (states i).pending.queue flow =
    (s.pending.queue flow).drop ((entries.take i).countP Framed.endsExchange)
  /-- The flag of a final response says whether the request that it takes is a HEAD request. -/
  flag_iff : ∀ i m flag, messages[i]? = some (m, flag) → m.isFinal = true →
    (flag = true ↔ ∃ q, ((states i).pending.takeOldest flow).1 = some q ∧ q.isHead = true)
  bodiless : ∀ (i : Nat) (m : Message), messages[i]? = some (m, true) → m.body = none
  last_ends : ∀ f ∈ last, f.endsExchange = true
  /-- A response that was cut is not joined to a HEAD request. -/
  last_flag : ∀ f ∈ last, ∀ m, f = .truncated m → ∀ q,
    ((states messages.length).pending.takeOldest flow).1 = some q → q.isHead = false

section Calls

variable {backend : Backend W} {fit : W → Prop} {s : State W} (now : Time.Moment) {flow : FlowId}
  {side : Side} {bytes : Bytes} (snapshot : Option Text)

theorem stateAt_succ (hb : backend.Calm fit) (hw : fit s.world) {i : Nat} {f : Framed}
    (hf : (s.framed flow side bytes).1[i]? = some f) :
    ∃ d, (s.stateAt backend now flow side bytes snapshot i).handleFramed backend now flow side
      snapshot f = (.done d, s.stateAt backend now flow side bytes snapshot (i + 1)) := by
  have hfit : fit (s.stateAt backend now flow side bytes snapshot i).world :=
    fit_handleAll now flow side snapshot (s := { s with buffers := (s.framed flow side bytes).2 })
      hb hw _ _
  have htake : (s.framed flow side bytes).1.take (i + 1) =
      (s.framed flow side bytes).1.take i ++ [f] := by
    rw [List.take_add_one, hf, Option.toList_some]
  obtain ⟨d', _, happ⟩ := handleAll_append_done now flow side snapshot
    (s := { s with buffers := (s.framed flow side bytes).2 }) hb hw
    ((s.framed flow side bytes).1.take i) [f] .proceed
  obtain ⟨next, hnext, hcons⟩ := handleAll_cons now flow side snapshot hb hfit f [] d'
  refine ⟨next, ?_⟩
  have hstate : s.stateAt backend now flow side bytes snapshot (i + 1) =
      ((s.stateAt backend now flow side bytes snapshot i).handleFramed backend now flow side
        snapshot f).2 := by
    calc s.stateAt backend now flow side bytes snapshot (i + 1)
        = (handleAll backend now flow side snapshot [f] d'
            (s.stateAt backend now flow side bytes snapshot i)).2 := by
          rw [stateAt, htake, happ]
          rfl
      _ = _ := by
          rw [hcons]
          rfl
  rw [hstate]
  exact hnext

theorem onBytes_stateAt :
    (s.onBytes backend now flow side bytes snapshot).2 =
      s.stateAt backend now flow side bytes snapshot (s.framed flow side bytes).1.length := by
  rw [stateAt, List.take_length, onBytes]
  simp only [snd_settle]
  rfl

/-- In front of an entry as many requests were taken as exchanges ended. -/
theorem queue_stateAt (flow : FlowId) (bytes : Bytes) (hb : backend.Calm fit) (hw : fit s.world)
    (i : Nat) :
    (s.stateAt backend now flow .response bytes snapshot i).pending.queue flow =
      (s.pending.queue flow).drop
        (((s.framed flow .response bytes).1.take i).countP Framed.endsExchange) :=
  queue_handleAll_response now flow snapshot
    (s := { s with buffers := (s.framed flow .response bytes).2 }) hb hw
    (fun _ hf => Buffers.isOf_receive (List.mem_of_mem_take hf)) _

/-- The request that is taken behind `k` others answers the question that was asked of place `k`. -/
theorem isHeadAt_iff_takeOldest {p q : Pending} {k : Nat}
    (h : p.queue flow = (q.queue flow).drop k) :
    q.isHeadAt flow k = true ↔ ∃ r, (p.takeOldest flow).1 = some r ∧ r.isHead = true := by
  rw [Pending.takeOldest_fst, h, List.head?_drop, Pending.isHeadAt_eq, Option.any_eq_true]

/-- **Every response meets the request that its framing asked about.** In every state of a run, and
    whatever bytes come on the response side of a flow, a final response was framed as the answer to
    a HEAD request exactly when the request that it is joined to is one. -/
theorem onBytes_aligned (hb : backend.Calm fit) (hs : Reachable backend fit s)
    (flow : FlowId) (bytes : Bytes) :
    ∃ last, Aligned backend now flow snapshot s (s.framed flow .response bytes).1
        (s.stateAt backend now flow .response bytes snapshot)
        (s.buffers.flagged flow (fun n => s.pending.isHeadAt flow n) bytes) last ∧
      (s.onBytes backend now flow .response bytes snapshot).2 =
        s.stateAt backend now flow .response bytes snapshot
          (s.framed flow .response bytes).1.length := by
  have hw := hs.fit_world hb.toKeeps
  obtain ⟨last, hentries, hlast⟩ := Buffers.receive_flagged hs.searched flow
    (fun n => s.pending.isHeadAt flow n) bytes
  have hnumbered := Buffers.numbered_flagged flow (fun n => s.pending.isHeadAt flow n) bytes
    s.buffers
  change (s.framed flow .response bytes).1 = _ at hentries
  generalize s.buffers.flagged flow (fun n => s.pending.isHeadAt flow n) bytes = messages at *
  have hof : ∀ {i : Nat} {f : Framed}, (s.framed flow .response bytes).1[i]? = some f →
      f.IsOf .response :=
    fun hf => Buffers.isOf_receive (List.mem_of_getElem? hf)
  -- among the entries that report messages, those that end exchanges are the final responses
  have hcount : ∀ i ≤ messages.length,
      ((s.framed flow .response bytes).1.take i).countP Framed.endsExchange =
        (messages.take i).countP fun e => e.1.isFinal := by
    intro i hi
    rw [hentries, List.take_append_of_le_length (by rw [entriesOf, List.length_map]; exact hi),
      ← countP_entriesOf, entriesOf, entriesOf, List.map_take]
  refine ⟨last, ⟨hentries, fun f hf => (hlast f hf).2.1, fun i f => stateAt_succ now snapshot hb hw,
    ?_, ?_, queue_stateAt now snapshot flow bytes hb hw, ?_, ?_, fun f hf => (hlast f hf).1, ?_⟩,
    onBytes_stateAt now snapshot⟩
  · intro i f hf hends
    rw [handleFramed_response (hof hf), if_pos hends]
  · intro i f hf hends
    obtain ⟨d, hd⟩ := stateAt_succ now snapshot hb hw hf
    rw [handleFramed_response (hof hf), hends] at hd
    exact (congrArg Prod.snd hd).symm
  · intro i m flag hm hfinal
    have hi : i < messages.length := (List.getElem?_eq_some_iff.mp hm).1
    have hqueue := queue_stateAt now snapshot flow bytes hb hw i
    rw [hcount i (Nat.le_of_lt hi)] at hqueue
    rw [(hnumbered i m flag hm).1, Nat.zero_add]
    exact isHeadAt_iff_takeOldest hqueue
  · intro i m hm
    exact (hnumbered i m true hm).2 rfl
  · intro f hf m hm q hq
    have hqueue := queue_stateAt now snapshot flow bytes hb hw messages.length
    rw [hcount _ (Nat.le_refl _), List.take_length] at hqueue
    have hflag := (hlast f hf).2.2 m hm
    rw [Bool.eq_false_iff] at hflag ⊢
    exact fun hhead => hflag ((isHeadAt_iff_takeOldest hqueue).mpr ⟨q, hq, hhead⟩)

end Calls

/-- The head of a response that declares five bytes. -/
def sizedHead : Bytes := Utf8.encode "HTTP/1.1 200 OK\r\nContent-Length: 5\r\n\r\n".toList

/-- Behind a HEAD request the head of a response is the whole response. -/
theorem onBytes_aligned_behind_head :
    ∃ s, behind? (Book.empty, Shelf.empty) headRequest = some s ∧
      ∃ last, Aligned memory ⟨⟨1, 0⟩, 1⟩ ⟨7, false⟩ none s
          (s.framed ⟨7, false⟩ .response sizedHead).1
          (s.stateAt memory ⟨⟨1, 0⟩, 1⟩ ⟨7, false⟩ .response sizedHead none)
          (s.buffers.flagged ⟨7, false⟩ (fun n => s.pending.isHeadAt ⟨7, false⟩ n) sizedHead) last ∧
        (s.onBytes memory ⟨⟨1, 0⟩, 1⟩ ⟨7, false⟩ .response sizedHead none).2 =
          s.stateAt memory ⟨⟨1, 0⟩, 1⟩ ⟨7, false⟩ .response sizedHead none
            (s.framed ⟨7, false⟩ .response sizedHead).1.length := by
  obtain ⟨s, hs⟩ : ∃ s, behind? (Book.empty, Shelf.empty) headRequest = some s := ⟨_, rfl⟩
  exact ⟨s, hs, onBytes_aligned ⟨⟨1, 0⟩, 1⟩ none calm_memory (reachable_behind? trivial hs)
    ⟨7, false⟩ sizedHead⟩

example : (behind? (Book.empty, Shelf.empty) headRequest).map (fun s =>
    s.buffers.flagged ⟨7, false⟩ (fun n => s.pending.isHeadAt ⟨7, false⟩ n) sizedHead) =
      some [({ side := .response, raw := sizedHead,
               head := "HTTP/1.1 200 OK\r\nContent-Length: 5".toList, body := none,
               status := some 200 }, true)] := by
  decide +kernel

end Engine.State

end TrafficGate
