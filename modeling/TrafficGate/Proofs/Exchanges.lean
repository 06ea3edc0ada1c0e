import TrafficGate.Proofs.Collaborators
/-!
  # Which request an entry ends

  What is framed on the response side is handled entry by entry. An entry that ends an exchange, be
  it a final response, one that was cut, or one that was lost, takes the oldest request of the flow;
  any other entry takes none. So the queue behind some entries is the queue before them without as
  many requests as entries that end exchanges.

  1. `IsOf` -- what every framed message is: of its side, with the status of its start line;
  2. `endsExchange` -- which entries end an exchange;
  3. the queue of a flow when its oldest request is taken;
  4. handling entries.

  Main facts: **`isOf_receive`**, **`finalsIn_eq_countP`**, **`handleFramed_response`**,
  **`handleAll_done`** and **`queue_handleAll_response`**.
-/

namespace TrafficGate

/-! ## 1. Framed messages -/

namespace Http

/-- A message of the side whose status is what its start line says. -/
def Message.IsOf (side : Side) (m : Message) : Prop :=
  m.side = side ∧ Head.status side m.startLine = .ok m.status

theorem isOf_carveFrom {data : Bytes} {side : Side} {scan : Nat} {answersHead : Bool}
    {m : Message} (h : carveFrom data side scan answersHead = .complete m) : m.IsOf side := by
  unfold carveFrom at h
  split at h
  · cases h
  · next i _ =>
    obtain ⟨body, length, status, _, hs, rfl⟩ := carveHead_eq_complete h
    exact ⟨rfl, hs⟩

theorem isOf_read? {data : Bytes} {side : Side} {t : Truncated} {m : Message}
    (h : Truncated.read? data side = some t) (hm : t.message = some m) : m.IsOf side := by
  obtain ⟨i, _, rfl⟩ := Option.map_eq_some_iff.mp h
  simp only [] at hm
  split at hm
  · next status hs =>
    cases hm
    exact ⟨rfl, hs⟩
  · cases hm

/-- A response has the code of its status line. -/
theorem Message.IsOf.code {m : Message} (h : m.IsOf .response) :
    ∃ line, StatusLine.parse m.startLine = .ok line ∧ m.status = some line.code := by
  have hs := h.2
  simp only [Head.status] at hs
  cases hp : StatusLine.parse m.startLine with
  | error flaw => rw [hp] at hs; cases hs
  | ok line =>
    rw [hp] at hs
    simp only [Except.map, Except.ok.injEq] at hs
    exact ⟨line, rfl, hs.symm⟩

end Http

namespace Stream

open Http

namespace Framed

/-- The message of an entry that has one. -/
def message? : Framed → Option Message
  | message m | truncated m => some m
  | lost _ => none

/-- An entry whose message, if there is one, is of the side. -/
def IsOf (side : Side) (f : Framed) : Prop := ∀ m, f.message? = some m → m.IsOf side

end Framed

namespace Accumulator

theorem isOf_carveAll {a : Accumulator} {side : Side} {answersHead : Nat → Bool} {m : Message}
    (h : .message m ∈ (a.carveAll side answersHead).1) : m.IsOf side := by
  induction answersHead, a using carve_induction side with
  | waits answersHead a k hk =>
    rw [carveAll_of_none hk] at h
    cases h
  | piece answersHead a p hp ih =>
    rw [carveAll_of_some hp] at h
    rcases List.mem_cons.mp h with rfl | hrest
    · exact isOf_carveFrom (step_of_message hp)
    · exact ih hrest

end Accumulator

namespace Buffer

theorem mem_reported {pieces : List Carved} {f : Framed} (h : f ∈ reported pieces) :
    ∃ m, f = .message m ∧ .message m ∈ pieces := by
  obtain ⟨m, hm, rfl⟩ := List.mem_map.mp h
  obtain ⟨p, hp, hpm⟩ := List.mem_filterMap.mp hm
  cases p with
  | message m' =>
    cases hpm
    exact ⟨m, rfl, hp⟩
  | skipped bytes reason => cases hpm

theorem isOf_overflow {side : Side} {b : Buffer} {f : Framed} (h : (overflow side b).1 = some f) :
    f.IsOf side := by
  intro m hm
  simp only [overflow] at h
  cases ht : Truncated.read? b.acc.unparsed side with
  | none =>
    rw [ht] at h
    cases h
    cases hm
  | some t =>
    rw [ht] at h
    obtain ⟨m', hm', rfl⟩ := Option.map_eq_some_iff.mp h
    cases hm
    exact isOf_read? ht hm'

theorem isOf_reported_absorb {side : Side} {answersHead : Nat → Bool} {bs : Bytes} {b : Buffer}
    {f : Framed} (h : f ∈ reported (absorb side answersHead bs b).1) : f.IsOf side := by
  intro m hm
  obtain ⟨m', rfl, hmem⟩ := mem_reported h
  cases hm
  exact Accumulator.isOf_carveAll hmem

theorem isOf_receive {limit : Nat} {side : Side} {answersHead : Nat → Bool} {bs : Bytes}
    {b : Buffer} {f : Framed} (h : f ∈ (receive limit side answersHead bs b).1) :
    f.IsOf side := by
  rw [receive_eq] at h
  simp only [] at h
  split at h
  · rcases List.mem_append.mp h with hf | hf
    · exact isOf_reported_absorb hf
    · exact isOf_overflow (Option.mem_toList.mp hf)
  · exact isOf_reported_absorb h

end Buffer

/-- **Every message that is framed is of the side of the bytes.** -/
theorem Buffers.isOf_receive {flow : FlowId} {side : Side} {answersHead : Nat → Bool} {bs : Bytes}
    {s : Buffers} {f : Framed} (h : f ∈ (s.receive flow side answersHead bs).1) :
    f.IsOf side := by
  by_cases hbs : bs = []
  · rw [hbs, receive_nil] at h
    cases h
  · rw [receive_of_ne_nil hbs] at h
    exact Buffer.isOf_receive h

/-! ## 2. Entries that end an exchange -/

namespace Framed

/-- Whether an entry of the response side ends an exchange: a final response, complete or cut, or
    a lost one. -/
def endsExchange : Framed → Bool
  | message m | truncated m => m.isFinal
  | lost _ => true

/-- The response that an entry brings. -/
def response? : Framed → Option Exchange.Response
  | message m | truncated m => (Exchange.Response.ofMessage m).toOption
  | lost _ => none

end Framed

/-- **The walk counts the entries that end exchanges.** -/
theorem finalsIn_eq_countP (pieces : List Carved) :
    finalsIn pieces = (Buffer.reported pieces).countP Framed.endsExchange := by
  induction pieces with
  | nil => rfl
  | cons p pieces ih =>
    rw [finalsIn_cons, ih]
    cases p with
    | skipped bytes reason =>
      simp only [Carved.finals, Nat.zero_add]
      rfl
    | message m =>
      show (if m.isFinal then 1 else 0) + _ =
        (Framed.message m :: Buffer.reported pieces).countP Framed.endsExchange
      rw [List.countP_cons]
      exact Nat.add_comm _ _

end Stream

/-! ## 3. The oldest request -/

namespace Exchange

/-- Whether a request is a HEAD request, in any case of letters. -/
def Request.isHead (r : Request) : Bool := Ascii.sameWord r.method "HEAD".toList

namespace Pending

theorem takeOldest_fst (flow : FlowId) (p : Pending) :
    (p.takeOldest flow).1 = (p.queue flow).head? := by
  unfold takeOldest
  cases p.queue flow with
  | nil => rfl
  | cons r rest => cases rest <;> rfl

/-- **The others stay in the queue, in their order.** -/
theorem queue_takeOldest (flow : FlowId) (p : Pending) :
    (p.takeOldest flow).2.queue flow = (p.queue flow).tail := by
  unfold takeOldest
  cases p.queue flow with
  | nil => simp only [queue, Table.find?_erase_self, Option.getD_none, List.tail_nil]
  | cons r rest =>
    cases rest with
    | nil => simp only [queue, Table.find?_erase_self, Option.getD_none, List.tail_cons]
    | cons r' rest => simp only [queue, Table.find?_set_self, Option.getD_some, List.tail_cons]

theorem isHeadAt_eq (flow : FlowId) (place : Nat) (p : Pending) :
    p.isHeadAt flow place = (p.queue flow)[place]?.any Request.isHead := by
  unfold isHeadAt
  cases (p.queue flow)[place]? <;> rfl

end Pending

end Exchange

/-! ## 4. Handling entries -/

namespace Engine.State

open Http TrafficGate.Stream Exchange Rule Verdict

section Entries

variable {W : Type} {backend : Backend W} {fit : W → Prop} {now : Time.Moment} {flow : FlowId}
  {side : Side} {snapshot : Option Text} {s : State W}

theorem handleResponse_eq {m : Message} (h : m.IsOf .response) :
    s.handleResponse backend now flow m =
      if m.isFinal then
        s.handleAnswer backend now flow
          ((Response.ofMessage m).toOption.map (trimResponse s.config))
      else (.done .proceed, s) := by
  obtain ⟨line, hline, hstatus⟩ := h.code
  simp only [handleResponse, Response.ofMessage, hline, Message.isFinal, hstatus]
  cases StatusLine.isInterim line.code <;> rfl

/-- **An entry of the response side is handled with the oldest request if it ends an exchange**, and
    passed over if it does not. -/
theorem handleFramed_response {f : Framed} (h : f.IsOf .response) :
    s.handleFramed backend now flow .response snapshot f =
      if f.endsExchange then
        s.handleAnswer backend now flow (f.response?.map (trimResponse s.config))
      else (.done .proceed, s) := by
  cases f with
  | message m | truncated m => exact handleResponse_eq (h m rfl)
  | lost n => rfl

theorem pending_judge (request : Request) (response : Option Response) (value : Text) :
    (s.judge backend now request response value).2.pending = s.pending := by
  unfold judge
  cases h : s.lookUp backend now value with
  | mk found s' =>
    obtain rfl : s' = (s.lookUp backend now value).2 := by rw [h]
    cases found <;> rfl

/-- **Handling an answer takes the oldest request**, whatever comes of it. -/
theorem pending_handleAnswer (response : Option Response) :
    (s.handleAnswer backend now flow response).2.pending = (s.pending.takeOldest flow).2 := by
  unfold handleAnswer
  cases h : s.pending.takeOldest flow with
  | mk oldest pending =>
    cases oldest with
    | none => rfl
    | some request => exact pending_judge request response _

variable (now flow)

theorem judge_done (hb : backend.Calm fit) (hw : fit s.world) (request : Request)
    (response : Option Response) (value : Text) :
    ∃ d, (s.judge backend now request response value).1 = .done d := by
  obtain ⟨r, hr⟩ := lookUp_done hb hw now value
  unfold judge
  cases h : s.lookUp backend now value with
  | mk found s' =>
    rw [h] at hr
    obtain rfl : found = .done r := hr
    exact ⟨_, rfl⟩

theorem handleAnswer_done (hb : backend.Calm fit) (hw : fit s.world)
    (response : Option Response) :
    ∃ d, (s.handleAnswer backend now flow response).1 = .done d := by
  unfold handleAnswer
  cases h : s.pending.takeOldest flow with
  | mk oldest pending =>
    cases oldest with
    | none => exact ⟨.proceed, rfl⟩
    | some request => exact judge_done now (s := { s with pending }) hb hw request response _

variable (side snapshot)

theorem handleRequest_done (hb : backend.Calm fit) (hw : fit s.world) (m : Message) :
    ∃ d, (s.handleRequest backend now flow snapshot m).1 = .done d := by
  unfold handleRequest
  split
  · exact ⟨.proceed, rfl⟩
  · next request hr =>
    simp only []
    obtain ⟨r, hr⟩ := lookUp_done hb hw now request.canonical
    cases h : s.lookUp backend now request.canonical with
    | mk found s' =>
      rw [h] at hr
      obtain rfl : found = .done r := hr
      cases r with
      | none => exact ⟨.proceed, rfl⟩
      | some rule => exact ⟨_, rfl⟩

theorem handleResponse_done (hb : backend.Calm fit) (hw : fit s.world) (m : Message) :
    ∃ d, (s.handleResponse backend now flow m).1 = .done d := by
  unfold handleResponse
  split
  · exact ⟨.proceed, rfl⟩
  · split
    · exact ⟨.proceed, rfl⟩
    · exact handleAnswer_done now flow hb hw _

theorem handleFramed_done (hb : backend.Calm fit) (hw : fit s.world) (f : Framed) :
    ∃ d, (s.handleFramed backend now flow side snapshot f).1 = .done d := by
  cases f with
  | message m | truncated m =>
    cases side with
    | request => exact handleRequest_done now flow snapshot hb hw m
    | response => exact handleResponse_done now flow hb hw m
  | lost n =>
    cases side with
    | request => exact ⟨.proceed, rfl⟩
    | response => exact handleAnswer_done now flow hb hw none

/-- What handling one more entry first gives, in a fit world. -/
theorem handleAll_cons (hb : backend.Calm fit) (hw : fit s.world) (f : Framed) (fs : List Framed)
    (d : Disposition) :
    ∃ next, s.handleFramed backend now flow side snapshot f =
        (.done next, (s.handleFramed backend now flow side snapshot f).2) ∧
      handleAll backend now flow side snapshot (f :: fs) d s =
        handleAll backend now flow side snapshot fs (d.or next)
          (s.handleFramed backend now flow side snapshot f).2 := by
  obtain ⟨next, hnext⟩ := handleFramed_done now flow side snapshot hb hw f
  refine ⟨next, Prod.ext hnext rfl, ?_⟩
  rw [handleAll]
  cases h : s.handleFramed backend now flow side snapshot f with
  | mk o s' =>
    rw [h] at hnext
    obtain rfl : o = .done next := hnext
    rfl

theorem fit_handleFramed (hb : backend.Calm fit) (hw : fit s.world) (f : Framed) :
    fit (s.handleFramed backend now flow side snapshot f).2.world :=
  (handlings_handleFramed backend now flow side snapshot f s).keep
    (fit_handling hb.toKeeps) hw

theorem fit_handleAll (hb : backend.Calm fit) (hw : fit s.world) (fs : List Framed)
    (d : Disposition) : fit (handleAll backend now flow side snapshot fs d s).2.world :=
  (handlings_handleAll backend now flow side snapshot fs d s).keep (fit_handling hb.toKeeps) hw

/-- **Handling what was framed comes to an end in a fit world.** -/
theorem handleAll_done (hb : backend.Calm fit) (hw : fit s.world) (fs : List Framed)
    (d : Disposition) :
    ∃ d', (handleAll backend now flow side snapshot fs d s).1 = .done d' := by
  induction fs generalizing d s with
  | nil => exact ⟨d, rfl⟩
  | cons f fs ih =>
    obtain ⟨next, _, hcons⟩ := handleAll_cons now flow side snapshot hb hw f fs d
    rw [hcons]
    exact ih (fit_handleFramed now flow side snapshot hb hw f) _

/-- **In a fit world what was framed may be handled in two parts.** -/
theorem handleAll_append_done (hb : backend.Calm fit) (hw : fit s.world) (a b : List Framed)
    (d : Disposition) :
    ∃ d', handleAll backend now flow side snapshot a d s =
        (.done d', (handleAll backend now flow side snapshot a d s).2) ∧
      handleAll backend now flow side snapshot (a ++ b) d s =
        handleAll backend now flow side snapshot b d'
          (handleAll backend now flow side snapshot a d s).2 := by
  obtain ⟨d', hd⟩ := handleAll_done now flow side snapshot hb hw a d
  refine ⟨d', Prod.ext hd rfl, ?_⟩
  rw [handleAll_append]
  cases h : handleAll backend now flow side snapshot a d s with
  | mk o s' =>
    rw [h] at hd
    obtain rfl : o = .done d' := hd
    rfl

/-- **The queue behind some entries of the response side** is the one before without as many
    requests as entries that end exchanges. -/
theorem queue_handleAll_response (hb : backend.Calm fit) (hw : fit s.world) {fs : List Framed}
    (hf : ∀ f ∈ fs, f.IsOf .response) (d : Disposition) :
    (handleAll backend now flow .response snapshot fs d s).2.pending.queue flow =
      (s.pending.queue flow).drop (fs.countP Framed.endsExchange) := by
  induction fs generalizing d s with
  | nil => rfl
  | cons f fs ih =>
    obtain ⟨next, _, hcons⟩ := handleAll_cons now flow .response snapshot hb hw f fs d
    have hrest : ∀ g ∈ fs, g.IsOf .response := fun g hg => hf g (List.mem_cons_of_mem f hg)
    rw [hcons, ih (fit_handleFramed now flow .response snapshot hb hw f) hrest,
      handleFramed_response (hf f List.mem_cons_self), List.countP_cons]
    cases f.endsExchange with
    | false => rfl
    | true =>
      simp only [if_true, pending_handleAnswer, Pending.queue_takeOldest]
      rw [← List.drop_one, List.drop_drop, Nat.add_comm]

end Entries

end Engine.State

end TrafficGate
