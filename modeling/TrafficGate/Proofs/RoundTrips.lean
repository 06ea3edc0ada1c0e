import TrafficGate.Proofs.Conservation
import TrafficGate.Proofs.AnswerStreams
import TrafficGate.Proofs.EngineFragmentation
/-!
  # Round trips

  A round trip is a request and the response that answers it. Entries of the request side put the
  requests of round trips into the queue, if none is blocked or given up; entries of the response
  side take them from it, each with the response of its own round trip, and the events tell of both.

  1. `RoundTrip` -- what of it shows in a waiting request, in a response, and in an event;
  2. entries that bring requests;
  3. entries that bring responses.

  Main facts: **`HandlesAll.waits`** and **`HandlesAll.joins`**.
-/

namespace TrafficGate

open Http TrafficGate.Stream Exchange Rule Verdict

/-! ## 1. Requests and their responses -/

namespace Engine

variable {W : Type}

/-- A request and the response that answers it. -/
structure RoundTrip where
  request : Message
  response : Message

namespace RoundTrip

variable {flow : FlowId} {x : RoundTrip}

/-- The response, with whether the request is a HEAD request. -/
def answer (flow : FlowId) (x : RoundTrip) : Answer :=
  { message := x.response,
    toHead := (Request.ofMessage flow x.request).toOption.any Request.isHead }

/-- The request is whole, with a head for which the limit leaves room, and can be used; the response
    is whole and final. -/
structure Proper (flow : FlowId) (limit : Nat) (x : RoundTrip) : Prop where
  request : Delimited .request limit x.request
  usable : ∃ r, Request.ofMessage flow x.request = .ok r
  answer : (x.answer flow).Whole

/-- A request that waits is the one of the round trip, as much of its body as is kept. -/
def Asks (flow : FlowId) (x : RoundTrip) (r : Request) : Prop :=
  ∃ full body snapshot, Request.ofMessage flow x.request = .ok full ∧
    r = { full with body, snapshot }

/-- A response is the one of the round trip, as much of its body as is kept. -/
def Answers (x : RoundTrip) (r : Response) : Prop :=
  ∃ full body, Response.ofMessage x.response = .ok full ∧ r = { full with body }

/-- An event tells of the request of the round trip, and of its response if of any. -/
def Told (flow : FlowId) (x : RoundTrip) (e : Event) : Prop :=
  ∃ request response matched, e.Tells request response matched ∧ x.Asks flow request ∧
    ∀ r ∈ response, x.Answers r

theorem Asks.isHead {r : Request} (h : x.Asks flow r) : r.isHead = (x.answer flow).toHead := by
  obtain ⟨full, body, snapshot, hfull, rfl⟩ := h
  rw [answer, hfull]
  rfl

end RoundTrip

/-- Whether a move is one of a request that is blocked, or given up for a later one. -/
def Move.disturbs : Move → Bool
  | blocked _ _ | leaves _ .evicted => true
  | enters _ | leaves _ _ => false

namespace State

section Entries

variable {backend : Backend W} {now : Time.Moment} {flow : FlowId} {snapshot : Option Text}
  {s t : State W} {x : RoundTrip} {f : Framed} {fs : List Framed} {a : Act} {as : List Act}
  {limit : Nat} {held done : List RoundTrip}

/-! ## 2. Requests -/

/-- The entry of a usable request brings it. -/
theorem usable?_of_reports (hx : ∃ r, Request.ofMessage flow x.request = .ok r)
    (h : Buffer.Reports limit x.request f) (config : Config) (snapshot : Option Text) :
    ∃ r, usable? config flow snapshot f = some r ∧ x.Asks flow r := by
  obtain ⟨full, hfull⟩ := hx
  cases h with
  | message =>
    refine ⟨_, ?_, full, collect full.body config.collectRequestBody config.maxBodyBytes, snapshot,
      hfull, rfl⟩
    simp only [usable?, Framed.message?, Option.bind_some, hfull, Except.toOption, Option.map_some]
  | truncated =>
    refine ⟨_, ?_, full, collect none config.collectRequestBody config.maxBodyBytes, snapshot,
      hfull, rfl⟩
    have hhead : x.request.cut.head = x.request.head := rfl
    simp only [usable?, Framed.message?, Option.bind_some, Request.ofMessage_of_head_eq hhead, hfull,
      Except.map, Except.toOption, Option.map_some]
    rfl

/-- Where nobody is given up, everybody keeps the place. -/
theorem makeRoom_of_evictions {q : List Request}
    (h : ∀ m ∈ evictions limit q, m.disturbs = false) : Pending.makeRoom limit q = q := by
  unfold evictions at h
  unfold Pending.makeRoom
  split
  · next hfull =>
    rw [if_pos hfull] at h
    cases q with
    | nil => rfl
    | cons oldest q => cases h _ List.mem_cons_self
  · rfl

/-- **A request that is neither blocked nor makes another give way is the last one that waits.** -/
theorem Handles.waits (h : Handles backend now flow snapshot s f .request a t)
    (hbreak : a.breaksOff = false) (hx : ∃ r, Request.ofMessage flow x.request = .ok r)
    (hf : Buffer.Reports limit x.request f)
    (hmoves : ∀ m ∈ a.moves s.pending.limit (s.pending.queue flow), m.disturbs = false) :
    ∃ r, t.pending.queue flow = s.pending.queue flow ++ [r] ∧ x.Asks flow r ∧
      t.published = s.published := by
  obtain ⟨r, husable, hasks⟩ := usable?_of_reports hx hf s.config snapshot
  have hqueue := h.queue
  obtain ⟨events, hevents, hpublishes⟩ := h.published
  cases h with
  | unusable hnone =>
    rw [husable] at hnone
    cases hnone
  | wait hr =>
    obtain rfl := Option.some.inj (husable.symm.trans hr)
    have hroom : Pending.makeRoom s.pending.limit (s.pending.queue flow) = s.pending.queue flow :=
      makeRoom_of_evictions fun m hm => hmoves m (List.mem_append_left _ hm)
    obtain rfl : events = [] := hpublishes
    rw [Act.queueAfter, hroom] at hqueue
    exact ⟨r, hqueue, hasks, hevents.trans (List.append_nil _)⟩
  | block => cases hmoves _ List.mem_cons_self
  | breakOff => cases hbreak

/-- **The requests of round trips wait in their order**, and nothing is published, if none is
    blocked or given up. -/
theorem HandlesAll.waits (h : HandlesAll backend now flow .request snapshot s fs as t)
    (hcalm : as.any Act.breaksOff = false)
    (hfs : List.Forall₂ (fun x f => Buffer.Reports limit x.request f) done fs)
    (hdone : ∀ x ∈ done, ∃ r, Request.ofMessage flow x.request = .ok r)
    (hq : List.Forall₂ (RoundTrip.Asks flow) held (s.pending.queue flow))
    (hmoves : ∀ m ∈ movesOf s.pending.limit (s.pending.queue flow) as, m.disturbs = false) :
    List.Forall₂ (RoundTrip.Asks flow) (held ++ done) (t.pending.queue flow) ∧
      t.published = s.published := by
  induction h generalizing held done with
  | nil s =>
    cases hfs
    rw [List.append_nil]
    exact ⟨hq, rfl⟩
  | @cons s u t f fs a as h hbreak _ ih =>
    rw [List.any_cons, Bool.or_eq_false_iff] at hcalm
    cases hfs with
    | @cons x _ done _ hf hfs =>
      obtain ⟨hx, hdone⟩ := List.forall_mem_cons.mp hdone
      obtain ⟨r, hqueue, hasks, hpublished⟩ := h.waits hbreak hx hf fun m hm =>
        hmoves m (List.mem_append_left _ hm)
      have hnext : List.Forall₂ (RoundTrip.Asks flow) (held ++ [x]) (u.pending.queue flow) := by
        rw [hqueue]
        exact List.rel_append hq (.cons hasks .nil)
      obtain ⟨hwaits, hsame⟩ := ih hcalm.2 hfs hdone hnext fun m hm => by
        rw [h.queue, h.limits.2] at hm
        exact hmoves m (List.mem_append_right _ hm)
      rw [List.append_assoc, List.singleton_append] at hwaits
      exact ⟨hwaits, hsame.trans hpublished⟩
  | breakOff _ hbreak =>
    rw [List.any_cons, hbreak] at hcalm
    cases hcalm

/-! ## 3. Responses -/

theorem endsExchange_of_yields {m : Message} (hfinal : m.isFinal = true) (h : Yields m f) :
    f.endsExchange = true := by
  cases h with
  | message | truncated => exact hfinal
  | lost n => rfl

/-- The entry of a response brings it, if any. -/
theorem answers_of_yields (h : Yields x.response f) {config : Config} {r : Response}
    (hr : answer? config f = some r) : x.Answers r := by
  obtain ⟨kept, hkept, rfl⟩ := Option.map_eq_some_iff.mp hr
  cases h with
  | message | truncated =>
    have hhead : x.response.cut.head = x.response.head := rfl
    simp only [Framed.response?, Response.ofMessage_of_head_eq hhead] at hkept
    cases hfull : Response.ofMessage x.response with
    | error flaw =>
      rw [hfull] at hkept
      cases hkept
    | ok full =>
      rw [hfull] at hkept
      cases hkept
      exact ⟨_, _, hfull, rfl⟩
  | lost n => cases hkept

/-- **A response takes the oldest request**, and its events tell of these two. -/
theorem Handles.joins (h : Handles backend now flow snapshot s f .response a t)
    (hbreak : a.breaksOff = false) (hx : (x.answer flow).Whole) (hf : Yields x.response f)
    {r : Request} {q : List Request} (hqueue : s.pending.queue flow = r :: q)
    (hasks : x.Asks flow r) :
    ∃ events, t.published = s.published ++ events ∧ (∀ e ∈ events, x.Told flow e) ∧
      t.pending.queue flow = q := by
  have hends := endsExchange_of_yields hx.final hf
  have hafter := h.queue
  obtain ⟨events, hevents, hpublishes⟩ := h.published
  cases h with
  | announce hpass =>
    rw [hends] at hpass
    cases hpass
  | unasked _ hq =>
    have hnone : (s.pending.queue flow).head? = none := by rw [← Pending.takeOldest_fst, hq]
    rw [hqueue] at hnone
    cases hnone
  | @conclude oldest _ matched _ _ hq =>
    have hhead := head?_of_takeOldest hq
    rw [hqueue, List.head?_cons, Option.some.injEq] at hhead
    subst hhead
    refine ⟨events, hevents, fun e he => ⟨r, answer? s.config f, matched, hpublishes e he, hasks,
      fun _ => answers_of_yields hf⟩, ?_⟩
    rw [hafter, hqueue]
    rfl
  | breakOffOldest => cases hbreak

/-- **Responses of round trips take their requests**, and the events tell of the round trips, one
    after the other. -/
theorem HandlesAll.joins (h : HandlesAll backend now flow .response snapshot s fs as t)
    (hcalm : as.any Act.breaksOff = false)
    (hfs : List.Forall₂ (fun x f => Yields x.response f) done fs)
    (hdone : ∀ x ∈ done, (x.answer flow).Whole)
    (hq : List.Forall₂ (RoundTrip.Asks flow) (done ++ held) (s.pending.queue flow)) :
    ∃ groups : List (List Event), t.published = s.published ++ groups.flatten ∧
      List.Forall₂ (fun x es => ∀ e ∈ es, x.Told flow e) done groups ∧
      List.Forall₂ (RoundTrip.Asks flow) held (t.pending.queue flow) := by
  induction h generalizing done with
  | nil s =>
    cases hfs
    exact ⟨[], (List.append_nil _).symm, .nil, hq⟩
  | @cons s u t f fs a as h hbreak _ ih =>
    rw [List.any_cons, Bool.or_eq_false_iff] at hcalm
    cases hfs with
    | @cons x _ done _ hf hfs =>
      obtain ⟨hx, hdone⟩ := List.forall_mem_cons.mp hdone
      obtain ⟨r, q, hasks, hlater, hqueue⟩ := List.forall₂_cons_left_iff.mp hq
      obtain ⟨events, hevents, htold, hafter⟩ := h.joins hbreak hx hf hqueue hasks
      rw [← hafter] at hlater
      obtain ⟨groups, hgroups, hall, hwaits⟩ := ih hcalm.2 hfs hdone hlater
      refine ⟨events :: groups, ?_, .cons htold hall, hwaits⟩
      rw [hgroups, hevents, List.flatten_cons, List.append_assoc]
  | breakOff _ hbreak =>
    rw [List.any_cons, hbreak] at hcalm
    cases hcalm

end Entries

end State

end Engine

end TrafficGate
