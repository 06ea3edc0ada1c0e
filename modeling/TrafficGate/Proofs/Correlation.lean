import TrafficGate.Proofs.RoundTrips
/-!
  # Responses meet their requests

  The requests of round trips are sent on a flow, and their responses come back in the same order,
  each behind the whole of its request, in any fragments of either side. As long as nobody is
  blocked or given up for a later request, every response meets its own request: the queue holds the
  requests whose responses are still to come, and a final response takes the first of them.

  1. `Piece` and `Dialogue` -- what crosses a flow, and when;
  2. `Between` -- the buffers and the queue of the flow between two pieces;
  3. one piece;
  4. a run;
  5. what puts requests and responses out of step.

  Main facts: **`Between.asked`**, **`Between.answered`**, **`Between.observe`** and
  **`observe_correlates`**.
-/

namespace TrafficGate

open Http TrafficGate.Stream Exchange Rule Verdict

/-! ## 1. Dialogues -/

namespace Engine

variable {W : Type}

/-- A piece of what crosses a flow. -/
structure Piece where
  now : Time.Moment
  side : Side
  bytes : Bytes
  snapshot : Option Text

/-- The operation that takes it in. -/
def Piece.ingress (flow : FlowId) (p : Piece) : Ingress := .bytes flow p.side p.bytes p.snapshot

/-- What is sent on a side. -/
def sent (side : Side) (pieces : List Piece) : Bytes :=
  (pieces.filter fun p => p.side = side).flatMap Piece.bytes

theorem sent_append (side : Side) (pieces later : List Piece) :
    sent side (pieces ++ later) = sent side pieces ++ sent side later := by
  rw [sent, List.filter_append, List.flatMap_append]
  rfl

theorem sent_singleton (side : Side) (p : Piece) :
    sent side [p] = if p.side = side then p.bytes else [] := by
  unfold sent
  by_cases h : p.side = side
  · rw [List.filter_cons_of_pos (by simpa using h), if_pos h]
    exact List.append_nil p.bytes
  · rw [List.filter_cons_of_neg (by simpa using h), if_neg h]
    rfl

/-- The bytes of the requests. -/
def requestStream (xs : List RoundTrip) : Bytes := streamOf (xs.map RoundTrip.request)

/-- The bytes of the responses. -/
def responseStream (xs : List RoundTrip) : Bytes := streamOf (xs.map RoundTrip.response)

theorem length_requestStream (xs : List RoundTrip) (k : Nat) :
    (requestStream xs).length =
      (requestStream (xs.take k)).length + (requestStream (xs.drop k)).length := by
  simp only [requestStream, List.map_take, List.map_drop]
  exact length_streamOf _ k

theorem length_responseStream (xs : List RoundTrip) (k : Nat) :
    (responseStream xs).length =
      (responseStream (xs.take k)).length + (responseStream (xs.drop k)).length := by
  simp only [responseStream, List.map_take, List.map_drop]
  exact length_streamOf _ k

theorem answerStream_answers (flow : FlowId) (xs : List RoundTrip) :
    answerStream (xs.map (RoundTrip.answer flow)) = responseStream xs := by
  rw [answerStream, List.map_map]
  rfl

/-- The pieces bring the requests and the responses of the round trips, as far as they go, and no
    byte of a response comes before its request is there. -/
structure Dialogue (xs : List RoundTrip) (pieces : List Piece) : Prop where
  requests : sent .request pieces <+: requestStream xs
  responses : sent .response pieces <+: responseStream xs
  turns : ∀ k ≤ pieces.length, ∀ i < xs.length,
    (responseStream (xs.take i)).length < (sent .response (pieces.take k)).length →
      (requestStream (xs.take (i + 1))).length ≤ (sent .request (pieces.take k)).length

instance {xs : List RoundTrip} {pieces : List Piece} : Decidable (Dialogue xs pieces) :=
  decidable_of_iff (sent .request pieces <+: requestStream xs ∧
      sent .response pieces <+: responseStream xs ∧
      ∀ k ≤ pieces.length, ∀ i < xs.length,
        (responseStream (xs.take i)).length < (sent .response (pieces.take k)).length →
          (requestStream (xs.take (i + 1))).length ≤ (sent .request (pieces.take k)).length)
    ⟨fun h => ⟨h.1, h.2.1, h.2.2⟩, fun h => ⟨h.requests, h.responses, h.turns⟩⟩

/-- The turns of a dialogue, told by the bytes that are still to come: where a byte of a response is
    there, its request is. -/
def InStep (requests responses : Bytes) (xs : List RoundTrip) : Prop :=
  ∀ i, responses.length < (responseStream (xs.drop i)).length →
    requests.length ≤ (requestStream (xs.drop (i + 1))).length

theorem InStep.drop {requests responses : Bytes} {done later : List RoundTrip}
    (h : InStep requests responses (done ++ later)) : InStep requests responses later := by
  intro i hi
  have hstep := h (done.length + i)
  rw [Nat.add_assoc, List.drop_length_add_append, List.drop_length_add_append] at hstep
  exact hstep hi

/-- **What is in step so far is in step** with what is still to come. -/
theorem Dialogue.inStep {xs : List RoundTrip} {pieces : List Piece} (h : Dialogue xs pieces)
    {requests responses : Bytes} (hrequests : sent .request pieces ++ requests = requestStream xs)
    (hresponses : sent .response pieces ++ responses = responseStream xs) {k : Nat}
    (hk : k ≤ pieces.length) :
    InStep (sent .request (pieces.drop k) ++ requests) (sent .response (pieces.drop k) ++ responses)
      xs := by
  intro i hi
  have hlt : i < xs.length := by
    by_contra hge
    rw [List.drop_eq_nil_of_le (Nat.le_of_not_lt hge)] at hi
    exact Nat.not_lt_zero _ hi
  have hturn := h.turns k hk i hlt
  -- both sides of the streams, in front of the piece and behind it
  have hasked := congrArg List.length hrequests
  have hanswered := congrArg List.length hresponses
  rw [← List.take_append_drop k pieces, sent_append, List.append_assoc, List.length_append]
    at hasked hanswered
  have hrequest := length_requestStream xs (i + 1)
  have hresponse := length_responseStream xs i
  omega

end Engine

/-! ## 2. Between two pieces -/

namespace Stream.Buffers

variable {flow : FlowId} {side other : Side} {s : Buffers}

theorem buffer_receive_other (h : side ≠ other) (answersHead : Nat → Bool) (bs : Bytes) :
    (s.receive flow other answersHead bs).2.buffer flow side = s.buffer flow side := by
  have hkey : (flow, side) ≠ (flow, other) := fun he => h (congrArg Prod.snd he)
  rw [buffer, find?_receive_other hkey]
  rfl

/-- What comes on the other side is not expected here. -/
theorem Expects.receive_other {rest : Bytes} {messages : List Message}
    (hs : s.Expects flow side rest messages) (h : side ≠ other) (answersHead : Nat → Bool)
    (bs : Bytes) : (s.receive flow other answersHead bs).2.Expects flow side rest messages := by
  have hkey : (flow, side) ≠ (flow, other) := fun he => h (congrArg Prod.snd he)
  rw [Expects, buffer_receive_other h, find?_receive_other hkey]
  exact hs

end Stream.Buffers

namespace Engine

variable {W : Type}

/-- What is kept of a flow before the rest of its requests and responses: those `held` wait for
    their responses, and the requests of those `coming` are still to come. -/
structure Between (flow : FlowId) (requests responses : Bytes) (held coming : List RoundTrip)
    (s : State W) : Prop where
  request : s.buffers.Expects flow .request requests (coming.map RoundTrip.request)
  response : (s.buffers.buffer flow .response).Awaits s.buffers.limit responses
    ((held ++ coming).map (RoundTrip.answer flow))
  queue : List.Forall₂ (RoundTrip.Asks flow) held (s.pending.queue flow)

section Pieces

variable {backend : Backend W} {fit : W → Prop} {flow : FlowId} {s : State W}
  {requests responses bytes : Bytes} {held coming xs : List RoundTrip}

/-- On a fresh flow all round trips are still to come. -/
theorem between_new (hnew : ∀ side, s.buffers.table.find? (flow, side) = none)
    (hidle : s.pending.queue flow = []) (hproper : ∀ x ∈ xs, x.Proper flow s.buffers.limit) :
    Between flow (requestStream xs) (responseStream xs) [] xs s where
  request := Buffers.expects_new (hnew .request)
    (List.forall_mem_map.mpr fun x hx => (hproper x hx).request)
  response := by
    have hbuffer : s.buffers.buffer flow .response = Buffer.empty := by
      rw [Buffers.buffer, hnew]
      rfl
    rw [hbuffer, List.nil_append, ← answerStream_answers flow]
    refine .waiting Accumulator.searched_empty rfl ⟨rfl, fun m hm => ?_⟩
    rw [List.map_map] at hm
    obtain ⟨x, hx, rfl⟩ := List.mem_map.mp (List.mem_of_mem_head? hm)
    exact Nat.lt_of_lt_of_le (by decide) (length_raw_of_response (hproper x hx).answer.complete)
  queue := by
    rw [hidle]
    exact .nil

/-- **A response that arrived as a whole is not waited for.** -/
theorem Between.arrived (h : Between flow requests responses held coming s)
    (hwhole : ∀ x ∈ held ++ coming, (x.answer flow).Whole) {k : Nat}
    (hk : k ≤ (held ++ coming).length)
    (hrest : responses.length ≤ (responseStream ((held ++ coming).drop k)).length) : k = 0 := by
  refine h.response.arrived (List.forall_mem_map.mpr hwhole) (by rwa [List.length_map]) ?_
  rwa [← List.map_drop, answerStream_answers]

theorem begun_answers {i : Nat} {es : List RoundTrip} :
    Begun responses ((es.map (RoundTrip.answer flow)).drop i) ↔
      responses.length < (responseStream (es.drop i)).length := by
  rw [Begun, ← List.map_drop, answerStream_answers]

/-- **A response that has begun is that of a request that waits.** -/
theorem Between.begun (h : Between flow requests responses held coming s) {responses' : Bytes}
    (hsteps : InStep requests responses' (held ++ coming)) {i : Nat}
    (hi : Begun responses' (((held ++ coming).map (RoundTrip.answer flow)).drop i)) :
    i < held.length := by
  rw [begun_answers] at hi
  have hstep := hsteps i hi
  by_contra hge
  have hlt : i < held.length + coming.length := by
    by_contra hover
    rw [List.drop_eq_nil_of_le (by rw [List.length_append]; omega)] at hi
    exact Nat.not_lt_zero _ hi
  obtain ⟨n, hn⟩ : ∃ n, i + 1 = held.length + (n + 1) := ⟨i - held.length, by omega⟩
  rw [hn, List.drop_length_add_append, requestStream, List.map_drop] at hstep
  exact Nat.succ_ne_zero n (h.request.1.arrived (by rw [List.length_map]; omega) hstep)

/-- **The engine knows of each response that has begun whether it answers a HEAD request.** -/
theorem Between.informed (h : Between flow requests responses held coming s) {responses' : Bytes}
    (hsteps : InStep requests responses' (held ++ coming)) :
    Informed (fun n => s.pending.isHeadAt flow n) responses'
      ((held ++ coming).map (RoundTrip.answer flow)) := by
  intro i e he hi
  have hlt := h.begun hsteps hi
  have hx : (held ++ coming)[i]? = some held[i] := by
    rw [List.getElem?_append_left hlt, List.getElem?_eq_getElem hlt]
  rw [List.getElem?_map, hx] at he
  obtain rfl : (held[i]).answer flow = e := Option.some.inj he
  have hlength := h.queue.length_eq
  have hasks := h.queue.get hlt (hlength ▸ hlt)
  simp only [Pending.isHeadAt_eq, List.getElem?_eq_getElem (hlength ▸ hlt), Option.any_some]
  exact hasks.isHead

/-! ## 3. One piece -/

/-- **Requests that arrive wait behind those that do.** -/
theorem Between.asked (hb : backend.Calm fit) (hw : fit s.world) (now : Time.Moment)
    (snapshot : Option Text) (h : Between flow (bytes ++ requests) responses held coming s)
    (hcoming : ∀ x ∈ coming, x.Proper flow s.buffers.limit)
    (hmoves : ∀ m ∈ s.moves backend now flow (.bytes flow .request bytes snapshot),
      m.disturbs = false) :
    ∃ done later, coming = done ++ later ∧
      Between flow requests responses (held ++ done) later
        (s.onBytes backend now flow .request bytes snapshot).2 ∧
      (s.onBytes backend now flow .request bytes snapshot).2.published = s.published := by
  have hbuffers := State.buffers_onBytes backend now flow .request bytes snapshot s
  have hframed : s.framed flow .request bytes =
      s.buffers.receive flow .request (fun _ => false) bytes :=
    Buffers.receive_request flow _ _ bytes s.buffers
  obtain ⟨messages, laterMessages, hsplit, hreports, hexpects⟩ := h.request.receive
    (List.forall_mem_map.mpr fun x hx => (hcoming x hx).request)
  obtain ⟨done, later, rfl, rfl, rfl⟩ := List.map_eq_append_iff.mp hsplit
  rw [← hframed] at hreports hexpects
  rw [State.moves, if_pos rfl] at hmoves
  have hcalm := State.callActs_calm now flow .request snapshot hb hw bytes
  obtain ⟨hqueue, hpublished⟩ := (State.handlesAll_onBytes backend now flow .request snapshot s
      bytes).waits hcalm (List.forall₂_map_left_iff.mp hreports)
    (fun x hx => (hcoming x (List.mem_append_left later hx)).usable) h.queue hmoves
  refine ⟨done, later, rfl, ⟨?_, ?_, hqueue⟩, hpublished⟩
  · rw [hbuffers]
    exact hexpects
  · rw [hbuffers, hframed, Buffers.buffer_receive_other (by decide), Buffers.limit_receive,
      List.append_assoc]
    exact h.response

/-- **Responses that arrive take their requests.** -/
theorem Between.answered (hb : backend.Calm fit) (hw : fit s.world) (now : Time.Moment)
    (snapshot : Option Text) (h : Between flow requests (bytes ++ responses) held coming s)
    (hproper : ∀ x ∈ held ++ coming, x.Proper flow s.buffers.limit)
    (hrec : Recoverables s.buffers.limit ((held ++ coming).map (RoundTrip.answer flow)))
    (hsteps : InStep requests responses (held ++ coming)) :
    ∃ done later groups, held = done ++ later ∧
      Between flow requests responses later coming
        (s.onBytes backend now flow .response bytes snapshot).2 ∧
      (s.onBytes backend now flow .response bytes snapshot).2.published =
        s.published ++ List.flatten groups ∧
      List.Forall₂ (fun x es => ∀ e ∈ es, x.Told flow e) done groups := by
  have hbuffers := State.buffers_onBytes backend now flow .response bytes snapshot s
  obtain ⟨ended, others, hsplit, hyields, hawaits, hbegun⟩ := Buffers.awaits_receive h.response
    (List.forall_mem_map.mpr fun x hx => (hproper x hx).answer) hrec (h.informed hsteps)
  -- only responses of requests that wait have ended
  have hle : ended.length ≤ held.length := by
    by_contra hgt
    exact Nat.lt_irrefl _ (h.begun hsteps (hbegun held.length (Nat.lt_of_not_le hgt)))
  obtain ⟨done, rest, hall, rfl, hothers⟩ := List.map_eq_append_iff.mp hsplit
  rw [List.length_map] at hle
  obtain ⟨later, rfl⟩ : done <+: held :=
    List.prefix_of_prefix_length_le ⟨rest, hall.symm⟩ (List.prefix_append held coming) hle
  obtain rfl : later ++ coming = rest := by
    rw [List.append_assoc] at hall
    exact List.append_cancel_left hall
  rw [List.forall₂_map_left_iff] at hyields
  have hcalm := State.callActs_calm now flow .response snapshot hb hw bytes
  obtain ⟨groups, hpublished, htold, hqueue⟩ := (State.handlesAll_onBytes backend now flow
      .response snapshot s bytes).joins hcalm hyields
    (fun x hx => (hproper x (List.mem_append_left _ (List.mem_append_left _ hx))).answer) h.queue
  refine ⟨done, later, groups, rfl, ⟨?_, ?_, hqueue⟩, hpublished, htold⟩
  · rw [hbuffers, State.framed]
    exact h.request.receive_other (by decide) _ _
  · rw [hbuffers, State.framed, Buffers.limit_receive, hothers]
    exact hawaits

/-- **A piece of either side** takes some round trips to their ends. -/
theorem Between.piece (hb : backend.Calm fit) (hw : fit s.world) (p : Piece)
    (h : Between flow (sent .request [p] ++ requests) (sent .response [p] ++ responses) held coming
      s)
    (hproper : ∀ x ∈ held ++ coming, x.Proper flow s.buffers.limit)
    (hrec : Recoverables s.buffers.limit ((held ++ coming).map (RoundTrip.answer flow)))
    (hsteps : InStep requests responses (held ++ coming))
    (hmoves : ∀ m ∈ s.moves backend p.now flow (p.ingress flow), m.disturbs = false) :
    ∃ done held' coming' groups, held ++ coming = done ++ (held' ++ coming') ∧
      Between flow requests responses held' coming' (s.ingress backend p.now (p.ingress flow)).2 ∧
      (s.ingress backend p.now (p.ingress flow)).2.published =
        s.published ++ List.flatten groups ∧
      List.Forall₂ (fun x es => ∀ e ∈ es, x.Told flow e) done groups := by
  obtain ⟨now, side, bytes, snapshot⟩ := p
  cases side with
  | request =>
    simp only [sent_singleton, reduceCtorEq, if_true, if_false, List.nil_append] at h
    obtain ⟨done, later, rfl, hafter, hpublished⟩ := h.asked hb hw now snapshot
      (fun x hx => hproper x (List.mem_append_right held hx)) hmoves
    exact ⟨[], held ++ done, later, [], (List.append_assoc ..).symm, hafter,
      hpublished.trans (List.append_nil _).symm, .nil⟩
  | response =>
    simp only [sent_singleton, reduceCtorEq, if_true, if_false, List.nil_append] at h
    obtain ⟨done, later, groups, rfl, hafter, hpublished, htold⟩ :=
      h.answered hb hw now snapshot hproper hrec hsteps
    exact ⟨done, later, coming, groups, List.append_assoc .., hafter, hpublished, htold⟩

/-! ## 4. A run -/

/-- Takes in the pieces that cross a flow, one after the other. -/
def State.observe (backend : Backend W) (flow : FlowId) : List Piece → State W → State W
  | [], s => s
  | p :: pieces, s => observe backend flow pieces (s.ingress backend p.now (p.ingress flow)).2

/-- What happens to the requests of the flow meanwhile. -/
def State.observedMoves (backend : Backend W) (flow : FlowId) : List Piece → State W → List Move
  | [], _ => []
  | p :: pieces, s =>
    s.moves backend p.now flow (p.ingress flow) ++
      observedMoves backend flow pieces (s.ingress backend p.now (p.ingress flow)).2

/-- **Pieces take round trips to their ends in their order.** -/
theorem Between.observe {limit : Nat} {pieces : List Piece} (hb : backend.Calm fit)
    (hs : Reachable backend fit s) (hlimit : s.buffers.limit = limit)
    (h : Between flow (sent .request pieces ++ requests) (sent .response pieces ++ responses) held
      coming s)
    (hproper : ∀ x ∈ held ++ coming, x.Proper flow limit)
    (hrec : Recoverables limit ((held ++ coming).map (RoundTrip.answer flow)))
    (hsteps : ∀ k ≤ pieces.length, InStep (sent .request (pieces.drop k) ++ requests)
      (sent .response (pieces.drop k) ++ responses) (held ++ coming))
    (hmoves : ∀ m ∈ s.observedMoves backend flow pieces, m.disturbs = false) :
    ∃ done held' coming' groups, held ++ coming = done ++ (held' ++ coming') ∧
      Between flow requests responses held' coming' (s.observe backend flow pieces) ∧
      (s.observe backend flow pieces).published = s.published ++ List.flatten groups ∧
      List.Forall₂ (fun x es => ∀ e ∈ es, x.Told flow e) done groups := by
  induction pieces generalizing s held coming with
  | nil => exact ⟨[], held, coming, [], rfl, h, (List.append_nil _).symm, .nil⟩
  | cons p pieces ih =>
    rw [← List.singleton_append, sent_append, sent_append, List.append_assoc, List.append_assoc]
      at h
    subst hlimit
    obtain ⟨done, held', coming', groups, hall, hafter, hpublished, htold⟩ := h.piece hb
      (hs.fit_world hb.toKeeps) p hproper hrec (hsteps 1 (Nat.succ_pos _)) fun m hm =>
        hmoves m (List.mem_append_left _ hm)
    rw [hall] at hproper hrec hsteps
    rw [List.map_append] at hrec
    have hsame : (s.ingress backend p.now (p.ingress flow)).2.buffers.limit = s.buffers.limit := by
      rw [Piece.ingress, State.ingress, State.buffers_onBytes]
      exact Buffers.limit_receive ..
    obtain ⟨more, held'', coming'', groups', hrest, hlast, hpublished', htold'⟩ := ih
      (hs.ingress p.now (p.ingress flow)) hsame hafter
      (fun x hx => hproper x (List.mem_append_right done hx)) hrec.append_right
      (fun k hk => (hsteps (k + 1) (Nat.succ_le_succ hk)).drop) fun m hm =>
        hmoves m (List.mem_append_right _ hm)
    refine ⟨done ++ more, held'', coming'', groups ++ groups', ?_, hlast, ?_,
      List.rel_append htold htold'⟩
    · rw [hall, hrest, List.append_assoc]
    · rw [State.observe, hpublished', hpublished, List.flatten_append, List.append_assoc]

end Pieces

/-- **Responses meet their requests.** On a fresh flow, in every state of a run with a source that
    does not break off: while the pieces of a dialogue are observed, whatever the fragments, and
    nobody is blocked or given up, the events tell of the round trips, one after the other, each of
    a request together with the response that answers it, and every response that arrived as a whole
    has been joined. -/
theorem State.observe_correlates {backend : Backend W} {fit : W → Prop} {flow : FlowId}
    {s : State W} {xs : List RoundTrip} {pieces : List Piece} (hb : backend.Calm fit)
    (hs : Reachable backend fit s) (hnew : ∀ side, s.buffers.table.find? (flow, side) = none)
    (hidle : s.pending.queue flow = [])
    (hproper : ∀ x ∈ xs, x.Proper flow s.config.maxBufferBytes)
    (hrec : Recoverables s.config.maxBufferBytes (xs.map (RoundTrip.answer flow)))
    (hdialogue : Dialogue xs pieces)
    (hmoves : ∀ m ∈ s.observedMoves backend flow pieces, m.disturbs = false) :
    ∃ groups, (s.observe backend flow pieces).published = s.published ++ List.flatten groups ∧
      List.Forall₂ (fun x es => ∀ e ∈ es, x.Told flow e) (xs.take groups.length) groups ∧
      ∀ k ≤ xs.length, (responseStream (xs.take k)).length ≤ (sent .response pieces).length →
        k ≤ groups.length := by
  obtain ⟨requests, hrequests⟩ := hdialogue.requests
  obtain ⟨responses, hresponses⟩ := hdialogue.responses
  rw [← hs.limit] at hproper hrec
  have hstart := between_new hnew hidle hproper
  rw [← hrequests, ← hresponses] at hstart
  obtain ⟨done, held, coming, groups, hall, hafter, hpublished, htold⟩ := hstart.observe hb hs rfl
    hproper hrec (fun k hk => hdialogue.inStep hrequests hresponses hk) hmoves
  rw [List.nil_append] at hall
  have hlength := htold.length_eq
  have htake : xs.take groups.length = done := by rw [← hlength, hall, List.take_left]
  refine ⟨groups, hpublished, htake ▸ htold, fun k hk harrived => ?_⟩
  by_contra hlt
  -- what is still to come begins with a response that arrived
  obtain ⟨n, hn⟩ : ∃ n, k = done.length + (n + 1) := ⟨k - done.length - 1, by omega⟩
  have hbehind : xs.drop k = (held ++ coming).drop (n + 1) := by
    rw [hall, hn, List.drop_length_add_append]
  have hstream := congrArg List.length hresponses
  have hsplit := length_responseStream xs k
  have hcount := congrArg List.length hall
  rw [List.length_append] at hstream hcount
  rw [hbehind] at hsplit
  refine Nat.add_one_ne_zero n (hafter.arrived (fun x hx => (hproper x ?_).answer) (by omega)
    (by omega))
  rw [hall]
  exact List.mem_append_right done hx

/-- A message of a head and what follows it. -/
def messageOf (side : Side) (head behind : String) (body : Option String) (status : Option Nat) :
    Message :=
  { side, raw := Utf8.encode (head ++ "\r\n\r\n" ++ behind).toList, head := head.toList,
    body := body.map fun b => Utf8.encode b.toList, status }

/-- A request for a path and a response with a code. -/
def tripOf (path : String) (code : Nat) : RoundTrip :=
  { request := messageOf .request ("GET " ++ path ++ " HTTP/1.1\r\nHost: h") "" none none,
    response := messageOf .response ("HTTP/1.1 " ++ toString code ++ " X") "" none (some code) }

/-- Requests of round trips, cut once, and behind them the responses, cut once. -/
def cutAt (n m : Nat) (xs : List RoundTrip) : List Piece :=
  let piece side bytes : Piece := { now := ⟨⟨0, 0⟩, 0⟩, side, bytes, snapshot := none }
  [piece .request ((requestStream xs).take n), piece .request ((requestStream xs).drop n),
    piece .response ((responseStream xs).take m), piece .response ((responseStream xs).drop m)]

/-- A HEAD request, with a response that tells a length, in front of another request. -/
def headFirst : List RoundTrip :=
  [{ request := messageOf .request "HEAD /a HTTP/1.1\r\nHost: h" "" none none,
     response := messageOf .response "HTTP/1.1 200 OK\r\nContent-Length: 5" "" none (some 200) },
    tripOf "/b" 404]

/-- Both requests, cut in the first, and both responses, cut in the second. -/
theorem observe_correlates_head_first :
    ∃ s, State.start? Config.defaults (Book.empty, Shelf.empty) = some s ∧
      ∃ groups, (s.observe memory ⟨7, false⟩ (cutAt 10 45 headFirst)).published =
          s.published ++ List.flatten groups ∧
        List.Forall₂ (fun x es => ∀ e ∈ es, x.Told ⟨7, false⟩ e) headFirst groups := by
  obtain ⟨s, hs⟩ : ∃ s, State.start? Config.defaults (Book.empty, Shelf.empty) = some s := ⟨_, rfl⟩
  have hreach : Reachable memory (fun _ => True) s := .start Config.validate_defaults trivial hs
  have hfacts : (State.start? Config.defaults (Book.empty, Shelf.empty)).all (fun s =>
      decide (∀ m ∈ s.observedMoves memory ⟨7, false⟩ (cutAt 10 45 headFirst),
        m.disturbs = false)) = true := by
    decide +kernel
  rw [hs] at hfacts
  have hmoves := of_decide_eq_true hfacts
  obtain ⟨hnew, hidle, hconfig⟩ : (∀ side, s.buffers.table.find? (⟨7, false⟩, side) = none) ∧
      s.pending.queue ⟨7, false⟩ = [] ∧ s.config = Config.defaults := by
    obtain ⟨_, _, rfl⟩ := Option.map_eq_some_iff.mp hs
    exact ⟨fun _ => rfl, rfl, rfl⟩
  have husable : ∀ x ∈ headFirst, (Request.ofMessage ⟨7, false⟩ x.request).isOk = true := by
    decide +kernel
  have hproper : ∀ x ∈ headFirst, x.Proper ⟨7, false⟩ s.config.maxBufferBytes := by
    rw [hconfig]
    intro x hx
    have hok : ∃ r, Request.ofMessage ⟨7, false⟩ x.request = .ok r := by
      have hx' := husable x hx
      cases h : Request.ofMessage ⟨7, false⟩ x.request with
      | error flaw => rw [h] at hx'; cases hx'
      | ok r => exact ⟨r, rfl⟩
    rcases List.mem_pair.mp hx with rfl | rfl
    · exact ⟨⟨by decide +kernel, nofun, by decide +kernel, by decide +kernel⟩, hok,
        by decide +kernel, by decide +kernel⟩
    · exact ⟨⟨by decide +kernel, nofun, by decide +kernel, by decide +kernel⟩, hok,
        by decide +kernel, by decide +kernel⟩
  have hrec : Recoverables s.config.maxBufferBytes
      (headFirst.map (RoundTrip.answer ⟨7, false⟩)) := by
    rw [hconfig]
    exact ⟨.fits (by decide +kernel), .fits (by decide +kernel), trivial⟩
  obtain ⟨groups, hpublished, htold, hall⟩ := State.observe_correlates calm_memory hreach hnew hidle
    hproper hrec (by decide +kernel) hmoves
  have htwo := hall headFirst.length (Nat.le_refl _) (by decide +kernel)
  rw [List.take_of_length_le htwo] at htold
  exact ⟨s, hs, groups, hpublished, htold⟩

/-! ## 5. Out of step -/

namespace RoundTrip

variable {flow : FlowId} {x : RoundTrip} {e : Event}

/-- The request is one, and the response begins with the head of a final one. -/
def Plain (x : RoundTrip) : Prop :=
  carve x.request.raw .request = .complete x.request ∧
    (findTerminator? x.response.raw 0).map (headAt x.response.raw .response) =
      some x.response.head ∧
    Head.status .response x.response.startLine = .ok x.response.status ∧
    x.response.isFinal = true

instance : Decidable x.Plain := inferInstanceAs (Decidable (_ ∧ _ ∧ _ ∧ _))

/-- Whether the URL and the code of an event are those of the round trip. -/
def accords (flow : FlowId) (x : RoundTrip) (e : Event) : Bool :=
  (Request.ofMessage flow x.request).toOption.any (fun r => r.url = e.url) &&
    (Response.ofMessage x.response).toOption.any (fun r => some r.status = e.status)

/-- **An event of the round trip with a response has its URL and its code.** -/
theorem Told.accords (h : x.Told flow e) (he : e.status.isSome = true) :
    x.accords flow e = true := by
  obtain ⟨request, response, matched, ⟨_, _, _, _, rfl, _⟩, hasks, hanswers⟩ := h
  obtain ⟨full, body, snapshot, hfull, rfl⟩ := hasks
  obtain ⟨code, hcode⟩ := Option.isSome_iff_exists.mp he
  obtain ⟨r, hr, -⟩ := Option.map_eq_some_iff.mp hcode
  obtain ⟨whole, body', hwhole, rfl⟩ := hanswers r hr
  rw [RoundTrip.accords, hfull, hwhole, hr]
  simp [Event.of, Except.toOption]

end RoundTrip

/-- A dialogue on a new engine without rules, in which an event tells of a response together with a
    request that it does not answer. -/
def Shifts (config : Config) (n m : Nat) (xs : List RoundTrip) : Prop :=
  config.validate = .ok config ∧ (∀ x ∈ xs, x.Plain) ∧ Dialogue xs (cutAt n m xs) ∧
    ∃ s, State.start? config (Book.empty, Shelf.empty) = some s ∧
      ∃ e ∈ (s.observe memory ⟨7, false⟩ (cutAt n m xs)).published, e.status.isSome = true ∧
        (∃ x ∈ xs, x.response.status = e.status) ∧ ∀ x ∈ xs, ¬ x.Told ⟨7, false⟩ e

theorem shifts_of_run {config : Config} {n m : Nat} {xs : List RoundTrip}
    (hplain : config.validate = .ok config ∧ (∀ x ∈ xs, x.Plain) ∧ Dialogue xs (cutAt n m xs))
    (hrun : ((State.start? config (Book.empty, Shelf.empty)).any fun s =>
      (s.observe memory ⟨7, false⟩ (cutAt n m xs)).published.any fun e =>
        (e.status.isSome && xs.any fun x => x.response.status = e.status) &&
          xs.all fun x => !x.accords ⟨7, false⟩ e) = true) :
    Shifts config n m xs := by
  obtain ⟨hconfig, hxs, hdialogue⟩ := hplain
  obtain ⟨s, hs, hevents⟩ := (Option.any_eq_true _ _).mp hrun
  obtain ⟨e, he, hshifted⟩ := List.any_eq_true.mp hevents
  simp only [Bool.and_eq_true, List.all_eq_true, List.any_eq_true, decide_eq_true_eq] at hshifted
  obtain ⟨⟨hstatus, hanswer⟩, hnone⟩ := hshifted
  refine ⟨hconfig, hxs, hdialogue, s, hs, e, he, hstatus, hanswer, fun x hx htold => ?_⟩
  have hnot := hnone x hx
  rw [htold.accords hstatus] at hnot
  cases hnot

/-- A request without a host. -/
def hostless : Message := messageOf .request "GET /a HTTP/1.1" "" none none

/-- A response with chunks. -/
def chunked (behind : String) (body : Option String) : Message :=
  messageOf .response "HTTP/1.1 200 OK\r\nTransfer-Encoding: chunked" behind body (some 200)

/-- A chunk without its end. -/
def misframed : Message := chunked "1\r\naXX" none

/-- A response with another one in its body. -/
def nested : Message :=
  chunked "28\r\nxxxxxxxxxxxxxxxxxxxx\r\nHTTP/1.1 500 X\r\n\r\n\r\n0\r\n\r\n"
    (some "xxxxxxxxxxxxxxxxxxxx\r\nHTTP/1.1 500 X\r\n\r\n")

/-- **What puts requests and responses out of step**: a request that is given up for a later one,
    one that cannot be used, one whose head outgrows the limit, a response that is misframed, and
    one that outgrows the limit with the start of another in its body. -/
theorem shifts_out_of_step :
    Shifts { Config.defaults with maxPendingPerFlow := 1 } 0 0 [tripOf "/a" 200, tripOf "/b" 404] ∧
    Shifts Config.defaults 0 0 [{ tripOf "/a" 200 with request := hostless }, tripOf "/b" 404] ∧
    Shifts { Config.defaults with maxBufferBytes := 40 } 41 0
      [tripOf "/aaaaaaaaaaaaaaaaaaaaaaaaaaaaaaaaaaaaaaaa" 200, tripOf "/b" 404] ∧
    Shifts Config.defaults 0 0 [{ tripOf "/a" 200 with response := misframed }, tripOf "/b" 404] ∧
    Shifts { Config.defaults with maxBufferBytes := 60 } 0 68
      [{ tripOf "/a" 200 with response := nested }, tripOf "/b" 404, tripOf "/c" 410] := by
  refine ⟨?_, ?_, ?_, ?_, ?_⟩
  all_goals exact shifts_of_run (by decide +kernel) (by decide +kernel)

end Engine

end TrafficGate
