import TrafficGate.Proofs.InterruptedCalls
import TrafficGate.Proofs.Moments
/-!
  # From the wire to the verdict

  A verdict is about an exchange that was framed, a call that was reported or a name that was
  resolved, and what it has of a body stands for the payload of that. What is invariant: the requests
  that wait came with entries that carry their payloads, the bytes of each entry stand in the stream of
  its flow and side, the entries that are left answer the requests that still wait, and the bodies of
  every verdict published so far stand for their payloads on the shelf as it is now.

  1. `Origin` -- what a verdict is about, and the payloads there;
  2. `Faithful` -- a verdict whose bodies stand for the payloads of an origin;
  3. `Gives` -- the request and the response of an origin, as they are dispatched;
  4. `Held` and `InTurn` -- the invariant, and what an entry reports;
  5. every step and every run.

  Main facts: **`faithful_publish`**, **`State.Handles.reports`**, **`Moment.InTurn.handle`**,
  **`Moment.Sound.handle`**, **`Step.sound`** and **`Leads.bodies_faithful`**.
-/

namespace TrafficGate.Engine

open Http TrafficGate.Stream Exchange Rule Verdict

variable {R : Type}

/-! ## 1. Origins -/

/-- What a verdict is about: an exchange, answered or not, a call or a resolved name. -/
inductive Origin where
  | exchange (flow : FlowId) (snapshot : Option Text) (asked : Framed) (answered : Option Framed)
  | call (call : State.Call)
  | resolution (host : Text) (addresses : List Text) (snapshot : Option Text)

/-- An entry that was handled, the bytes of which stand in the stream of its flow and side in one
    piece. -/
structure FromWire (seen : List Sight) (flow : FlowId) (side : Side) (snapshot : Option Text)
    (f : Framed) : Prop where
  handled : Sight.framed flow side snapshot f ∈ seen
  inStream : ∀ m, f.message? = some m → m.raw <:+: stream seen flow side

/-- Streams go on. -/
theorem prefix_stream {seen more : List Sight} (h : seen <+: more) (flow : FlowId) (side : Side) :
    stream seen flow side <+: stream more flow side := by
  obtain ⟨new, rfl⟩ := h
  rw [stream_append]
  exact List.prefix_append _ _

theorem FromWire.mono {seen more : List Sight} (h : seen <+: more) {flow : FlowId} {side : Side}
    {snapshot : Option Text} {f : Framed} (hf : FromWire seen flow side snapshot f) :
    FromWire more flow side snapshot f where
  handled := h.subset hf.handled
  inStream m hm := (hf.inStream m hm).trans (prefix_stream h flow side).isInfix

namespace Origin

/-- An origin that was observed. -/
def SeenIn (seen : List Sight) : Origin → Prop
  | exchange flow snapshot asked answered =>
    FromWire seen flow .request snapshot asked ∧
      ∀ f ∈ answered, ∃ note, FromWire seen flow .response note f
  | call c => .call c ∈ seen
  | resolution host addresses snapshot => .resolution host addresses snapshot ∈ seen

theorem SeenIn.mono {seen more : List Sight} (hmore : seen <+: more) {o : Origin}
    (h : o.SeenIn seen) : o.SeenIn more := by
  cases o with
  | exchange flow snapshot asked answered =>
    obtain ⟨hasked, hanswered⟩ := h
    refine ⟨hasked.mono hmore, fun f hf => ?_⟩
    obtain ⟨note, hnote⟩ := hanswered f hf
    exact ⟨note, hnote.mono hmore⟩
  | call c => exact hmore.subset (show Sight.call c ∈ seen from h)
  | resolution host addresses snapshot =>
    exact hmore.subset (show Sight.resolution host addresses snapshot ∈ seen from h)

/-- An origin that is complete with what is observed last. -/
def EndsWith (new : List Sight) : Origin → Prop
  | exchange flow snapshot asked none => new = [.framed flow .request snapshot asked]
  | exchange flow _ _ (some f) => ∃ note, new = [.framed flow .response note f]
  | call c => new = [.call c]
  | resolution host addresses snapshot => new = [.resolution host addresses snapshot]

/-- The request of an origin, as it is decided. -/
def request? (config : Config) : Origin → Option Request
  | exchange flow snapshot asked _ => State.usable? config flow snapshot asked
  | call c => some (c.request config)
  | resolution host addresses snapshot =>
    some (State.resolution (Text.trim host) addresses snapshot)

/-- The response of an origin, as it is published. -/
def response? (config : Config) : Origin → Option Response
  | exchange _ _ _ answered => answered.bind (State.answer? config)
  | call c => c.response.map (State.trimResponse config)
  | resolution _ _ _ => none

/-- The payload of the request: as it was on the wire, or as it was handed over. -/
def RequestPayload (payload : Option Bytes) : Origin → Prop
  | exchange _ _ asked _ => asked.Carries false payload
  | call c => payload = c.requestBody
  | resolution _ _ _ => payload = none

/-- The payload of the response; none when there is no response, or the request was a HEAD
    request. -/
def ResponsePayload (config : Config) (payload : Option Bytes) : Origin → Prop
  | exchange flow snapshot asked (some f) =>
    f.Carries ((State.usable? config flow snapshot asked).any Request.isHead) payload
  | exchange _ _ _ none => payload = none
  | call c => payload = c.response.bind (·.body)
  | resolution _ _ _ => payload = none

/-- The declared type of the payload of the request. -/
def requestType? : Origin → Option Text
  | exchange _ _ asked _ => asked.message?.bind (·.field? "content-type".toList)
  | call c => c.requestContentType
  | resolution _ _ _ => none

/-- The media type of the payload of the response. -/
def responseType? : Origin → Option Text
  | exchange _ _ _ answered =>
    mediaType? (answered.bind fun f => f.message?.bind (·.field? "content-type".toList))
  | call c => mediaType? (c.response.bind (·.contentDescriptor))
  | resolution _ _ _ => none

end Origin

/-! ## 2. Faithful verdicts -/

/-- A verdict on an origin whose bodies stand for the payloads there. -/
structure Faithful (config : Config) (o : Origin) (shelf : Shelf) (e : Event) : Prop where
  told : ∃ request matched channel now, o.request? config = some request ∧
    e = Event.of request (o.response? config) matched e.requestBody e.responseBody channel now
  request : ∃ payload, o.RequestPayload payload ∧
    Stands config.collectRequestBody config.maxBodyBytes config.blobThresholdBytes payload
      (o.requestType?.getD Dispatcher.defaultMimeType) shelf e.requestBody
  response : ∃ payload, o.ResponsePayload config payload ∧
    Stands config.collectResponseBody config.maxBodyBytes config.blobThresholdBytes payload
      (o.responseType?.getD Dispatcher.defaultMimeType) shelf e.responseBody

theorem Faithful.mono {config : Config} {o : Origin} {shelf shelf' : Shelf} {e : Event}
    (h : Faithful config o shelf e) (hs : shelf.Extends shelf') : Faithful config o shelf' e := by
  obtain ⟨p, hp, hrequest⟩ := h.request
  obtain ⟨q, hq, hresponse⟩ := h.response
  exact ⟨h.told, ⟨p, hp, hrequest.mono hs⟩, ⟨q, hq, hresponse.mono hs⟩⟩

/-! ## 3. Dispatching -/

/-- The request and the response of an origin, with what is collected of their payloads. -/
structure Origin.Gives (config : Config) (o : Origin) (request : Request)
    (response : Option Response) : Prop where
  asks : o.request? config = some request
  answers : o.response? config = response
  requestBody : ∃ payload, o.RequestPayload payload ∧
    request.body = collect payload config.collectRequestBody config.maxBodyBytes
  responseBody : ∃ payload, o.ResponsePayload config payload ∧
    response.bind (·.body) = collect payload config.collectResponseBody config.maxBodyBytes
  requestType : request.contentType = o.requestType?
  responseType : response.bind (·.mimeType?) = o.responseType?

/-- A request and an entry in which it came. -/
structure CameIn (config : Config) (flow : FlowId) (snapshot : Option Text) (f : Framed)
    (r : Request) : Prop where
  usable : State.usable? config flow snapshot f = some r
  carries : f.Carries false f.body?

section Giving

variable {config : Config} {flow : FlowId} {snapshot : Option Text} {f : Framed} {r : Request}

theorem CameIn.body (h : CameIn config flow snapshot f r) :
    r.body = collect f.body? config.collectRequestBody config.maxBodyBytes ∧
      r.contentType = f.message?.bind (·.field? "content-type".toList) := by
  obtain ⟨r', hr', rfl⟩ := Option.map_eq_some_iff.mp h.usable
  obtain ⟨m, hm, hmessage⟩ := Option.bind_eq_some_iff.mp hr'
  simp only [Framed.body?, hm, Option.bind_some]
  unfold Request.ofMessage at hmessage
  split at hmessage
  · cases hmessage
  · split at hmessage
    · cases hmessage
    · cases hmessage
      exact ⟨rfl, rfl⟩

/-- A request that is not answered. -/
theorem CameIn.gives (h : CameIn config flow snapshot f r) :
    (Origin.exchange flow snapshot f none).Gives config r none where
  asks := h.usable
  answers := rfl
  requestBody := ⟨f.body?, h.carries, h.body.1⟩
  responseBody := ⟨none, rfl, by cases config.collectResponseBody <;> rfl⟩
  requestType := h.body.2
  responseType := rfl

/-- **What is published of an answer**: what is collected of its payload, and its media type. -/
theorem answer?_body {g : Framed} (hends : g.endsExchange = true) (hg : g.IsOf .response) :
    (State.answer? config g).bind (·.body) =
        collect g.body? config.collectResponseBody config.maxBodyBytes ∧
      (State.answer? config g).bind (·.mimeType?) =
        mediaType? (g.message?.bind (·.field? "content-type".toList)) := by
  cases g with
  | lost n => exact ⟨by cases config.collectResponseBody <;> rfl, rfl⟩
  | message m | truncated m =>
    obtain ⟨line, hline, -⟩ := (hg m rfl).code
    have hresponse : Response.ofMessage m = .ok
        { status := line.code, statusMessage := line.reason, headers := m.fieldText,
          body := m.body, contentDescriptor := describeContent (m.field? "content-type".toList)
            (m.field? "content-encoding".toList) } := by
      rw [Response.ofMessage, hline]
    have htype := mimeType?_ofMessage hresponse
    simp only [State.answer?, Framed.response?, hresponse, Except.toOption, Option.map_some,
      Option.bind_some, Framed.body?, Framed.message?]
    exact ⟨rfl, htype⟩

/-- A request that is answered. -/
theorem CameIn.gives_answered (h : CameIn config flow snapshot f r) {g : Framed}
    (hends : g.endsExchange = true) (hg : g.IsOf .response)
    (hcarries : g.Carries r.isHead g.body?) :
    (Origin.exchange flow snapshot f (some g)).Gives config r (State.answer? config g) where
  asks := h.usable
  answers := rfl
  requestBody := ⟨f.body?, h.carries, h.body.1⟩
  responseBody := by
    refine ⟨g.body?, ?_, (answer?_body hends hg).1⟩
    rw [Origin.ResponsePayload, h.usable, Option.any_some]
    exact hcarries
  requestType := h.body.2
  responseType := (answer?_body hends hg).2

theorem gives_call (config : Config) (call : State.Call) :
    (Origin.call call).Gives config (call.request config)
      (call.response.map (State.trimResponse config)) where
  asks := rfl
  answers := rfl
  requestBody := ⟨call.requestBody, rfl, rfl⟩
  responseBody := by
    refine ⟨call.response.bind (·.body), rfl, ?_⟩
    cases call.response with
    | none => cases config.collectResponseBody <;> rfl
    | some response => rfl
  requestType := rfl
  responseType := by
    rw [Origin.responseType?]
    cases call.response with
    | none => rfl
    | some response => rfl

theorem gives_resolution (config : Config) (host : Text) (addresses : List Text)
    (snapshot : Option Text) :
    (Origin.resolution host addresses snapshot).Gives config
      (State.resolution (Text.trim host) addresses snapshot) none where
  asks := rfl
  answers := rfl
  requestBody := ⟨none, rfl, by cases config.collectRequestBody <;> rfl⟩
  responseBody := ⟨none, rfl, by cases config.collectResponseBody <;> rfl⟩
  requestType := rfl
  responseType := rfl

end Giving

/-- The threshold of a dispatcher stays as it is. -/
theorem threshold_firstSeen (r : Request) (d : Dispatcher) :
    (d.firstSeen r).2.threshold = d.threshold := by
  unfold Dispatcher.firstSeen
  split
  · rfl
  · split
    · rfl
    · unfold Dispatcher.note
      split <;> rfl

section Dispatching

variable (rules : Source R) {config : Config} {o : Origin} {request : Request}
  {response : Option Response}

omit rules in
/-- **What is published has bodies that stand for the payloads.** -/
theorem faithful_publish (hgives : o.Gives config request response) {d : Dispatcher}
    (hd : d.threshold = config.blobThresholdBytes) (now : Time.Timestamp) (matched : Option Rule)
    (w : R × Shelf) :
    ∀ e ∈ (d.publish (besideShelf R) now request response matched w).1,
      Faithful config o (d.publish (besideShelf R) now request response matched w).2.2 e := by
  obtain ⟨p, hp, hrequest⟩ := hgives.requestBody
  obtain ⟨q, hq, hresponse⟩ := hgives.responseBody
  have hasked := stands_bodyRef hrequest d request.contentType w
  unfold Dispatcher.publish
  cases hfirst : d.bodyRef (besideShelf R) request.body request.contentType w with
  | mk asked w₁ =>
    -- the body of the response is stored behind that of the request
    have hbehind := extends_bodyRef d (response.bind (·.body)) (response.bind (·.mimeType?)) w₁
    have hanswered := stands_bodyRef hresponse d (response.bind (·.mimeType?)) w₁
    simp only []
    cases hsecond : d.bodyRef (besideShelf R) (response.bind (·.body))
        (response.bind (·.mimeType?)) w₁ with
    | mk answered w₂ =>
      rw [hsecond] at hbehind hanswered
      rw [hfirst] at hasked
      have hlater := hasked.mono hbehind
      rw [hd, hgives.requestType] at hlater
      rw [hd, hgives.responseType] at hanswered
      have hcopy (channel : Channel) : Faithful config o w₂.2
          (Event.of request response matched asked answered channel now) :=
        ⟨⟨request, matched, channel, now, hgives.asks, by rw [hgives.answers]; rfl⟩,
          ⟨p, hp, hlater⟩, ⟨q, hq, hanswered⟩⟩
      intro e he
      rcases List.mem_pair.mp he with rfl | rfl
      · exact hcopy _
      · exact hcopy _

/-- **What is dispatched is published in this way**, or not at all. -/
theorem faithful_dispatch (hgives : o.Gives config request response) (s : State (R × Shelf))
    (hthreshold : s.dispatcher.threshold = config.blobThresholdBytes) (now : Time.Moment)
    (matched : Option Rule) :
    ∃ events,
      (s.dispatch (shelved rules) now request response matched).2.published =
        s.published ++ events ∧
      ∀ e ∈ events, Faithful config o
        (s.dispatch (shelved rules) now request response matched).2.world.2 e := by
  have hkept := threshold_firstSeen request s.dispatcher
  unfold State.dispatch Dispatcher.dispatch
  cases hfirst : s.dispatcher.firstSeen request with
  | mk first d =>
    rw [hfirst] at hkept
    cases first with
    | false => exact ⟨[], rfl, List.forall_mem_nil _⟩
    | true => exact ⟨_, rfl, faithful_publish hgives (hkept.trans hthreshold) now.wall matched _⟩

/-- **A request that is judged is published in this way**, unless its look-up breaks off. -/
theorem faithful_judge (hgives : o.Gives config request response) {s : State (R × Shelf)}
    (hthreshold : s.dispatcher.threshold = config.blobThresholdBytes) (now : Time.Moment)
    (value : Text) :
    ∃ events,
      (s.judge (shelved rules) now request response value).2.published = s.published ++ events ∧
      ∀ e ∈ events, Faithful config o
        (s.judge (shelved rules) now request response value).2.world.2 e := by
  unfold State.judge
  cases hl : s.lookUp (shelved rules) now value with
  | mk found t =>
    obtain rfl : t = (s.lookUp (shelved rules) now value).2 := by rw [hl]
    cases found with
    | crashed => exact ⟨[], (List.append_nil _).symm, List.forall_mem_nil _⟩
    | done matched =>
      exact faithful_dispatch rules hgives (s.lookUp (shelved rules) now value).2 hthreshold now
        matched

end Dispatching

/-! ## 4. The invariant -/

/-- What holds of the state in every moment, with what was observed so far. -/
structure Held (config : Config) (seen : List Sight) (s : State (R × Shelf)) : Prop where
  config_eq : s.config = config
  searched : s.buffers.Searched
  trails : s.buffers.Trails (stream seen)
  threshold : s.dispatcher.threshold = config.blobThresholdBytes
  /-- Who waits came in an entry. -/
  waiting : ∀ flow, ∀ r ∈ s.pending.queue flow, ∃ snapshot f,
    FromWire seen flow .request snapshot f ∧ CameIn config flow snapshot f r
  published : ∀ e ∈ s.published, ∃ o : Origin, o.SeenIn seen ∧ Faithful config o s.world.2 e

/-- An entry as it is framed. -/
structure Entry.Sound (seen : List Sight) (e : Entry) : Prop where
  isOf : e.framed.IsOf e.side
  inStream : ∀ m, e.framed.message? = some m → m.raw <:+: stream seen e.flow e.side

/-- The entries that are left are of one flow and side, and carry their bodies when they answer the
    requests that still wait. -/
def Moment.InTurn (m : Moment R) : Prop :=
  ∃ flow side, (∀ e ∈ m.rest, e.flow = flow ∧ e.side = side) ∧
    CarryInTurn (Accumulator.flagAt side fun n => m.state.pending.isHeadAt flow n)
      (m.rest.map Entry.framed)

/-- What holds in every moment. -/
structure Moment.Sound (config : Config) (seen : List Sight) (m : Moment R) : Prop where
  state : Held config seen m.state
  rest : ∀ e ∈ m.rest, e.Sound seen
  inTurn : m.InTurn

/-- What is published behind an observation: faithful verdicts on origins that are complete with
    it. -/
def Reports (config : Config) (seen new : List Sight) (s t : State (R × Shelf)) : Prop :=
  ∃ events, t.published = s.published ++ events ∧ ∀ e ∈ events, ∃ o : Origin,
    o.SeenIn (seen ++ new) ∧ o.EndsWith new ∧ Faithful config o t.world.2 e

section Invariant

variable {rules : Source R} {config : Config} {seen more new : List Sight}
  {s t : State (R × Shelf)}
  {m m' : Moment R} {now : Time.Moment} {flow : FlowId} {side : Side} {snapshot : Option Text}
  {f : Framed} {a : State.Act}

theorem limits_change {backend : Backend (R × Shelf)} (h : State.Change backend s t) :
    t.config = s.config ∧ t.dispatcher.threshold = s.dispatcher.threshold := by
  cases h with
  | handling h =>
    refine ⟨h.frame.1, ?_⟩
    cases h with
    | dispatch now request response matched =>
      have hkept := threshold_firstSeen request s.dispatcher
      unfold State.dispatch Dispatcher.dispatch
      cases hfirst : s.dispatcher.firstSeen request with
      | mk first d =>
        rw [hfirst] at hkept
        cases first <;> exact hkept
    | lookUp | push | takeOldest => rfl
  | receive | close | clear => exact ⟨rfl, rfl⟩

theorem Entry.Sound.mono {e : Entry} (h : seen <+: more) (he : e.Sound seen) : e.Sound more where
  isOf := he.isOf
  inStream m hm := (he.inStream m hm).trans (prefix_stream h e.flow e.side).isInfix

/-- Nothing is published. -/
theorem reports_of_same (h : t.published = s.published) : Reports config seen new s t :=
  ⟨[], h.trans (List.append_nil _).symm, List.forall_mem_nil _⟩

/-- **The invariant behind changes**: it is left to say what the buffers hold, who waits and what is
    published. -/
theorem Held.after (h : Held config seen s) (hchanges : State.Changes (shelved rules) s t)
    (htrails : t.buffers.Trails (stream (seen ++ new)))
    (hwaiting : ∀ flow, ∀ r ∈ t.pending.queue flow, r ∈ s.pending.queue flow ∨ ∃ snapshot f,
      FromWire (seen ++ new) flow .request snapshot f ∧ CameIn config flow snapshot f r)
    (hreports : Reports config seen new s t) : Held config (seen ++ new) t := by
  have hmore : seen <+: seen ++ new := List.prefix_append _ _
  have hlimits : t.config = s.config ∧ t.dispatcher.threshold = s.dispatcher.threshold := by
    refine hchanges.keep (P := fun t => t.config = s.config ∧
      t.dispatcher.threshold = s.dispatcher.threshold) (fun hchange hs => ?_) ⟨rfl, rfl⟩
    obtain ⟨hconfig, hthreshold⟩ := limits_change hchange
    exact ⟨hconfig.trans hs.1, hthreshold.trans hs.2⟩
  refine
    { config_eq := hlimits.1.trans h.config_eq
      searched := hchanges.keep (P := fun t => t.buffers.Searched) searched_change h.searched
      trails := htrails
      threshold := hlimits.2.trans h.threshold
      waiting := fun flow r hr => ?waiting
      published := fun e he => ?published }
  case waiting =>
    rcases hwaiting flow r hr with hold | hnew
    · obtain ⟨snapshot, f, hf, hcame⟩ := h.waiting flow r hold
      exact ⟨snapshot, f, hf.mono hmore, hcame⟩
    · exact hnew
  case published =>
    obtain ⟨events, hevents, hfaithful⟩ := hreports
    rw [hevents] at he
    rcases List.mem_append.mp he with hold | hnew
    · obtain ⟨o, hseen, hold⟩ := h.published e hold
      exact ⟨o, hseen.mono hmore, hold.mono (grows_of_changes hchanges).shelf⟩
    · obtain ⟨o, hseen, -, hnew⟩ := hfaithful e hnew
      exact ⟨o, hseen, hnew⟩

/-- Buffers that are left alone hold the last bytes of streams that go on. -/
theorem trails_of_same (h : Held config seen s) (hbuffers : t.buffers = s.buffers)
    (hnew : ∀ flow side, stream new flow side = []) :
    t.buffers.Trails (stream (seen ++ new)) := by
  intro flow side
  rw [hbuffers, stream_append, hnew, List.append_nil]
  exact h.trails flow side

/-- Who waits behind an entry waited before it, or came in it. -/
theorem State.Handles.came {backend : Backend (R × Shelf)}
    (h : State.Handles backend now flow snapshot s f side a t) (hconfig : s.config = config)
    (hcarries : f.Carries (Accumulator.flagAt side (fun n => s.pending.isHeadAt flow n) 0) f.body?)
    {other : FlowId} {r : Request} (hr : r ∈ t.pending.queue other) :
    r ∈ s.pending.queue other ∨
      other = flow ∧ side = .request ∧ CameIn config flow snapshot f r := by
  by_cases ho : other = flow
  · subst ho
    rw [h.queue] at hr
    cases h with
    | unusable | announce | block | breakOff => exact .inl hr
    | unasked | conclude | breakOffOldest => exact .inl (List.mem_of_mem_tail hr)
    | wait husable =>
      rcases List.mem_append.mp hr with hold | hnew
      · unfold Pending.makeRoom at hold
        split at hold
        · exact .inl (List.mem_of_mem_tail hold)
        · exact .inl hold
      · obtain rfl := List.mem_singleton.mp hnew
        exact .inr ⟨rfl, rfl, hconfig ▸ husable, hcarries⟩
  · rw [h.queue_other ho] at hr
    exact .inl hr

/-- **An entry reports on the request in it**, or on the oldest that waits and the answer in it. -/
theorem State.Handles.reports (h : State.Handles (shelved rules) now flow snapshot s f side a t)
    (hs : Held config seen s) (hisOf : f.IsOf side)
    (hcarries : f.Carries (Accumulator.flagAt side (fun n => s.pending.isHeadAt flow n) 0) f.body?)
    (hf : FromWire (seen ++ [.framed flow side snapshot f]) flow side snapshot f) :
    Reports config seen [.framed flow side snapshot f] s t := by
  obtain rfl := hs.config_eq
  cases h with
  | unusable | announce | unasked => exact reports_of_same rfl
  | wait _ hl | breakOff _ hl | breakOffOldest _ _ hl =>
    have hsame := State.published_of_lookUp hl
    exact reports_of_same hsame
  | @block r rule t husable hl =>
    obtain rfl : t = (s.lookUp (shelved rules) now r.canonical).2 := by rw [hl]
    have hcame : CameIn s.config flow snapshot f r := ⟨husable, hcarries⟩
    obtain ⟨events, hevents, hfaithful⟩ := faithful_dispatch rules hcame.gives
      (s.lookUp (shelved rules) now r.canonical).2 hs.threshold now (some rule)
    refine ⟨events, hevents, fun e he => ⟨.exchange flow snapshot f none, ?_, rfl, hfaithful e he⟩⟩
    exact ⟨hf, nofun⟩
  | @conclude r pending matched t hends hq hl =>
    obtain rfl : t = (State.lookUp (shelved rules) now r.canonical { s with pending }).2 := by
      rw [hl]
    have holdest : (s.pending.queue flow).head? = some r := by
      rw [← Pending.takeOldest_fst, hq]
    obtain ⟨note, asked, hasked, hcame⟩ := hs.waiting flow r (List.mem_of_mem_head? holdest)
    -- the oldest request is the one that framing asked about
    have hhead : s.pending.isHeadAt flow 0 = r.isHead := by
      rw [Pending.isHeadAt_eq, ← List.head?_eq_getElem?, holdest, Option.any_some]
    have hgives := hcame.gives_answered hends hisOf (hhead ▸ hcarries)
    obtain ⟨events, hevents, hfaithful⟩ := faithful_dispatch rules hgives
      (State.lookUp (shelved rules) now r.canonical { s with pending }).2 hs.threshold now matched
    refine ⟨events, hevents, fun e he =>
      ⟨.exchange flow note asked (some f), ?_, ⟨snapshot, rfl⟩, hfaithful e he⟩⟩
    refine ⟨hasked.mono (List.prefix_append _ _), ?_⟩
    rintro g ⟨⟩
    exact ⟨snapshot, hf⟩

variable (rules) in
/-- A request that is judged is reported on, and leaves those who wait and the buffers. -/
theorem Held.judged (h : Held config seen s) {o : Origin} {request : Request}
    {response : Option Response} (hgives : o.Gives config request response)
    (hseen : o.SeenIn (seen ++ new)) (hends : o.EndsWith new)
    (hnew : ∀ flow side, stream new flow side = []) (now : Time.Moment) (value : Text) :
    Held config (seen ++ new)
        (State.settle (s.judge (shelved rules) now request response value)).2 ∧
      Reports config seen new s
        (State.settle (s.judge (shelved rules) now request response value)).2 := by
  have hhandlings := State.handlings_judge (shelved rules) now request response value s
  have hreports : Reports config seen new s
      (s.judge (shelved rules) now request response value).2 := by
    obtain ⟨events, hevents, hfaithful⟩ := faithful_judge rules hgives h.threshold now value
    exact ⟨events, hevents, fun e he => ⟨o, hseen, hends, hfaithful e he⟩⟩
  rw [State.snd_settle]
  refine ⟨h.after hhandlings.changes (trails_of_same h hhandlings.frame.2 hnew)
    (fun flow r hr => .inl ?_) hreports, hreports⟩
  rwa [State.pending_judge] at hr

theorem inTurn_nil (s : State (R × Shelf)) : Moment.InTurn { state := s, rest := [] } :=
  ⟨⟨0, false⟩, .request, List.forall_mem_nil _, trivial⟩

/-- What is asked behind an entry was asked before it, of one place more if the entry ends an
    exchange. -/
theorem State.Handles.flagAt {backend : Backend (R × Shelf)}
    (h : State.Handles backend now flow snapshot s f side a t) :
    Accumulator.flagAt side (fun n => t.pending.isHeadAt flow n) = fun n =>
      Accumulator.flagAt side (fun n => s.pending.isHeadAt flow n)
        ((if f.endsExchange then 1 else 0) + n) := by
  cases side with
  | request => rfl
  | response =>
    funext n
    simp only [Accumulator.flagAt, Pending.isHeadAt_eq, h.queue_response, List.getElem?_drop]

/-- **The first entry carries its body, and the others stay in turn** when it is handled. -/
theorem Moment.InTurn.handle {e : Entry} {rest : List Entry}
    (h : Moment.InTurn { state := s, rest := e :: rest })
    (hhandles : State.Handles (shelved rules) e.now e.flow e.snapshot s e.framed e.side a
      (e.handle rules rest s).state) :
    e.framed.Carries (Accumulator.flagAt e.side (fun n => s.pending.isHeadAt e.flow n) 0)
        e.framed.body? ∧
      (e.handle rules rest s).InTurn := by
  obtain ⟨flow, side, hsame, hfirst, hbehind⟩ := h
  obtain ⟨⟨rfl, rfl⟩, hothers⟩ := List.forall_mem_cons.mp hsame
  refine ⟨hfirst, ?_⟩
  cases hmoment : e.handle rules rest s with
  | mk t left =>
    rw [hmoment] at hhandles
    have hleft := rest_handle rules e rest s
    rw [hmoment] at hleft
    rcases hleft with rfl | rfl
    · exact ⟨e.flow, e.side, hothers, hhandles.flagAt ▸ hbehind⟩
    · exact inTurn_nil t

/-- Between calls nothing is left. -/
theorem Held.sound (h : Held config seen s) :
    Moment.Sound config seen { state := s, rest := [] } :=
  ⟨h, List.forall_mem_nil _, inTurn_nil s⟩

/-! ## 5. Every step and every run -/

/-- What publishes nothing and lets no request in keeps the invariant, if the buffers hold the last
    bytes of the streams. -/
theorem Held.silent (h : Held config seen s) (hchanges : State.Changes (shelved rules) s t)
    (htrails : t.buffers.Trails (stream (seen ++ new)))
    (hwaiting : ∀ flow, t.pending.queue flow ⊆ s.pending.queue flow)
    (hpublished : t.published = s.published) : Held config (seen ++ new) t :=
  h.after hchanges htrails (fun flow _ hr => .inl (hwaiting flow hr)) (reports_of_same hpublished)

/-- **Bytes become entries that carry their bodies in turn**, and stand in the stream. -/
theorem Held.receive (rules : Source R) (h : Held config seen s) (now : Time.Moment)
    (flow : FlowId) (side : Side) (bytes : Bytes) (snapshot : Option Text) :
    Moment.Sound config (seen ++ [.bytes flow side bytes])
      { state := { s with buffers := (s.framed flow side bytes).2 },
        rest := (s.framed flow side bytes).1.map (Entry.mk now flow side snapshot) } := by
  have hreceive : State.Changes (shelved rules) s _ :=
    .single (.receive s flow side (fun n => s.pending.isHeadAt flow n) bytes)
  refine ⟨h.silent hreceive (fun other side' => ?_) (fun _ => List.Subset.refl _) rfl,
    fun e he => ?_, flow, side, fun e he => ?_, ?_⟩
  · rw [stream_concat_bytes]
    exact h.trails.receive flow side _ bytes other side'
  · obtain ⟨f, hf, rfl⟩ := List.mem_map.mp he
    refine ⟨State.isOf_framed s flow side bytes f hf, fun m hm => ?_⟩
    rw [stream_concat_bytes, if_pos rfl]
    exact h.trails.infix_receive hf hm
  · obtain ⟨f, -, rfl⟩ := List.mem_map.mp he
    exact ⟨rfl, rfl⟩
  · have hcarry := Buffers.carries_receive h.searched flow side
      (fun n => s.pending.isHeadAt flow n) bytes
    rw [List.map_map]
    exact (List.map_id _).symm ▸ hcarry

/-- **An entry is handled**: what it ends is reported, and the others stay in turn. -/
theorem Moment.Sound.handle {e : Entry} {rest : List Entry}
    (h : Moment.Sound config seen { state := s, rest := e :: rest }) :
    (e.handle rules rest s).Sound config (seen ++ [.framed e.flow e.side e.snapshot e.framed]) ∧
      Reports config seen [.framed e.flow e.side e.snapshot e.framed] s
        (e.handle rules rest s).state := by
  obtain ⟨hs, hrest, hturn⟩ := h
  obtain ⟨he, hbehind⟩ := List.forall_mem_cons.mp hrest
  have hmore : seen <+: seen ++ [.framed e.flow e.side e.snapshot e.framed] :=
    List.prefix_append _ _
  have hf : FromWire (seen ++ [.framed e.flow e.side e.snapshot e.framed]) e.flow e.side
      e.snapshot e.framed := ⟨List.mem_concat_self, (he.mono hmore).inStream⟩
  have hhandles := (State.handles_act (shelved rules) e.now e.flow e.snapshot s he.isOf).1
  have hhandlings := State.handlings_handleFramed (shelved rules) e.now e.flow e.side e.snapshot
    e.framed s
  rw [← state_handle rules e rest s] at hhandles hhandlings
  obtain ⟨hcarries, hothers⟩ := hturn.handle hhandles
  have hreports := hhandles.reports hs he.isOf hcarries hf
  refine ⟨⟨hs.after hhandlings.changes (trails_of_same hs hhandlings.frame.2 fun _ _ => rfl)
    (fun flow r hr => ?_) hreports, fun e' he' => ?_, hothers⟩, hreports⟩
  · refine (hhandles.came hs.config_eq hcarries hr).imp_right ?_
    rintro ⟨rfl, hside, hcame⟩
    exact ⟨e.snapshot, e.framed, hside ▸ hf, hcame⟩
  · rcases rest_handle rules e rest s with hleft | hleft
    · exact (hbehind e' (hleft ▸ he')).mono hmore
    · exact absurd (hleft ▸ he') List.not_mem_nil

/-- **Every step keeps the invariant**, and reports on what it observes. -/
theorem Step.sound (hstep : Step rules m new m') (h : m.Sound config seen) :
    m'.Sound config (seen ++ new) ∧ Reports config seen new m.state m'.state := by
  have hs := h.state
  cases hstep with
  | receive s now flow side bytes snapshot =>
    exact ⟨hs.receive rules now flow side bytes snapshot, reports_of_same rfl⟩
  | handle s e rest => exact h.handle
  | call s now c =>
    have hseen : (Origin.call c).SeenIn (seen ++ [.call c]) := List.mem_concat_self
    obtain ⟨hheld, hreports⟩ := hs.judged rules (gives_call config c) hseen rfl (fun _ _ => rfl) now
      (c.request config).canonical
    obtain rfl := hs.config_eq
    exact ⟨hheld.sound, hreports⟩
  | resolution s now host addresses snapshot =>
    have hseen : (Origin.resolution host addresses snapshot).SeenIn
        (seen ++ [.resolution host addresses snapshot]) := List.mem_concat_self
    obtain ⟨hheld, hreports⟩ := hs.judged rules (gives_resolution config host addresses snapshot)
      hseen rfl (fun _ _ => rfl) now (Text.trim host)
    unfold State.onResolution
    simp only []
    split
    · have hnone : State.Changes (shelved rules) s s := .refl
      have hsilent : Held config (seen ++ [.resolution host addresses snapshot]) s :=
        hs.silent hnone (trails_of_same hs rfl fun _ _ => rfl) (fun _ => List.Subset.refl _) rfl
      exact ⟨hsilent.sound, reports_of_same rfl⟩
    · exact ⟨hheld.sound, hreports⟩
  | closed s flow =>
    have hclose : State.Changes (shelved rules) s _ := .single (.close s flow)
    refine ⟨(hs.silent hclose ?_ (fun other r hr => ?_) rfl).sound, reports_of_same rfl⟩
    · rw [List.append_nil]
      exact hs.trails.removeFlow flow
    · by_cases ho : other = flow
      · subst ho
        rw [State.onClosed, Pending.queue_removeFlow_self] at hr
        cases hr
      · rwa [State.onClosed, Pending.queue_removeFlow_other ho] at hr
  | pressure s =>
    have hclear : State.Changes (shelved rules) s _ := .single (.clear s)
    have hsilent : Held config (seen ++ []) s.onPressure :=
      hs.silent hclear (trails_of_same hs rfl fun _ _ => rfl) (fun _ => List.Subset.refl _) rfl
    exact ⟨hsilent.sound, reports_of_same rfl⟩
  | outside s rest r shelf hshelf =>
    rw [List.append_nil]
    refine ⟨⟨⟨hs.config_eq, hs.searched, hs.trails, hs.threshold, hs.waiting, fun e he => ?_⟩,
      h.rest, h.inTurn⟩, reports_of_same rfl⟩
    obtain ⟨o, hseen, hfaithful⟩ := hs.published e he
    exact ⟨o, hseen, hfaithful.mono hshelf⟩

/-- **Every moment of a run from a new engine keeps it.** -/
theorem Leads.sound {world : R × Shelf} (hstart : State.start? config world = some s)
    (h : Leads rules { state := s, rest := [] } seen m) : m.Sound config seen := by
  induction h with
  | refl =>
    obtain ⟨cache, -, rfl⟩ := Option.map_eq_some_iff.mp hstart
    refine Held.sound ⟨rfl, Buffers.searched_empty _, Buffers.trails_empty _, rfl, nofun,
      List.forall_mem_nil _⟩
  | step _ hstep ih => exact (hstep.sound ih).1

/-- **Bodies are faithful from the wire to the verdict.** In every moment of every run from a new
    engine, with any limits, any rules and a shelf in memory, each verdict published so far is on
    something that was observed, and its bodies stand for the payloads there: those of a framed
    exchange are what its messages carry, the bytes of which stand in the streams of the flow. What a
    step publishes is on what it observes. Whatever comes later, it stays published, and what was
    found under a handle is found there again. Operations of the engine lead from moment to
    moment. -/
theorem Leads.bodies_faithful {world : R × Shelf} (hstart : State.start? config world = some s)
    (h : Leads rules { state := s, rest := [] } seen m) :
    (∀ e ∈ m.state.published, ∃ o : Origin, o.SeenIn seen ∧
      Faithful config o m.state.world.2 e) ∧
    (∀ new m', Step rules m new m' → Reports config seen new m.state m'.state) ∧
    (∀ later m', Leads rules m later m' →
      m.state.published <+: m'.state.published ∧
        ∀ handle b, m.state.world.2.find? handle = some b →
          m'.state.world.2.find? handle = some b) ∧
    (m.rest = [] → ∀ ops, ∃ new, Leads rules m new
      { state := (State.run (shelved rules) ops m.state).2, rest := [] }) := by
  have hsound := h.sound hstart
  refine ⟨hsound.state.published, fun new m' hstep => (hstep.sound hsound).2,
    fun later m' hlater => ?_, fun hrest ops => ?_⟩
  · exact ⟨hlater.grows.published, fun handle b hb => hlater.grows.shelf.find? hb⟩
  · obtain ⟨state, rest⟩ := m
    obtain rfl : rest = [] := hrest
    exact leads_run rules state ops

end Invariant

/-- Small bodies go to the shelf, too, and four bytes of a body are kept. -/
def fourBytes : Config :=
  { Config.defaults with collectResponseBody := true, blobThresholdBytes := 3, maxBodyBytes := 4 }

/-- A request with three bytes, and the five bytes in answer to it in a chunk. -/
def sizedAndChunked : List (Time.Moment × Ingress) :=
  [(⟨⟨0, 0⟩, 0⟩, .bytes ⟨7, false⟩ .request
      (Utf8.encode "POST / HTTP/1.1\r\nHost: h\r\nContent-Length: 3\r\n\r\nabc".toList) none),
    (⟨⟨1, 0⟩, 1⟩, .bytes ⟨7, false⟩ .response
      (Utf8.encode ("HTTP/1.1 200 OK\r\nTransfer-Encoding: chunked\r\n\r\n" ++
        "5\r\nhello\r\n0\r\n\r\n").toList) none)]

/-- Rules that leave everything alone. -/
def ruleless : Source Unit where
  query _ _ _ := (.answer none, ())

/-- Both bodies are stored, the second of them cut. -/
theorem Leads.bodies_faithful_sizedAndChunked :
    ∃ s seen m, State.start? fourBytes ((), Shelf.empty) = some s ∧
      Leads ruleless { state := s, rest := [] } seen m ∧
      m.state.world.2.blobs = [⟨Dispatcher.defaultMimeType, Utf8.encode "abc".toList⟩,
        ⟨Dispatcher.defaultMimeType, Utf8.encode "hell".toList⟩] ∧
      m.state.published.map (fun e => (e.requestBody, e.responseBody)) =
        List.replicate 2 (some (.stored (Shelf.handle 0) Dispatcher.defaultMimeType 3),
          some (.stored (Shelf.handle 1) Dispatcher.defaultMimeType 4)) ∧
      ∀ e ∈ m.state.published, ∃ o : Origin, o.SeenIn seen ∧
        Faithful fourBytes o m.state.world.2 e := by
  obtain ⟨s, hs⟩ : ∃ s, State.start? fourBytes ((), Shelf.empty) = some s := ⟨_, rfl⟩
  obtain ⟨seen, hrun⟩ := leads_run ruleless s sizedAndChunked
  have hcomputed : ((State.start? fourBytes ((), Shelf.empty)).all fun s =>
      let t := (State.run (shelved ruleless) sizedAndChunked s).2
      decide (t.world.2.blobs = [⟨Dispatcher.defaultMimeType, Utf8.encode "abc".toList⟩,
          ⟨Dispatcher.defaultMimeType, Utf8.encode "hell".toList⟩] ∧
        t.published.map (fun e => (e.requestBody, e.responseBody)) =
          List.replicate 2 (some (.stored (Shelf.handle 0) Dispatcher.defaultMimeType 3),
            some (.stored (Shelf.handle 1) Dispatcher.defaultMimeType 4)))) = true := by
    decide +kernel
  rw [hs, Option.all_some] at hcomputed
  obtain ⟨hblobs, hbodies⟩ := of_decide_eq_true hcomputed
  exact ⟨s, seen, _, hs, hrun, hblobs, hbodies, (Leads.bodies_faithful hs hrun).1⟩

end TrafficGate.Engine
