import TrafficGate.Engine.Config
import TrafficGate.Engine.Backend
import TrafficGate.Stream.Buffers
import TrafficGate.Exchange.Pending
/-!
  # The engine

  Observed traffic goes in, verdicts come out: bytes are framed into messages, requests and
  responses joined in order, values looked up, verdicts published, and the caller told whether the
  transfer is to be aborted.

  1. the state: buffers, waiting requests, the cache of answers, published keys, the world of the
     collaborators and the events published so far;
  2. deciding a request: looking it up and publishing the verdict;
  3. what a framed message does;
  4. the steps: bytes, completed calls, resolved names, closed flows, pressure on memory.

  A step in which the rule source breaks off ends there: what it changed before stays changed, and
  the transfer proceeds.

  Main facts: **`handleAll_append`** (messages are handled one after the other) and
  **`onBytes_nil`** (no bytes change nothing).
-/

namespace TrafficGate.Engine

open Http TrafficGate.Stream Exchange Rule Verdict

/-! ## 1. The state -/

/-- An engine in the world `W`. -/
structure State (W : Type) where
  config : Config
  buffers : Buffers
  pending : Pending
  cache : AnswerCache
  dispatcher : Dispatcher
  world : W
  /-- The events published so far, in their order. -/
  published : List Event

namespace State

variable {W : Type}

/-- An engine that has observed nothing; none when there is no room for its cache. -/
def start? (config : Config) (world : W) : Option (State W) :=
  (Cache.new? config.ruleCacheCapacity config.cacheLifetime).map fun cache =>
    { config, buffers := Buffers.empty config.maxBufferBytes,
      pending := Pending.empty config.maxPendingPerFlow, cache,
      dispatcher := Dispatcher.empty config.dedupCapacity config.blobThresholdBytes,
      world, published := [] }

/-! ## 2. Deciding -/

/-- Looks up a value. -/
def lookUp (backend : Backend W) (now : Time.Moment) (value : Text) (s : State W) :
    Outcome (Option Rule) × State W :=
  match matchAny backend.rules now.tick value s.cache s.world with
  | (found, cache, world) => (found, { s with cache, world })

/-- Publishes the verdict on a request. -/
def dispatch (backend : Backend W) (now : Time.Moment) (request : Request)
    (response : Option Response) (matched : Option Rule) (s : State W) :
    Disposition × State W :=
  match Dispatcher.dispatch backend.blobs now.wall request response matched s.dispatcher s.world with
  | (disposition, events, dispatcher, world) =>
    (disposition, { s with dispatcher, world, published := s.published ++ events })

/-- Looks up a value and publishes the verdict on the request. -/
def judge (backend : Backend W) (now : Time.Moment) (request : Request)
    (response : Option Response) (value : Text) (s : State W) : Outcome Disposition × State W :=
  match s.lookUp backend now value with
  | (.crashed, s) => (.crashed, s)
  | (.done matched, s) =>
    match s.dispatch backend now request response matched with
    | (disposition, s) => (.done disposition, s)

/-! ## 3. Messages -/

/-- A request that was framed: blocked at once if a rule matches, else it waits for its response. -/
def handleRequest (backend : Backend W) (now : Time.Moment) (flow : FlowId)
    (snapshot : Option Text) (m : Message) (s : State W) : Outcome Disposition × State W :=
  match Request.ofMessage flow m with
  | .error _ => (.done .proceed, s)
  | .ok request =>
    let request :=
      { request with
        body := collect request.body s.config.collectRequestBody s.config.maxBodyBytes, snapshot }
    match s.lookUp backend now request.canonical with
    | (.crashed, s) => (.crashed, s)
    | (.done none, s) => (.done .proceed, { s with pending := s.pending.push flow request })
    | (.done (some rule), s) =>
      match s.dispatch backend now request none (some rule) with
      | (disposition, s) => (.done disposition, s)

/-- Joins a response, or the lack of one, to the oldest waiting request of the flow. -/
def handleAnswer (backend : Backend W) (now : Time.Moment) (flow : FlowId)
    (response : Option Response) (s : State W) : Outcome Disposition × State W :=
  match s.pending.takeOldest flow with
  | (none, pending) => (.done .proceed, { s with pending })
  | (some request, pending) =>
    judge backend now request response request.canonical { s with pending }

/-- The response without the part of its body that is not kept. -/
def trimResponse (config : Config) (r : Response) : Response :=
  { r with body := collect r.body config.collectResponseBody config.maxBodyBytes }

/-- A response that was framed. One that only announces another waits for that. -/
def handleResponse (backend : Backend W) (now : Time.Moment) (flow : FlowId) (m : Message)
    (s : State W) : Outcome Disposition × State W :=
  match Response.ofMessage m with
  | .error _ => (.done .proceed, s)
  | .ok response =>
    if StatusLine.isInterim response.status then (.done .proceed, s)
    else s.handleAnswer backend now flow (some (trimResponse s.config response))

/-- A message of a side. -/
def handleMessage (backend : Backend W) (now : Time.Moment) (flow : FlowId) (side : Side)
    (snapshot : Option Text) (m : Message) (s : State W) : Outcome Disposition × State W :=
  match side with
  | .request => s.handleRequest backend now flow snapshot m
  | .response => s.handleResponse backend now flow m

/-- What was framed. A lost response ends the oldest exchange without one; a lost request leaves no
    trace. -/
def handleFramed (backend : Backend W) (now : Time.Moment) (flow : FlowId) (side : Side)
    (snapshot : Option Text) (f : Framed) (s : State W) : Outcome Disposition × State W :=
  match f with
  | .message m | .truncated m => s.handleMessage backend now flow side snapshot m
  | .lost _ =>
    match side with
    | .request => (.done .proceed, s)
    | .response => s.handleAnswer backend now flow none

/-- Everything that was framed, in its order. The first abort stands, unless something breaks
    off. -/
def handleAll (backend : Backend W) (now : Time.Moment) (flow : FlowId) (side : Side)
    (snapshot : Option Text) : List Framed → Disposition → State W →
    Outcome Disposition × State W
  | [], disposition, s => (.done disposition, s)
  | f :: rest, disposition, s =>
    match s.handleFramed backend now flow side snapshot f with
    | (.crashed, s) => (.crashed, s)
    | (.done next, s) => handleAll backend now flow side snapshot rest (disposition.or next) s

/-! ## 4. Steps -/

/-- The disposition of a step: what breaks off lets the transfer proceed. -/
def settle (r : Outcome Disposition × State W) : Disposition × State W :=
  match r with
  | (.done disposition, s) => (disposition, s)
  | (.crashed, s) => (.proceed, s)

/-- Bytes of a flow and side, observed with a note about the caller. -/
def onBytes (backend : Backend W) (now : Time.Moment) (flow : FlowId) (side : Side)
    (bytes : Bytes) (snapshot : Option Text) (s : State W) : Disposition × State W :=
  match s.buffers.receive flow side (fun n => s.pending.isHeadAt flow n) bytes with
  | (framed, buffers) =>
    settle (handleAll backend now flow side snapshot framed .proceed { s with buffers })

/-- A call as a client library or another structured source reports it. -/
structure Call where
  transport : Transport
  method : Text
  url : Text
  requestHeaders : Text
  requestBody : Option Bytes
  requestContentType : Option Text
  response : Option Response
  snapshot : Option Text
  deriving DecidableEq, Repr

/-- The request of a call. -/
def Call.request (config : Config) (call : Call) : Request :=
  { Request.ofUrl call.transport call.method call.url with
    headers := call.requestHeaders,
    body := collect call.requestBody config.collectRequestBody config.maxBodyBytes,
    contentType := call.requestContentType, snapshot := call.snapshot }

/-- A completed call. -/
def onCall (backend : Backend W) (now : Time.Moment) (call : Call) (s : State W) :
    Disposition × State W :=
  let request := call.request s.config
  settle
    (s.judge backend now request (call.response.map (trimResponse s.config)) request.canonical)

/-- The request that a resolved name is. -/
def resolution (host : Text) (addresses : List Text) (snapshot : Option Text) : Request :=
  { Request.ofUrl .dns "DNS".toList host with
    dnsHost := some host, dnsAddresses := addresses, snapshot }

/-- A resolved name. Without a name or addresses it is passed over. -/
def onResolution (backend : Backend W) (now : Time.Moment) (host : Text) (addresses : List Text)
    (snapshot : Option Text) (s : State W) : Disposition × State W :=
  let host := Text.trim host
  if host.isEmpty || addresses.isEmpty then (.proceed, s)
  else settle (s.judge backend now (resolution host addresses snapshot) none host)

/-- A closed flow: its bytes and its requests are dropped. -/
def onClosed (flow : FlowId) (s : State W) : State W :=
  { s with buffers := s.buffers.removeFlow flow, pending := s.pending.removeFlow flow }

/-- Memory is short: the cached answers are dropped. -/
def onPressure (s : State W) : State W := { s with cache := s.cache.clear }

/-- The engine without the events published so far. -/
def takePublished (s : State W) : List Event × State W := (s.published, { s with published := [] })

/-- **No bytes change nothing.** -/
theorem onBytes_nil (backend : Backend W) (now : Time.Moment) (flow : FlowId) (side : Side)
    (snapshot : Option Text) (s : State W) :
    s.onBytes backend now flow side [] snapshot = (.proceed, s) := rfl

/-- **Messages are handled one after the other.** -/
theorem handleAll_append (backend : Backend W) (now : Time.Moment) (flow : FlowId) (side : Side)
    (snapshot : Option Text) (a b : List Framed) (d : Disposition) (s : State W) :
    handleAll backend now flow side snapshot (a ++ b) d s =
      match handleAll backend now flow side snapshot a d s with
      | (.crashed, s) => (.crashed, s)
      | (.done d, s) => handleAll backend now flow side snapshot b d s := by
  induction a generalizing d s with
  | nil => rfl
  | cons f a ih =>
    simp only [List.cons_append, handleAll]
    cases s.handleFramed backend now flow side snapshot f with
    | mk o s' =>
      cases o with
      | crashed => rfl
      | done next => exact ih (d.or next) s'

end State

end TrafficGate.Engine
