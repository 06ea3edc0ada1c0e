import TrafficGate.Engine.Basic
import TrafficGate.Describe
/-!
  # Describing the state

  One line of text about an engine and its parts, for logs: the counts and limits, not the contents.
-/

namespace TrafficGate.Engine

open TrafficGate.Stream Exchange Rule Verdict

open Describe

/-- The buffers of an engine. -/
def describeBuffers (b : Buffers) : Text :=
  record "FlowBufferStore" [field "buffers" (nat b.size), field "max_buffer_bytes" (nat b.limit)]

/-- The waiting requests of an engine. -/
def describePending (p : Pending) : Text :=
  record "PendingRequestTable" [field "flows" (nat p.flows), field "max_per_flow" (nat p.limit)]

/-- The cache of an engine. -/
def describeCache (c : AnswerCache) : Text := record "RuleMatcher" [field "cached" (nat c.size)]

/-- The dispatcher of an engine. -/
def describeDispatcher (d : Dispatcher) : Text :=
  record "VerdictDispatcher"
    [field "seen" (nat d.seen.length), field "dedup_capacity" (nat d.capacity),
      field "blob_threshold" (nat d.threshold)]

/-- The configuration of an engine. -/
def describeConfig (c : Config) : Text :=
  record "EngineConfig"
    [field "max_buffer_bytes" (nat c.maxBufferBytes),
      field "max_pending_per_flow" (nat c.maxPendingPerFlow),
      field "rule_cache_capacity" (nat c.ruleCacheCapacity),
      field "rule_cache_ttl_secs" (nat c.ruleCacheSeconds),
      field "blob_threshold_bytes" (nat c.blobThresholdBytes),
      field "dedup_capacity" (nat c.dedupCapacity),
      field "collect_request_body" (bool c.collectRequestBody),
      field "collect_response_body" (bool c.collectResponseBody),
      field "max_body_bytes" (nat c.maxBodyBytes)]

/-- An engine. -/
def State.describe {W : Type} (s : State W) : Text :=
  record "InterceptEngine"
    [field "config" (describeConfig s.config), field "buffers" (describeBuffers s.buffers),
      field "pending" (describePending s.pending), field "matcher" (describeCache s.cache),
      field "dispatcher" (describeDispatcher s.dispatcher)]

end TrafficGate.Engine
