import TrafficGate.Json.Parse
import TrafficGate.ReadFault
/-!
  # Configuration

  The limits of an engine and which bodies it keeps.

  1. `Config`, its defaults, and which limits must not be zero;
  2. reading it from JSON: a record, in which missing fields keep their defaults and unknown ones
     are passed over, or a list of the values in their order.

  Main facts: **`validate_defaults`** (the defaults are usable) and **`validate_ok_iff`** (which
  configurations are).
-/

namespace TrafficGate.Engine

/-! ## 1. Limits -/

/-- The limits of an engine. -/
structure Config where
  /-- How many bytes of an incomplete message may wait. -/
  maxBufferBytes : Nat
  /-- How many requests of a flow may wait for a response. -/
  maxPendingPerFlow : Nat
  /-- How many answers of the rule source are kept. -/
  ruleCacheCapacity : Nat
  /-- For how many seconds an unused answer is kept. -/
  ruleCacheSeconds : Nat
  /-- Bodies of this size and above are kept outside verdicts. -/
  blobThresholdBytes : Nat
  /-- How many keys of published requests are remembered. -/
  dedupCapacity : Nat
  collectRequestBody : Bool
  collectResponseBody : Bool
  /-- How many bytes of a body are kept. -/
  maxBodyBytes : Nat
  deriving DecidableEq, Repr

/-- Why a configuration cannot be used. -/
inductive ConfigFault where
  /-- The limit of this name is zero. -/
  | zero (name : Text)
  /-- The text is not the JSON of a configuration. -/
  | notJson
  /-- The text is not to be had. -/
  | unreadable (cause : ReadFault)
  deriving DecidableEq, Repr

namespace Config

/-- The limits that hold unless others are given. -/
def defaults : Config :=
  { maxBufferBytes := 8388608, maxPendingPerFlow := 32, ruleCacheCapacity := 8192,
    ruleCacheSeconds := 14400, blobThresholdBytes := 65536, dedupCapacity := 65536,
    collectRequestBody := true, collectResponseBody := false, maxBodyBytes := 4194304 }

/-- For how many nanoseconds an unused answer of the rule source is kept. -/
def cacheLifetime (c : Config) : Nat := c.ruleCacheSeconds * 1000000000

/-- The limits that must not be zero, in the order in which they are checked. -/
def limits (c : Config) : List (Text × Nat) :=
  [("max_buffer_bytes".toList, c.maxBufferBytes),
    ("max_pending_per_flow".toList, c.maxPendingPerFlow),
    ("rule_cache_capacity".toList, c.ruleCacheCapacity),
    ("dedup_capacity".toList, c.dedupCapacity)]

/-- Checks that no limit is zero; the first one that is counts. -/
def validate (c : Config) : Except ConfigFault Config :=
  match c.limits.find? fun l => l.2 == 0 with
  | some l => .error (.zero l.1)
  | none => .ok c

/-- **The defaults are usable.** -/
theorem validate_defaults : validate defaults = .ok defaults := rfl

/-- **A configuration is usable when its four limits are positive.** -/
theorem validate_ok_iff (c : Config) :
    validate c = .ok c ↔ 0 < c.maxBufferBytes ∧ 0 < c.maxPendingPerFlow ∧
      0 < c.ruleCacheCapacity ∧ 0 < c.dedupCapacity := by
  by_cases h1 : c.maxBufferBytes = 0
  · simp [validate, limits, h1]
  by_cases h2 : c.maxPendingPerFlow = 0
  · simp [validate, limits, h1, h2]
  by_cases h3 : c.ruleCacheCapacity = 0
  · simp [validate, limits, h1, h2, h3]
  by_cases h4 : c.dedupCapacity = 0
  · simp [validate, limits, h1, h2, h3, h4]
  simp [validate, limits, h1, h2, h3, h4, Nat.pos_of_ne_zero]

end Config

namespace ConfigFault

/-- The text of a fault of the values. -/
def message : ConfigFault → Text
  | zero name => "Invalid configuration: ".toList ++ name ++ " must be greater than zero".toList
  | notJson => "JSON error: not a configuration".toList
  | unreadable cause => "IO error: ".toList ++ cause.message

/-- The text of the cause below a fault. -/
def cause? : ConfigFault → Option Text
  | zero _ => none
  | notJson => some "not a configuration".toList
  | unreadable cause => some cause.message

end ConfigFault

/-! ## 2. Reading -/

namespace Config

/-- Sets a limit from its value. -/
def setNat (set : Config → Nat → Config) (j : Json) (c : Config) : Option Config :=
  j.nat?.map (set c)

/-- Sets a choice from its value. -/
def setBool (set : Config → Bool → Config) (j : Json) (c : Config) : Option Config :=
  j.bool?.map (set c)

/-- The fields with their names, in their order. -/
def fields : List (Text × (Json → Config → Option Config)) :=
  [("max_buffer_bytes".toList, setNat fun c n => { c with maxBufferBytes := n }),
    ("max_pending_per_flow".toList, setNat fun c n => { c with maxPendingPerFlow := n }),
    ("rule_cache_capacity".toList, setNat fun c n => { c with ruleCacheCapacity := n }),
    ("rule_cache_ttl_secs".toList, setNat fun c n => { c with ruleCacheSeconds := n }),
    ("blob_threshold_bytes".toList, setNat fun c n => { c with blobThresholdBytes := n }),
    ("dedup_capacity".toList, setNat fun c n => { c with dedupCapacity := n }),
    ("collect_request_body".toList, setBool fun c b => { c with collectRequestBody := b }),
    ("collect_response_body".toList, setBool fun c b => { c with collectResponseBody := b }),
    ("max_body_bytes".toList, setNat fun c n => { c with maxBodyBytes := n })]

/-- Sets the fields that a record has. A key must have a text, and no field may come twice. -/
def ofMembers? (seen : List Text) : List (Option Text × Json) → Config → Option Config
  | [], c => some c
  | (none, _) :: _, _ => none
  | (some key, j) :: rest, c =>
    match fields.find? fun f => f.1 == key with
    | none => ofMembers? seen rest c
    | some f =>
      if seen.contains key then none
      else
        match f.2 j c with
        | some c => ofMembers? (key :: seen) rest c
        | none => none

/-- Sets the fields in their order from a list, which may end early but not go on. -/
def ofElements? : List (Text × (Json → Config → Option Config)) → List Json → Config →
    Option Config
  | _, [], c => some c
  | [], _ :: _, _ => none
  | f :: fs, j :: rest, c =>
    match f.2 j c with
    | some c => ofElements? fs rest c
    | none => none

/-- The configuration of a JSON value. -/
def ofJson? : Json → Option Config
  | .obj members => ofMembers? [] members defaults
  | .arr values => ofElements? fields values defaults
  | _ => none

/-- A configuration as JSON. -/
def json (c : Config) : Json :=
  .record [("max_buffer_bytes".toList, .nat c.maxBufferBytes),
    ("max_pending_per_flow".toList, .nat c.maxPendingPerFlow),
    ("rule_cache_capacity".toList, .nat c.ruleCacheCapacity),
    ("rule_cache_ttl_secs".toList, .nat c.ruleCacheSeconds),
    ("blob_threshold_bytes".toList, .nat c.blobThresholdBytes),
    ("dedup_capacity".toList, .nat c.dedupCapacity),
    ("collect_request_body".toList, .bool c.collectRequestBody),
    ("collect_response_body".toList, .bool c.collectResponseBody),
    ("max_body_bytes".toList, .nat c.maxBodyBytes)]

/-- The configuration of a JSON text; it must be usable. -/
def parse (t : Text) : Except ConfigFault Config :=
  match (Json.parse? t).bind ofJson? with
  | some c => validate c
  | none => .error .notJson

/-- The configuration of a file, of which the bytes are given, or why they cannot be. -/
def ofFile (file : Except ReadFault Bytes) : Except ConfigFault Config :=
  match file.bind ReadFault.textOf with
  | .ok t => parse t
  | .error cause => .error (.unreadable cause)

end Config

end TrafficGate.Engine
