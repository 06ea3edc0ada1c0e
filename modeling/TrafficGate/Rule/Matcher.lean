import TrafficGate.Rule.Source
import TrafficGate.Rule.Cache
import TrafficGate.Url.Canonical
/-!
  # Looking up a value

  A value is looked up as a URL, then its host as a domain, then the value as a keyword; the first
  rule that matches is the answer. A cache stands before the source: what the source answered, also
  that nothing matches, is not asked again while the entry lives. A failure is no answer and is not
  kept; a source that breaks off breaks off the lookup.

  1. `Outcome` -- a result, or that something broke off;
  2. `lookup` -- one kind;
  3. `matchAny` -- the kinds in their order.

  Main facts: **`matchAny_nil`** (an empty value matches nothing) and **`lookup_of_get`** (a cached
  answer does not reach the source).
-/

namespace TrafficGate.Rule

/-! ## 1. Outcomes -/

/-- A result, or that the work broke off. -/
inductive Outcome (α : Type) where
  | done (a : α)
  | crashed
  deriving DecidableEq, Repr

/-- What a lookup is remembered by. -/
structure Key where
  kind : Kind
  value : Text
  deriving DecidableEq, Repr

/-- The number of a kind, as the bytes of a key have it. -/
def kindByte : Kind → UInt8
  | .url => 0
  | .domain => 1
  | .keyword => 2

instance : Spread Key := ⟨fun key => kindByte key.kind :: List.replicate 7 0 ++ endedBytes key.value⟩

/-- The cache of a matcher: for each lookup the rule that matched, or that none did. -/
abbrev AnswerCache := Cache Key (Option Rule)

/-! ## 2. One kind -/

variable {W : Type}

/-- Asks the source, and keeps the answer. -/
def ask (source : Source W) (now : Nat) (key : Key) (cache : AnswerCache) (w : W) :
    Outcome (Option Rule) × AnswerCache × W :=
  match source.query key.kind key.value w with
  | (.answer r, w) => (.done r, cache.insert now key r, w)
  | (.failed, w) => (.done none, cache, w)
  | (.crashed, w) => (.crashed, cache, w)

/-- Looks up a value as one kind. -/
def lookup (source : Source W) (now : Nat) (key : Key) (cache : AnswerCache) (w : W) :
    Outcome (Option Rule) × AnswerCache × W :=
  match cache.get now key with
  | (some r, cache) => (.done r, cache, w)
  | (none, cache) => ask source now key cache w

/-- **A cached answer does not reach the source.** -/
theorem lookup_of_get {source : Source W} {now : Nat} {key : Key} {cache cache' : AnswerCache}
    {r : Option Rule} (h : cache.get now key = (some r, cache')) (w : W) :
    lookup source now key cache w = (.done r, cache', w) := by
  simp [lookup, h]

/-! ## 3. All kinds -/

/-- What is looked up of a value as a kind: the host as a domain, else the value. -/
def candidate (value : Text) : Kind → Text
  | .domain => Url.hostOf value
  | .url | .keyword => value

/-- Looks up a value as the kinds, one after the other, up to the first rule. -/
def matchKinds (source : Source W) (now : Nat) (value : Text) :
    List Kind → AnswerCache → W → Outcome (Option Rule) × AnswerCache × W
  | [], cache, w => (.done none, cache, w)
  | kind :: kinds, cache, w =>
    match lookup source now { kind, value := candidate value kind } cache w with
    | (.done none, cache, w) => matchKinds source now value kinds cache w
    | found => found

/-- Looks up a value. An empty one matches nothing. -/
def matchAny (source : Source W) (now : Nat) (value : Text) (cache : AnswerCache) (w : W) :
    Outcome (Option Rule) × AnswerCache × W :=
  if value.isEmpty then (.done none, cache, w) else matchKinds source now value Kind.all cache w

/-- **An empty value matches nothing and asks nothing.** -/
theorem matchAny_nil (source : Source W) (now : Nat) (cache : AnswerCache) (w : W) :
    matchAny source now [] cache w = (.done none, cache, w) := rfl

end TrafficGate.Rule
