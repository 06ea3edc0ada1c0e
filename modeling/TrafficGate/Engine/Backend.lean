import TrafficGate.Rule.Matcher
import TrafficGate.Verdict.Dispatcher
/-!
  # What an engine works with

  A source of rules and a keeper of bodies over one world, which the engine passes from one to the
  other and never looks into.
-/

namespace TrafficGate.Engine

/-- The collaborators of an engine in the world `W`. -/
structure Backend (W : Type) where
  rules : Rule.Source W
  blobs : Verdict.Keeper W

end TrafficGate.Engine
