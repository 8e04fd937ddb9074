import HostBridge.Error
import HostBridge.Term.Basic

/-!
Engines.

An engine is known only by the calls that the host makes into it. A call answers or is
rejected, and either way the engine goes on in some state. Nothing more is asked of an engine,
except by who reads all of its messages: then it must hold finitely many of them.
-/

namespace HostBridge

/-- The calls into engines with states `σ` whose running queries are known as `query`. -/
class EngineCalls (σ : Type) (query : outParam Type) where
  /-- Loads policy sources, given as the text of an array of objects. -/
  load : (sources : String) → EStateM EngineError σ Unit
  clearRules : EStateM EngineError σ Unit
  registerConstant : (name : String) → (value : Term) → EStateM EngineError σ Unit
  /-- Records the ancestry of a class as a list of the ids of classes. -/
  registerAncestry : (name : String) → (chain : Term) → EStateM EngineError σ Unit
  newQuery : (text : String) → (trace : UInt32) → EStateM EngineError σ query
  newQueryFromTerm : (term : Term) → (trace : UInt32) → EStateM EngineError σ query
  /-- The next message that waits to be read, if there is one. -/
  nextMessage : EStateM EngineError σ (Option String)
  buildFilterPlan : (types results name classTag : String) → EStateM EngineError σ String

/-- Engines that hold finitely many messages: reading one leaves fewer to be read. -/
class Engine (σ : Type) (query : outParam Type) extends EngineCalls σ query where
  /-- A bound on the messages that wait to be read. -/
  waiting : σ → Nat
  waiting_nextMessage : ∀ {s s' : σ} {message : String},
    nextMessage s = .ok (some message) s' → waiting s' < waiting s

end HostBridge
