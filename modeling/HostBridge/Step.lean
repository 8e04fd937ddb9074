import HostBridge.Error

/-!
Steps of a session.

A step answers or fails, and either way it leaves a state: what a failing step had already
done stays done. Steps on a part of a state are steps on the whole.
-/

namespace HostBridge

/-- A step on states `σ` that answers with a `β`. -/
abbrev Step (σ β : Type) := EStateM Error σ β

namespace Step

variable {σ τ ε β : Type}

/-- A step that only looks at its input. -/
def ofExcept [Coe ε Error] : Except ε β → Step σ β
  | .ok b => fun s => .ok b s
  | .error e => fun s => .error e s

/-- A step of a part whose failures are of one kind. -/
def widen [Coe ε Error] (step : EStateM ε σ β) : Step σ β := fun s =>
  match step s with
  | .ok b s' => .ok b s'
  | .error e s' => .error e s'

/-- A step on a part of the state. -/
def onPart (part : τ → σ) (replace : τ → σ → τ) (step : Step σ β) : Step τ β := fun t =>
  match step (part t) with
  | .ok b s => .ok b (replace t s)
  | .error e s => .error e (replace t s)

instance : Coe Error Error := ⟨id⟩

end Step

end HostBridge
