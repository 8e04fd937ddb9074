import HostBridge.Term.Basic
import Mathlib.Tactic.Lemma

/-!
Terms without their provenance.

The engine numbers the terms that it sends and says where in a source each one stands; the host
sends zeros. What a handle says is not the host's to change, and so the call in it, which tells
how the engine made the object, keeps its numbers.
-/

namespace HostBridge.Term

mutual

/-- The term with no provenance on it and on the terms inside, those in handles apart. -/
def bare : Term → Term
  | ⟨_, _, value⟩ => .ofHost (bareValue value)
termination_by structural t => t

def bareValue : Payload Term → Payload Term
  | .list items => .list (bareList items)
  | .dictionary fields => .dictionary (bareFields fields)
  | .call name args kwargs => .call name (bareList args) (bareKwargs kwargs)
  | .expression operator args => .expression operator (bareList args)
  | .pattern tag fields => .pattern tag (bareFields fields)
  | value => value
termination_by structural value => value

def bareList : List Term → List Term
  | [] => []
  | t :: rest => bare t :: bareList rest
termination_by structural ts => ts

def bareFields : List (String × Term) → List (String × Term)
  | [] => []
  | (key, t) :: rest => (key, bare t) :: bareFields rest
termination_by structural ts => ts

def bareKwargs : Option (List (String × Term)) → Option (List (String × Term))
  | none => none
  | some fields => some (bareFields fields)
termination_by structural ts => ts

end

lemma bareList_eq_map (items : List Term) : bareList items = items.map bare := by
  induction items with
  | nil => rfl
  | cons t rest ih => rw [bareList, ih, List.map_cons]

lemma bareFields_eq_map (fields : List (String × Term)) :
    bareFields fields = fields.map fun e => (e.1, bare e.2) := by
  induction fields with
  | nil => rfl
  | cons e rest ih => rw [bareFields, ih, List.map_cons]

end HostBridge.Term
