import HostBridge.Term.Basic
import Mathlib.Data.List.Forall2
import Mathlib.Tactic.Lemma

/-!
Terms that say the same.

Of what the engine sends, the numbers of provenance and the descriptions in handles are there for
the engine and for people to read. The essence of a term is what is left without them; terms are
similar if they have one essence. Unlike a bare term, the essence of a term has nothing of what
its handles say but the ids of the instances.
-/

namespace HostBridge

/-- The handle with nothing but the id of its instance. -/
def Handle.plain {τ : Type} (handle : Handle τ) : Handle τ := ⟨handle.id, none, none, none, none⟩

namespace Term

mutual

/-- The term without provenance, and with plain handles. -/
def essence : Term → Term
  | ⟨_, _, value⟩ => .ofHost (valueEssence value)
termination_by structural t => t

def valueEssence : Payload Term → Payload Term
  | .list items => .list (listEssence items)
  | .dictionary fields => .dictionary (fieldsEssence fields)
  | .external handle => .external handle.plain
  | .call name args kwargs => .call name (listEssence args) (kwargsEssence kwargs)
  | .expression operator args => .expression operator (listEssence args)
  | .pattern tag fields => .pattern tag (fieldsEssence fields)
  | value => value
termination_by structural value => value

def listEssence : List Term → List Term
  | [] => []
  | t :: rest => essence t :: listEssence rest
termination_by structural ts => ts

def fieldsEssence : List (String × Term) → List (String × Term)
  | [] => []
  | (key, t) :: rest => (key, essence t) :: fieldsEssence rest
termination_by structural ts => ts

def kwargsEssence : Option (List (String × Term)) → Option (List (String × Term))
  | none => none
  | some fields => some (fieldsEssence fields)
termination_by structural ts => ts

end

lemma listEssence_eq_map (items : List Term) : listEssence items = items.map essence := by
  induction items with
  | nil => rfl
  | cons t rest ih => rw [listEssence, ih, List.map_cons]

lemma fieldsEssence_eq_map (fields : List (String × Term)) :
    fieldsEssence fields = fields.map fun e => (e.1, essence e.2) := by
  induction fields with
  | nil => rfl
  | cons e rest ih => rw [fieldsEssence, ih, List.map_cons]

/-- Terms that differ in their provenance and in the descriptions in handles at most. -/
def Similar (t u : Term) : Prop := t.essence = u.essence

lemma forall₂_similar_iff {items items' : List Term} :
    List.Forall₂ Similar items items' ↔ listEssence items = listEssence items' := by
  rw [listEssence_eq_map, listEssence_eq_map, ← List.forall₂_eq_eq_eq,
    List.forall₂_map_left_iff, List.forall₂_map_right_iff]
  rfl

end Term

end HostBridge
