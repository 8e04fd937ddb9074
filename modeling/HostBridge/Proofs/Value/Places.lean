import HostBridge.Proofs.Forall2
import HostBridge.Proofs.Table
import HostBridge.Value.Basic

/-!
Places in values and in terms.

A place says which way to go from the root: into an item of a list, or into the entry of a key.
Values and terms are walked alike, so that a value and a term which correspond at each step down
correspond at every place. There is no way into a handle, and a map has the places of the table
of its entries, provided its keys are text.
-/

namespace HostBridge

inductive Branch where
  | item (index : Nat)
  | entry (key : String)

abbrev Place := List Branch

namespace Place

variable {β γ : Type}

/-- What stands at a place, given the items and the entries of each thing on the way. -/
def follow (items : β → List β) (entries : β → Fields β) : Place → β → Option β
  | [], b => some b
  | .item i :: rest, b => (items b)[i]?.bind (follow items entries rest)
  | .entry key :: rest, b => ((entries b).lookup key).bind (follow items entries rest)

/-- What corresponds at each step down corresponds at every place. -/
lemma follow_rel {R : β → γ → Prop} {items : β → List β} {entries : β → Fields β}
    {items' : γ → List γ} {entries' : γ → Fields γ}
    (hitems : ∀ {b c}, R b c → List.Forall₂ R (items b) (items' c))
    (hentries : ∀ {b c}, R b c → List.Forall₂ (Table.Corresponds R) (entries b) (entries' c))
    (place : Place) {b : β} {c : γ} (h : R b c) :
    Option.Rel R (follow items entries place b) (follow items' entries' place c) := by
  induction place generalizing b c with
  | nil => exact .some h
  | cons branch rest ih =>
    cases branch with
    | item i => exact option_rel_bind (option_rel_getElem? (hitems h) i) ih
    | entry key => exact option_rel_bind (Table.option_rel_lookup (hentries h) key) ih

end Place

/-! ### Values -/

namespace Value

variable {α : Type}

def items : Value α → List (Value α)
  | list items => items
  | predicate _ args _ => args
  | expression _ args => args
  | _ => []

def entries : Value α → Fields (Value α)
  | dictionary fields => fields
  | map pairs => Table.ofList ((textEntries? pairs).getD [])
  | predicate _ _ kwargs => kwargs.getD []
  | pattern _ fields => fields
  | _ => []

/-- The value at a place. -/
def at? (v : Value α) (place : Place) : Option (Value α) := place.follow items entries v

end Value

/-! ### Terms -/

namespace Term

def items (t : Term) : List Term :=
  match t.value with
  | .list items => items
  | .call _ args _ => args
  | .expression _ args => args
  | _ => []

def entries (t : Term) : Fields Term :=
  match t.value with
  | .dictionary fields => fields
  | .call _ _ kwargs => kwargs.getD []
  | .pattern _ fields => fields
  | _ => []

/-- The term at a place. -/
def at? (t : Term) (place : Place) : Option Term := place.follow items entries t

end Term

end HostBridge
