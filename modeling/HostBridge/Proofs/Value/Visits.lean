import HostBridge.Proofs.Value.Leaves

/-!
What is met while a value is encoded.

The leaves are met in the order of a traversal, and before each value of a map its key. A key has
to be text, so a traversal does not go into it; where all keys are text, it meets the leaves of the
value and nothing else.
-/

namespace HostBridge

variable {α : Type}

/-- Something that is met: a key of a map, or a leaf that is not one. -/
inductive Visit (α : Type) where
  | key (key : Value α)
  | leaf (v : Value α)

def Visit.value : Visit α → Value α
  | .key k => k
  | .leaf v => v

namespace Value

mutual

def visits : Value α → List (Visit α)
  | .list items => listVisits items
  | .dictionary fields => fieldsVisits fields
  | .map pairs => pairsVisits pairs
  | .predicate _ args kwargs => listVisits args ++ kwargsVisits kwargs
  | .expression _ args => listVisits args
  | .pattern _ fields => fieldsVisits fields
  | v => [.leaf v]
termination_by structural v => v

def listVisits : List (Value α) → List (Visit α)
  | [] => []
  | v :: rest => visits v ++ listVisits rest
termination_by structural vs => vs

def fieldsVisits : List (String × Value α) → List (Visit α)
  | [] => []
  | (_, v) :: rest => visits v ++ fieldsVisits rest
termination_by structural vs => vs

def pairsVisits : List (Value α × Value α) → List (Visit α)
  | [] => []
  | (k, v) :: rest => (.key k :: visits v) ++ pairsVisits rest
termination_by structural vs => vs

def kwargsVisits : Option (List (String × Value α)) → List (Visit α)
  | none => []
  | some fields => fieldsVisits fields
termination_by structural vs => vs

end

lemma listVisits_eq_flatMap (items : List (Value α)) :
    listVisits items = items.flatMap visits := by
  induction items with
  | nil => rfl
  | cons v rest ih => rw [listVisits, ih, List.flatMap_cons]

lemma fieldsVisits_eq_flatMap (fields : List (String × Value α)) :
    fieldsVisits fields = fields.flatMap fun e => e.2.visits := by
  induction fields with
  | nil => rfl
  | cons e rest ih => rw [fieldsVisits, ih, List.flatMap_cons]

lemma pairsVisits_eq_flatMap (pairs : List (Value α × Value α)) :
    pairsVisits pairs = pairs.flatMap fun e => .key e.1 :: e.2.visits := by
  induction pairs with
  | nil => rfl
  | cons e rest ih => rw [pairsVisits, ih, List.flatMap_cons]

lemma visits_of_isLeaf {v : Value α} (h : v.isLeaf = true) : v.visits = [.leaf v] := by
  cases v <;> first | rfl | cases h

/-- But for leaves and maps, what is met is what is met inside. -/
lemma visits_eq_flatMap {v : Value α} (hleaf : v.isLeaf = false) (hmap : ∀ pairs, v ≠ .map pairs) :
    v.visits = v.inside.flatMap visits := by
  cases v with
  | nil | boolean | integer | float | string | reference | object | var => cases hleaf
  | list items => exact listVisits_eq_flatMap items
  | dictionary fields => rw [visits, fieldsVisits_eq_flatMap, inside, List.flatMap_map]
  | map pairs => exact absurd rfl (hmap pairs)
  | predicate name args kwargs =>
    rw [visits, listVisits_eq_flatMap, inside, List.flatMap_append, List.flatMap_map]
    rcases kwargs with _ | fields
    · rfl
    · rw [kwargsVisits, fieldsVisits_eq_flatMap]; rfl
  | expression operator args => exact listVisits_eq_flatMap args
  | pattern tag fields => rw [visits, fieldsVisits_eq_flatMap, inside, List.flatMap_map]

/-- Induction that goes only where a traversal goes: not into the keys of a map. -/
lemma induction_visits {motive : Value α → Prop}
    (leaf : ∀ v : Value α, v.isLeaf = true → motive v)
    (map : ∀ pairs, (∀ e ∈ pairs, motive e.2) → motive (.map pairs))
    (other : ∀ v : Value α, v.isLeaf = false → (∀ pairs, v ≠ .map pairs) →
      (∀ w ∈ v.inside, motive w) → motive v) (v : Value α) : motive v := by
  induction v using induction_inside with
  | h v ih =>
    by_cases hmap : ∃ pairs, v = .map pairs
    · obtain ⟨pairs, rfl⟩ := hmap
      exact map pairs fun e he => ih e.2 (List.mem_flatMap.mpr ⟨e, he, by simp⟩)
    · cases hleaf : v.isLeaf with
      | true => exact leaf v hleaf
      | false => exact other v hleaf (fun pairs hv => hmap ⟨pairs, hv⟩) ih

/-! ### Keys that are text -/

def isText : Value α → Bool
  | string _ => true
  | _ => false

lemma isText_iff {v : Value α} : v.isText = true ↔ ∃ s, v = .string s := by
  cases v <;> simp [isText]

/-- Every key of every map in the value is text. -/
def KeysAreText (v : Value α) : Prop :=
  ∀ pairs, .map pairs ∈ v.parts → ∀ e ∈ pairs, e.1.isText = true

lemma keysAreText_iff {v : Value α} :
    v.KeysAreText ↔ (∀ pairs, v = .map pairs → ∀ e ∈ pairs, e.1.isText = true) ∧
      ∀ w ∈ v.inside, w.KeysAreText := by
  have h := @forall_mem_parts_iff _ v fun p => ∀ pairs, p = .map pairs →
    ∀ e ∈ pairs, e.1.isText = true
  have hparts : ∀ w : Value α, w.KeysAreText ↔ ∀ p ∈ w.parts, ∀ pairs, p = .map pairs →
      ∀ e ∈ pairs, e.1.isText = true := fun w =>
    ⟨fun h p hp pairs hpairs => h pairs (hpairs ▸ hp), fun h pairs hp => h _ hp pairs rfl⟩
  simp only [hparts]
  exact h

lemma keysAreText_map {pairs : List (Value α × Value α)} :
    (map pairs).KeysAreText ↔ ∀ e ∈ pairs, e.1.isText = true ∧ e.2.KeysAreText := by
  have htext : ∀ {k : Value α}, k.isText = true → k.KeysAreText := by
    intro k hk
    obtain ⟨s, rfl⟩ := isText_iff.mp hk
    exact fun pairs hp => by cases List.mem_singleton.mp hp
  rw [keysAreText_iff]
  simp only [map.injEq, forall_eq', inside, List.mem_flatMap, List.mem_cons, List.not_mem_nil,
    or_false]
  constructor
  · rintro ⟨hkeys, hin⟩ e he
    exact ⟨hkeys e he, hin e.2 ⟨e, he, Or.inr rfl⟩⟩
  · intro h
    refine ⟨fun e he => (h e he).1, ?_⟩
    rintro w ⟨e, he, rfl | rfl⟩
    · exact htext (h e he).1
    · exact (h e he).2

lemma keysAreText_of_ne_map {v : Value α} (hmap : ∀ pairs, v ≠ .map pairs) :
    v.KeysAreText ↔ ∀ w ∈ v.inside, w.KeysAreText := by
  rw [keysAreText_iff]
  exact and_iff_right fun pairs hpairs => absurd hpairs (hmap pairs)

/-- The keys that are met tell whether all are text: a key with a map inside is not text itself. -/
lemma forall_key_mem_visits_iff {v : Value α} :
    (∀ key, .key key ∈ v.visits → key.isText = true) ↔ v.KeysAreText := by
  induction v using induction_visits with
  | leaf v hleaf =>
    have hne : ∀ pairs, v ≠ .map pairs := by rintro pairs rfl; cases hleaf
    simp [visits_of_isLeaf hleaf, keysAreText_of_ne_map hne, inside_of_isLeaf hleaf]
  | map pairs ih =>
    rw [keysAreText_map, visits, pairsVisits_eq_flatMap]
    simp only [List.mem_flatMap, List.mem_cons, Visit.key.injEq, forall_exists_index, and_imp]
    constructor
    · intro h e he
      exact ⟨h _ e he (Or.inl rfl), (ih e he).mp fun key hkey => h key e he (Or.inr hkey)⟩
    · rintro h key e he (rfl | hkey)
      · exact (h e he).1
      · exact (ih e he).mpr (h e he).2 key hkey
  | other v hleaf hne ih =>
    rw [visits_eq_flatMap hleaf hne, keysAreText_of_ne_map hne]
    simp only [List.mem_flatMap, forall_exists_index, and_imp]
    exact ⟨fun h w hw => (ih w hw).mp fun key hkey => h key w hw hkey,
      fun h key w hw => (ih w hw).mpr (h w hw) key⟩

/-- Where all keys are text, the leaves are met. -/
lemma map_value_visits {v : Value α} (h : v.KeysAreText) : v.visits.map Visit.value = v.leaves := by
  induction v using induction_visits with
  | leaf v hleaf => rw [visits_of_isLeaf hleaf, leaves_eq, if_pos hleaf]; rfl
  | map pairs ih =>
    rw [visits, pairsVisits_eq_flatMap, leaves, pairsLeaves_eq_flatMap, List.map_flatMap]
    refine List.flatMap_congr fun e he => ?_
    obtain ⟨htext, hvalue⟩ := keysAreText_map.mp h e he
    have hkey : e.1.leaves = [e.1] := by
      obtain ⟨key, hkey⟩ := isText_iff.mp htext
      rw [hkey]; rfl
    rw [List.map_cons, ih e he hvalue, hkey]
    rfl
  | other v hleaf hne ih =>
    have hleaves : v.leaves = v.inside.flatMap leaves := by
      rw [leaves_eq, hleaf]; rfl
    rw [visits_eq_flatMap hleaf hne, hleaves, List.map_flatMap]
    exact List.flatMap_congr fun w hw => ih w hw ((keysAreText_of_ne_map hne).mp h w hw)

/-! ### Objects -/

/-- The object as which a leaf is sent; the absent value is sent as the nil object. -/
def sentAs? (nilObject : Object α) : Value α → Option (Object α)
  | nil => some nilObject
  | object o => some o
  | _ => none

/-- The objects as which leaves of a value are sent, in the order of a traversal. -/
def objects (nilObject : Object α) (v : Value α) : List (Object α) :=
  v.leaves.filterMap (sentAs? nilObject)

lemma mem_objects {nilObject o : Object α} {v : Value α} :
    o ∈ v.objects nilObject ↔ ∃ p ∈ v.parts, p.sentAs? nilObject = some o := by
  have hleaf : ∀ {p : Value α}, p.sentAs? nilObject = some o → p.isLeaf = true := by
    intro p hp
    cases p <;> first | rfl | cases hp
  rw [objects, List.mem_filterMap]
  constructor
  · rintro ⟨p, hp, ho⟩
    exact ⟨p, (mem_leaves.mp hp).1, ho⟩
  · rintro ⟨p, hp, ho⟩
    exact ⟨p, mem_leaves.mpr ⟨hp, hleaf ho⟩, ho⟩

end Value

end HostBridge
