import HostBridge.Value.Basic
import Mathlib.Tactic.Lemma

/-!
The parts of a value, and induction on values.

The parts are the value itself and all values inside it, in the order in which a traversal meets
them: a value before what is in it, arguments before keyword arguments, a key before its value.
-/

namespace HostBridge.Value

variable {α : Type}

/-! ### Induction -/

@[induction_eliminator]
theorem induction {motive : Value α → Prop}
    (nil : motive .nil)
    (boolean : ∀ b, motive (.boolean b))
    (integer : ∀ n, motive (.integer n))
    (float : ∀ x, motive (.float x))
    (string : ∀ s, motive (.string s))
    (list : ∀ items, (∀ v ∈ items, motive v) → motive (.list items))
    (dictionary : ∀ fields, (∀ e ∈ fields, motive e.2) → motive (.dictionary fields))
    (map : ∀ pairs, (∀ e ∈ pairs, motive e.1) → (∀ e ∈ pairs, motive e.2) → motive (.map pairs))
    (reference : ∀ handle, motive (.reference handle))
    (object : ∀ o, motive (.object o))
    (predicate : ∀ name args kwargs, (∀ v ∈ args, motive v) →
      (∀ fields ∈ kwargs, ∀ e ∈ fields, motive e.2) → motive (.predicate name args kwargs))
    (var : ∀ name, motive (.var name))
    (expression : ∀ operator args, (∀ v ∈ args, motive v) → motive (.expression operator args))
    (pattern : ∀ tag fields, (∀ e ∈ fields, motive e.2) → motive (.pattern tag fields))
    (v : Value α) : motive v := by
  refine @Value.rec α
    motive
    (fun items => ∀ v ∈ items, motive v)
    (fun fields => ∀ e ∈ fields, motive e.2)
    (fun pairs => (∀ e ∈ pairs, motive e.1) ∧ ∀ e ∈ pairs, motive e.2)
    (fun kwargs => ∀ fields ∈ kwargs, ∀ e ∈ fields, motive e.2)
    (fun entry => motive entry.2)
    (fun pair => motive pair.1 ∧ motive pair.2)
    nil boolean integer float string list dictionary (fun pairs h => map pairs h.1 h.2) reference
    object predicate var expression pattern
    ?noItems ?item ?noFields ?field ?noPairs ?pair ?noKwargs ?kwargs ?entry ?both v
  case noItems => intro v hv; cases hv
  case item =>
    intro v rest h ih v' hv'
    rcases List.mem_cons.mp hv' with rfl | hm
    · exact h
    · exact ih v' hm
  case noFields => intro e he; cases he
  case field =>
    intro e rest h ih e' he'
    rcases List.mem_cons.mp he' with rfl | hm
    · exact h
    · exact ih e' hm
  case noPairs => refine ⟨fun e he => ?_, fun e he => ?_⟩ <;> cases he
  case pair =>
    intro e rest h ih
    refine ⟨fun e' he' => ?_, fun e' he' => ?_⟩
    · rcases List.mem_cons.mp he' with rfl | hm
      · exact h.1
      · exact ih.1 e' hm
    · rcases List.mem_cons.mp he' with rfl | hm
      · exact h.2
      · exact ih.2 e' hm
  case noKwargs => intro fields h; cases h
  case kwargs => intro fields h fields' he; cases he; exact h
  case entry => intro key v h; exact h
  case both => intro k v hk hv; exact ⟨hk, hv⟩

/-! ### Parts -/

mutual

def parts : Value α → List (Value α)
  | .list items => .list items :: listParts items
  | .dictionary fields => .dictionary fields :: fieldsParts fields
  | .map pairs => .map pairs :: pairsParts pairs
  | .predicate name args kwargs =>
    .predicate name args kwargs :: (listParts args ++ kwargsParts kwargs)
  | .expression operator args => .expression operator args :: listParts args
  | .pattern tag fields => .pattern tag fields :: fieldsParts fields
  | v => [v]
termination_by structural v => v

def listParts : List (Value α) → List (Value α)
  | [] => []
  | v :: rest => parts v ++ listParts rest
termination_by structural vs => vs

def fieldsParts : List (String × Value α) → List (Value α)
  | [] => []
  | (_, v) :: rest => parts v ++ fieldsParts rest
termination_by structural vs => vs

def pairsParts : List (Value α × Value α) → List (Value α)
  | [] => []
  | (k, v) :: rest => parts k ++ (parts v ++ pairsParts rest)
termination_by structural vs => vs

def kwargsParts : Option (List (String × Value α)) → List (Value α)
  | none => []
  | some fields => fieldsParts fields
termination_by structural vs => vs

end

/-! ### Parts of members -/

lemma listParts_eq_flatMap (items : List (Value α)) : listParts items = items.flatMap parts := by
  induction items with
  | nil => rfl
  | cons v rest ih => rw [listParts, ih, List.flatMap_cons]

lemma fieldsParts_eq_flatMap (fields : List (String × Value α)) :
    fieldsParts fields = (fields.map (·.2)).flatMap parts := by
  induction fields with
  | nil => rfl
  | cons e rest ih => rw [fieldsParts, ih, List.map_cons, List.flatMap_cons]

lemma pairsParts_eq_flatMap (pairs : List (Value α × Value α)) :
    pairsParts pairs = (pairs.flatMap fun e => [e.1, e.2]).flatMap parts := by
  induction pairs with
  | nil => rfl
  | cons e rest ih =>
    rw [pairsParts, ih, List.flatMap_cons, List.flatMap_append]
    simp

lemma mem_listParts {items : List (Value α)} {p : Value α} :
    p ∈ listParts items ↔ ∃ v ∈ items, p ∈ v.parts := by
  rw [listParts_eq_flatMap, List.mem_flatMap]

lemma mem_fieldsParts {fields : List (String × Value α)} {p : Value α} :
    p ∈ fieldsParts fields ↔ ∃ e ∈ fields, p ∈ e.2.parts := by
  rw [fieldsParts_eq_flatMap, List.flatMap_map, List.mem_flatMap]

/-! ### What is right inside a value -/

/-- The values one level down, in the order of a traversal. -/
def inside : Value α → List (Value α)
  | list items => items
  | dictionary fields => fields.map (·.2)
  | map pairs => pairs.flatMap fun e => [e.1, e.2]
  | predicate _ args kwargs => args ++ (kwargs.getD []).map (·.2)
  | expression _ args => args
  | pattern _ fields => fields.map (·.2)
  | _ => []

/-- Induction one level at a time, where the kind of the value does not matter. -/
lemma induction_inside {motive : Value α → Prop}
    (h : ∀ v, (∀ w ∈ v.inside, motive w) → motive v) (v : Value α) : motive v := by
  induction v with
  | nil | boolean | integer | float | string | reference | object | var =>
    exact h _ fun w hw => nomatch hw
  | list items ih => exact h _ ih
  | dictionary fields ih =>
    refine h _ fun w hw => ?_
    obtain ⟨e, he, rfl⟩ := List.mem_map.mp hw
    exact ih e he
  | map pairs hkeys hvalues =>
    refine h _ fun w hw => ?_
    obtain ⟨e, he, hw⟩ := List.mem_flatMap.mp hw
    simp only [List.mem_cons, List.not_mem_nil, or_false] at hw
    rcases hw with rfl | rfl
    · exact hkeys e he
    · exact hvalues e he
  | predicate name args kwargs hargs hkwargs =>
    refine h _ fun w hw => ?_
    rcases List.mem_append.mp hw with hw | hw
    · exact hargs w hw
    · obtain ⟨e, he, rfl⟩ := List.mem_map.mp hw
      rcases kwargs with _ | fields
      · cases he
      · exact hkwargs fields rfl e he
  | expression operator args ih => exact h _ ih
  | pattern tag fields ih =>
    refine h _ fun w hw => ?_
    obtain ⟨e, he, rfl⟩ := List.mem_map.mp hw
    exact ih e he

/-- The parts of a value are the value and the parts of what is inside. -/
lemma parts_eq (v : Value α) : v.parts = v :: v.inside.flatMap parts := by
  cases v with
  | nil | boolean | integer | float | string | reference | object | var => rfl
  | list items => rw [parts, listParts_eq_flatMap]; rfl
  | dictionary fields => rw [parts, fieldsParts_eq_flatMap]; rfl
  | map pairs => rw [parts, pairsParts_eq_flatMap]; rfl
  | predicate name args kwargs =>
    rw [parts, listParts_eq_flatMap, inside, List.flatMap_append]
    rcases kwargs with _ | fields
    · rfl
    · rw [kwargsParts, fieldsParts_eq_flatMap]; rfl
  | expression operator args => rw [parts, listParts_eq_flatMap]; rfl
  | pattern tag fields => rw [parts, fieldsParts_eq_flatMap]; rfl

lemma self_mem_parts (v : Value α) : v ∈ v.parts := by
  rw [parts_eq]
  exact List.mem_cons_self

lemma mem_parts_inside {v w p : Value α} (hw : w ∈ v.inside) (hp : p ∈ w.parts) : p ∈ v.parts := by
  rw [parts_eq]
  exact List.mem_cons_of_mem _ (List.mem_flatMap.mpr ⟨w, hw, hp⟩)

/-- What holds of all parts of a value holds of it and of all parts of what is inside. -/
lemma forall_mem_parts_iff {v : Value α} {P : Value α → Prop} :
    (∀ p ∈ v.parts, P p) ↔ P v ∧ ∀ w ∈ v.inside, ∀ p ∈ w.parts, P p := by
  rw [parts_eq, List.forall_mem_cons]
  simp only [List.mem_flatMap, forall_exists_index, and_imp]
  exact and_congr_right fun _ => ⟨fun h w hw p hp => h p w hw hp, fun h p w hw hp => h w hw p hp⟩

lemma mem_parts_list {items : List (Value α)} {v p : Value α} (hv : v ∈ items)
    (hp : p ∈ v.parts) : p ∈ (list items).parts := mem_parts_inside hv hp

lemma mem_parts_dictionary {fields : List (String × Value α)} {e : String × Value α}
    {p : Value α} (he : e ∈ fields) (hp : p ∈ e.2.parts) : p ∈ (dictionary fields).parts :=
  mem_parts_inside (List.mem_map_of_mem he) hp

lemma mem_parts_map {pairs : List (Value α × Value α)} {e : Value α × Value α} {p : Value α}
    (he : e ∈ pairs) (hp : p ∈ e.2.parts) : p ∈ (map pairs).parts :=
  mem_parts_inside (List.mem_flatMap.mpr ⟨e, he, by simp⟩) hp

lemma mem_parts_args {name : String} {args : List (Value α)}
    {kwargs : Option (List (String × Value α))} {v p : Value α} (hv : v ∈ args)
    (hp : p ∈ v.parts) : p ∈ (predicate name args kwargs).parts :=
  mem_parts_inside (List.mem_append_left _ hv) hp

lemma mem_parts_kwargs {name : String} {args : List (Value α)}
    {fields : List (String × Value α)} {e : String × Value α} {p : Value α} (he : e ∈ fields)
    (hp : p ∈ e.2.parts) : p ∈ (predicate name args (some fields)).parts :=
  mem_parts_inside (List.mem_append_right _ (List.mem_map_of_mem he)) hp

lemma mem_parts_expression {operator : Operator} {args : List (Value α)} {v p : Value α}
    (hv : v ∈ args) (hp : p ∈ v.parts) : p ∈ (expression operator args).parts :=
  mem_parts_inside hv hp

lemma mem_parts_pattern {tag : Option String} {fields : List (String × Value α)}
    {e : String × Value α} {p : Value α} (he : e ∈ fields) (hp : p ∈ e.2.parts) :
    p ∈ (pattern tag fields).parts :=
  mem_parts_inside (List.mem_map_of_mem he) hp

end HostBridge.Value
