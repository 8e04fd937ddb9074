import HostBridge.Proofs.Value.Parts

/-!
The normal form of a value, in which it comes back from the wire: tables with any keys have
become dictionaries, and the nil object has become the absent value.
-/

namespace HostBridge.Value

variable {α : Type}

section Normal

variable (nilObject : Object α) (held : Object α → Object α)

mutual

/--
The normal form of a value. A handle of an object may be exchanged for another handle of the
same object on the way, which `held` says; where it is the identity, objects stay as they are.
-/
def normal : Value α → Value α
  | .object o => if o.same nilObject then .nil else .object (held o)
  | .list items => .list (listNormal items)
  | .dictionary fields => .dictionary (fieldsNormal fields)
  | .map pairs => .dictionary (Table.ofList (pairsNormal pairs))
  | .predicate name args kwargs => .predicate name (listNormal args) (kwargsNormal kwargs)
  | .expression operator args => .expression operator (listNormal args)
  | .pattern tag fields => .pattern tag (fieldsNormal fields)
  | v => v
termination_by structural v => v

def listNormal : List (Value α) → List (Value α)
  | [] => []
  | v :: rest => normal v :: listNormal rest
termination_by structural vs => vs

def fieldsNormal : List (String × Value α) → List (String × Value α)
  | [] => []
  | (key, v) :: rest => (key, normal v) :: fieldsNormal rest
termination_by structural vs => vs

/-- The entries under a key that is text. -/
def pairsNormal : List (Value α × Value α) → List (String × Value α)
  | [] => []
  | (.string key, v) :: rest => (key, normal v) :: pairsNormal rest
  | _ :: rest => pairsNormal rest
termination_by structural vs => vs

def kwargsNormal :
    Option (List (String × Value α)) → Option (List (String × Value α))
  | none => none
  | some fields => some (fieldsNormal fields)
termination_by structural vs => vs

end

lemma listNormal_eq_map (items : List (Value α)) :
    listNormal nilObject held items = items.map (normal nilObject held) := by
  induction items with
  | nil => rfl
  | cons v rest ih => rw [listNormal, ih, List.map_cons]

lemma fieldsNormal_eq_map (fields : List (String × Value α)) :
    fieldsNormal nilObject held fields =
      fields.map fun e => (e.1, normal nilObject held e.2) := by
  induction fields with
  | nil => rfl
  | cons e rest ih => rw [fieldsNormal, ih, List.map_cons]

end Normal

variable {nilObject : Object α} {held held' : Object α → Object α}

/-! ### What the normal form depends on -/

lemma listNormal_congr {items : List (Value α)}
    (h : ∀ v ∈ items, normal nilObject held v = normal nilObject held' v) :
    listNormal nilObject held items = listNormal nilObject held' items := by
  rw [listNormal_eq_map, listNormal_eq_map]
  exact List.map_congr_left h

lemma fieldsNormal_congr {fields : List (String × Value α)}
    (h : ∀ e ∈ fields, normal nilObject held e.2 = normal nilObject held' e.2) :
    fieldsNormal nilObject held fields = fieldsNormal nilObject held' fields := by
  rw [fieldsNormal_eq_map, fieldsNormal_eq_map]
  exact List.map_congr_left fun e he => by rw [h e he]

lemma pairsNormal_congr {pairs : List (Value α × Value α)}
    (h : ∀ e ∈ pairs, normal nilObject held e.2 = normal nilObject held' e.2) :
    pairsNormal nilObject held pairs = pairsNormal nilObject held' pairs := by
  induction pairs with
  | nil => rfl
  | cons e rest ih =>
    obtain ⟨k, v⟩ := e
    have hv := h (k, v) (by simp)
    have hrest := ih fun e' he' => h e' (by simp [he'])
    cases k <;> simp_all [pairsNormal]

lemma kwargsNormal_congr {kwargs : Option (List (String × Value α))}
    (h : ∀ fields ∈ kwargs, ∀ e ∈ fields,
      normal nilObject held e.2 = normal nilObject held' e.2) :
    kwargsNormal nilObject held kwargs = kwargsNormal nilObject held' kwargs := by
  rcases kwargs with _ | fields
  · rfl
  · rw [kwargsNormal, kwargsNormal, fieldsNormal_congr (h fields rfl)]

/-- Only the handles of the objects in a value matter for its normal form. -/
lemma normal_congr (v : Value α) (h : ∀ o, .object o ∈ v.parts → held o = held' o) :
    v.normal nilObject held = v.normal nilObject held' := by
  induction v with
  | nil | boolean | integer | float | string | reference | var => simp [normal]
  | object o => rw [normal, normal, h o (self_mem_parts _)]
  | list items ih =>
    rw [normal, normal, listNormal_congr fun v hv =>
      ih v hv fun o ho => h o (mem_parts_list hv ho)]
  | dictionary fields ih =>
    rw [normal, normal, fieldsNormal_congr fun e he =>
      ih e he fun o ho => h o (mem_parts_dictionary he ho)]
  | map pairs _ ih =>
    rw [normal, normal, pairsNormal_congr fun e he =>
      ih e he fun o ho => h o (mem_parts_map he ho)]
  | predicate name args kwargs hargs hkwargs =>
    have ha : listNormal nilObject held args = listNormal nilObject held' args :=
      listNormal_congr fun v hv => hargs v hv fun o ho => h o (mem_parts_args hv ho)
    have hk : kwargsNormal nilObject held kwargs = kwargsNormal nilObject held' kwargs :=
      kwargsNormal_congr fun fields hf e he => hkwargs fields hf e he fun o ho => by
        cases hf; exact h o (mem_parts_kwargs he ho)
    rw [normal, normal, ha, hk]
  | expression operator args ih =>
    rw [normal, normal, listNormal_congr fun v hv =>
      ih v hv fun o ho => h o (mem_parts_expression hv ho)]
  | pattern tag fields ih =>
    rw [normal, normal, fieldsNormal_congr fun e he =>
      ih e he fun o ho => h o (mem_parts_pattern he ho)]

/-! ### Values in normal form -/

lemma listNormal_eq_self {items : List (Value α)}
    (h : ∀ v ∈ items, normal nilObject id v = v) : listNormal nilObject id items = items := by
  rw [listNormal_eq_map]
  exact (List.map_congr_left h).trans (List.map_id items)

lemma fieldsNormal_eq_self {fields : List (String × Value α)}
    (h : ∀ e ∈ fields, normal nilObject id e.2 = e.2) :
    fieldsNormal nilObject id fields = fields := by
  rw [fieldsNormal_eq_map]
  exact (List.map_congr_left fun e he => by rw [h e he]; rfl).trans (List.map_id fields)

lemma kwargsNormal_eq_self {kwargs : Option (List (String × Value α))}
    (h : ∀ fields ∈ kwargs, ∀ e ∈ fields, normal nilObject id e.2 = e.2) :
    kwargsNormal nilObject id kwargs = kwargs := by
  rcases kwargs with _ | fields
  · rfl
  · rw [kwargsNormal, fieldsNormal_eq_self (h fields rfl)]

/-- No table with any keys and not the nil object is in the value. -/
structure IsNormal (nilObject : Object α) (v : Value α) : Prop where
  map : ∀ pairs, .map pairs ∉ v.parts
  object : ∀ o, .object o ∈ v.parts → o.same nilObject = false

lemma IsNormal.inside {v w : Value α} (h : IsNormal nilObject v) (hsub : ∀ p ∈ w.parts, p ∈ v.parts) :
    IsNormal nilObject w :=
  ⟨fun pairs hp => h.map pairs (hsub _ hp), fun o ho => h.object o (hsub _ ho)⟩

/-- A value in normal form is its own. -/
lemma normal_eq_self (v : Value α) (h : IsNormal nilObject v) : v.normal nilObject id = v := by
  induction v with
  | nil | boolean | integer | float | string | reference | var => simp [normal]
  | object o => rw [normal, h.object o (self_mem_parts _)]; rfl
  | list items ih =>
    rw [normal, listNormal_eq_self fun v hv =>
      ih v hv (h.inside fun p hp => mem_parts_list hv hp)]
  | dictionary fields ih =>
    rw [normal, fieldsNormal_eq_self fun e he =>
      ih e he (h.inside fun p hp => mem_parts_dictionary he hp)]
  | map pairs => exact absurd (self_mem_parts _) (h.map pairs)
  | predicate name args kwargs hargs hkwargs =>
    have ha : listNormal nilObject id args = args := listNormal_eq_self fun v hv =>
      hargs v hv (h.inside fun p hp => mem_parts_args hv hp)
    have hk : kwargsNormal nilObject id kwargs = kwargs :=
      kwargsNormal_eq_self fun fields hf e he => hkwargs fields hf e he (h.inside fun p hp => by
        cases hf; exact mem_parts_kwargs he hp)
    rw [normal, ha, hk]
  | expression operator args ih =>
    rw [normal, listNormal_eq_self fun v hv =>
      ih v hv (h.inside fun p hp => mem_parts_expression hv hp)]
  | pattern tag fields ih =>
    rw [normal, fieldsNormal_eq_self fun e he =>
      ih e he (h.inside fun p hp => mem_parts_pattern he hp)]

end HostBridge.Value
