import HostBridge.Proofs.Codec.Traversal
import HostBridge.Proofs.Instances.History
import HostBridge.Proofs.Silent
import HostBridge.Proofs.Value.Leaves

/-!
What resolving makes of a value.

A value can be resolved if every reference in it is bound. Then it keeps its tree: a reference is
swapped for what it stands for, and every other leaf stays. If it cannot be resolved, the
reference that is reported is the first unbound one in the order of a traversal.
-/

namespace HostBridge

variable {α : Type}

/-! ### References -/

namespace Value

def reference? : Value α → Option (Handle Term)
  | reference handle => some handle
  | _ => none

/-- The references in a value, in the order of a traversal. -/
def handles (v : Value α) : List (Handle Term) := v.leaves.filterMap reference?

lemma reference?_eq_some {v : Value α} {handle : Handle Term} :
    v.reference? = some handle ↔ v = .reference handle := by
  cases v <;> simp [reference?]

lemma mem_handles {v : Value α} {handle : Handle Term} :
    handle ∈ v.handles ↔ .reference handle ∈ v.parts := by
  simp only [handles, List.mem_filterMap, mem_leaves, reference?_eq_some]
  constructor
  · rintro ⟨p, ⟨hp, -⟩, rfl⟩; exact hp
  · intro hp; exact ⟨_, ⟨hp, rfl⟩, rfl⟩

lemma handles_list (items : List (Value α)) : (list items).handles = items.flatMap handles := by
  rw [handles, leaves, listLeaves_eq_flatMap, List.filterMap_flatMap]
  rfl

lemma filterMap_fieldsLeaves (fields : List (String × Value α)) :
    (fieldsLeaves fields).filterMap reference? = fields.flatMap fun e => e.2.handles := by
  rw [fieldsLeaves_eq_flatMap, List.filterMap_flatMap]
  rfl

lemma handles_map (pairs : List (Value α × Value α)) :
    (map pairs).handles = pairs.flatMap fun e => e.1.handles ++ e.2.handles := by
  rw [handles, leaves, pairsLeaves_eq_flatMap, List.filterMap_flatMap]
  simp only [List.filterMap_append]
  rfl

end Value

namespace Codec

variable {instances : Instances α} {nilObject : Object α}

/-! ### Where resolving stops -/

/-- To look a reference up, for the sake of a failure only. -/
def lookUp (instances : Instances α) (handle : Handle Term) : Except InstanceError Unit :=
  silent (instances.get handle.id)

lemma lookUp_eq (handle : Handle Term) :
    lookUp instances handle =
      if instances.has handle.id then .ok () else .error (.unbound handle.id) := by
  unfold lookUp Instances.get Instances.has
  cases instances.object? handle.id <;> rfl

lemma silent_resolveHandle (handle : Handle Term) :
    silent (resolveHandle instances nilObject handle) = lookUp instances handle := by
  unfold resolveHandle lookUp
  cases instances.get handle.id <;> rfl

lemma silent_resolveFields {fields : List (String × Value α)}
    (ih : ∀ e ∈ fields,
      silent (resolveValue instances nilObject e.2) = forM e.2.handles (lookUp instances)) :
    silent (resolveFields instances nilObject fields) =
      forM (fields.flatMap fun e => e.2.handles) (lookUp instances) := by
  rw [resolveFields_eq_mapM]
  exact silent_mapM fun e he => (silent_onValue _ e).trans (ih e he)

lemma silent_resolvePair (e : Value α × Value α) :
    silent (resolvePair instances nilObject e) =
      silent (resolveValue instances nilObject e.1) >>= fun _ =>
        silent (resolveValue instances nilObject e.2) :=
  silent_bind_bind_pure _ _ _

/-- But for its answer, resolving looks up the references one after another. -/
lemma silent_resolveValue (v : Value α) :
    silent (resolveValue instances nilObject v) = forM v.handles (lookUp instances) := by
  induction v with
  | nil | boolean | integer | float | string | object | var => rfl
  | reference handle =>
    rw [resolveValue, silent_resolveHandle]
    exact (bind_pure (lookUp instances handle)).symm
  | list items ih =>
    rw [resolveValue, Value.handles_list, resolveList_eq_mapM]
    exact (silent_map _ _).trans (silent_mapM ih)
  | dictionary fields ih =>
    rw [resolveValue, Value.handles, Value.leaves, Value.filterMap_fieldsLeaves]
    exact (silent_map _ _).trans (silent_resolveFields ih)
  | map pairs hkeys hvalues =>
    rw [resolveValue, Value.handles_map, resolvePairs_eq_mapM]
    refine (silent_map _ _).trans (silent_mapM fun e he => ?_)
    rw [silent_resolvePair, hkeys e he, hvalues e he, List.forM_append]
  | predicate name args kwargs hargs hkwargs =>
    have ha : silent (resolveList instances nilObject args) =
        forM ((Value.listLeaves args).filterMap Value.reference?) (lookUp instances) := by
      rw [resolveList_eq_mapM, silent_mapM hargs, ← Value.handles_list]
      rfl
    have hk : silent (resolveKwargs instances nilObject kwargs) =
        forM ((Value.kwargsLeaves kwargs).filterMap Value.reference?) (lookUp instances) := by
      rcases kwargs with _ | fields
      · rfl
      · rw [Value.kwargsLeaves, Value.filterMap_fieldsLeaves]
        exact (silent_map _ _).trans (silent_resolveFields (hkwargs fields rfl))
    rw [resolveValue, Value.handles, Value.leaves, List.filterMap_append, List.forM_append,
      ← ha, ← hk]
    exact silent_bind_bind_pure _ _ _
  | expression operator args ih =>
    rw [resolveValue, resolveList_eq_mapM]
    exact (silent_map _ _).trans ((silent_mapM ih).trans (by rw [← Value.handles_list]; rfl))
  | pattern tag fields ih =>
    rw [resolveValue, Value.handles, Value.leaves, Value.filterMap_fieldsLeaves]
    exact (silent_map _ _).trans (silent_resolveFields ih)

/-- The first unbound reference decides how resolving ends. -/
lemma silent_resolveValue_eq_find? (v : Value α) :
    silent (resolveValue instances nilObject v) =
      (v.handles.find? fun handle => !instances.has handle.id).elim (.ok ()) fun handle =>
        .error (.unbound handle.id) := by
  rw [silent_resolveValue]
  exact Result.forM_eq_find? (fun handle => lookUp_eq handle) v.handles

lemma exists_resolveValue_iff {v : Value α} :
    (∃ w, resolveValue instances nilObject v = .ok w) ↔
      ∀ handle, .reference handle ∈ v.parts → instances.has handle.id = true := by
  rw [← Result.silent_eq_ok, silent_resolveValue_eq_find?]
  have hnone : v.handles.find? (fun handle => !instances.has handle.id) = none ↔
      ∀ handle, .reference handle ∈ v.parts → instances.has handle.id = true := by
    simp [List.find?_eq_none, Value.mem_handles]
  rw [← hnone]
  cases v.handles.find? fun handle => !instances.has handle.id <;> simp

lemma resolveValue_eq_error {v : Value α} {e : InstanceError} :
    resolveValue instances nilObject v = .error e ↔
      ∃ handle, v.handles.find? (fun handle => !instances.has handle.id) = some handle ∧
        e = .unbound handle.id := by
  rw [← Result.silent_eq_error, silent_resolveValue_eq_find?]
  cases v.handles.find? fun handle => !instances.has handle.id with
  | none => simp
  | some handle => simp [eq_comm]

/-! ### Leaf by leaf -/

variable (instances nilObject) in
/--
What a leaf is resolved to: a reference to the object that is bound to its id, or to the absent
value where that is the nil object, and any other leaf to itself.
-/
def Stands : Value α → Value α → Prop
  | .reference handle, w => ∃ o, instances.get handle.id = .ok o ∧
      w = if o.same nilObject then .nil else .object o
  | v, w => w = v

lemma stands_reference {handle : Handle Term} {w : Value α} :
    Stands instances nilObject (.reference handle) w ↔
      resolveHandle instances nilObject handle = .ok w := by
  simp only [Stands, resolveHandle_eq_ok, Instances.get_eq_ok]

lemma stands_self {v : Value α} (h : ∀ handle, v ≠ .reference handle) :
    Stands instances nilObject v v := by
  cases v with
  | reference handle => exact absurd rfl (h handle)
  | _ => rfl

lemma Stands.isLeaf {v w : Value α} (h : Stands instances nilObject v w) (hv : v.isLeaf = true) :
    w.isLeaf = true := by
  cases v with
  | reference handle =>
    obtain ⟨o, -, rfl⟩ := h
    split <;> rfl
  | list | dictionary | map | predicate | expression | pattern => cases hv
  | _ => cases h; rfl

lemma Stands.ne_reference {v w : Value α} (h : Stands instances nilObject v w)
    (handle : Handle Term) : w ≠ .reference handle := by
  rintro rfl
  cases v with
  | reference =>
    obtain ⟨o, -, hw⟩ := h
    split at hw <;> cases hw
  | _ => cases h

/-- An object stands for itself, or for a reference to it. -/
lemma Stands.object {v : Value α} {o : Object α} (h : Stands instances nilObject v (.object o)) :
    v = .object o ∨ ∃ i, instances.object? i = some o := by
  cases v with
  | reference handle =>
    obtain ⟨p, hp, hw⟩ := h
    split at hw
    · cases hw
    · cases hw
      exact Or.inr ⟨handle.id, Instances.get_eq_ok.mp hp⟩
  | _ => exact Or.inl (Eq.symm h)

variable (instances nilObject) in
/-- Resolving as a relation. -/
def Resolves (v w : Value α) : Prop := resolveValue instances nilObject v = .ok w

lemma resolveItems_eq_ok {vs ws : List (Value α)} :
    resolveList instances nilObject vs = .ok ws ↔
      List.Forall₂ (Resolves instances nilObject) vs ws := by
  rw [resolveList_eq_mapM]
  exact Result.mapM_eq_ok

lemma resolveFields_eq_ok {vs ws : List (String × Value α)} :
    resolveFields instances nilObject vs = .ok ws ↔
      List.Forall₂ (Table.Corresponds (Resolves instances nilObject)) vs ws := by
  rw [resolveFields_eq_mapM]
  exact Result.mapM_eq_ok_of fun _ _ _ => Result.onValue_eq_ok

lemma resolvePairs_eq_ok {vs ws : List (Value α × Value α)} :
    resolvePairs instances nilObject vs = .ok ws ↔
      List.Forall₂ (fun e f => Resolves instances nilObject e.1 f.1 ∧
        Resolves instances nilObject e.2 f.2) vs ws := by
  rw [resolvePairs_eq_mapM]
  exact Result.mapM_eq_ok_of fun _ _ _ => resolvePair_eq_ok

lemma resolveKwargs_eq_ok {vs ws : Option (List (String × Value α))} :
    resolveKwargs instances nilObject vs = .ok ws ↔
      Option.Rel (List.Forall₂ (Table.Corresponds (Resolves instances nilObject))) vs ws := by
  rcases vs with _ | fields
  · cases ws <;> simp [resolveKwargs]
  · rw [resolveKwargs, Result.map_eq_ok, option_rel_some_left]
    simp only [resolveFields_eq_ok]
    exact exists_congr fun _ => and_comm.trans (and_congr_left' eq_comm)

lemma memberwise_resolves : Value.Memberwise (Resolves instances nilObject) where
  list := by
    intro items w
    rw [Resolves, resolveValue, Result.map_eq_ok]
    simp only [resolveItems_eq_ok]
  dictionary := by
    intro fields w
    rw [Resolves, resolveValue, Result.map_eq_ok]
    simp only [resolveFields_eq_ok]
  map := by
    intro pairs w
    rw [Resolves, resolveValue, Result.map_eq_ok]
    simp only [resolvePairs_eq_ok]
  predicate := by
    intro name args kwargs w
    rw [Resolves, resolveValue, Result.bind_eq_ok]
    simp only [Result.bind_eq_ok, resolveItems_eq_ok, resolveKwargs_eq_ok, Except.ok.injEq]
  expression := by
    intro operator args w
    rw [Resolves, resolveValue, Result.map_eq_ok]
    simp only [resolveItems_eq_ok]
  pattern := by
    intro tag fields w
    rw [Resolves, resolveValue, Result.map_eq_ok]
    simp only [resolveFields_eq_ok]

lemma resolves_leaf {v w : Value α} (hv : v.isLeaf = true) :
    Resolves instances nilObject v w ↔ w.isLeaf = true ∧ Stands instances nilObject v w := by
  have hstands : Resolves instances nilObject v w ↔ Stands instances nilObject v w := by
    cases v with
    | reference handle => exact stands_reference.symm
    | list | dictionary | map | predicate | expression | pattern => cases hv
    | _ => exact ⟨fun h => by cases h; rfl, fun h => by cases h; rfl⟩
  rw [hstands]
  exact ⟨fun h => ⟨h.isLeaf hv, h⟩, fun h => h.2⟩

/-- Resolving is swapping the leaves for what they are resolved to. -/
lemma resolveValue_eq_ok_iff_leafwise {v w : Value α} :
    resolveValue instances nilObject v = .ok w ↔
      v.Leafwise (Stands instances nilObject) w :=
  memberwise_resolves.iff_leafwise resolves_leaf v w

/-- A value without references resolves to itself. -/
lemma resolveValue_eq_self {v : Value α} (h : ∀ handle, .reference handle ∉ v.parts) :
    resolveValue instances nilObject v = .ok v := by
  refine resolveValue_eq_ok_iff_leafwise.mpr ⟨rfl, List.forall₂_same.mpr fun p hp => ?_⟩
  refine stands_self fun handle hreference => h handle ?_
  rw [← hreference]
  exact (Value.mem_leaves.mp hp).1

/-- No reference is left in what a value is resolved to. -/
lemma not_reference_of_resolveValue {v w : Value α}
    (h : resolveValue instances nilObject v = .ok w) (handle : Handle Term) :
    .reference handle ∉ w.parts := by
  intro hmem
  have hleaf : .reference handle ∈ w.leaves := Value.mem_leaves.mpr ⟨hmem, rfl⟩
  obtain ⟨p, -, hp⟩ := forall₂_exists_left (resolveValue_eq_ok_iff_leafwise.mp h).2 hleaf
  exact hp.ne_reference handle rfl

/--
**Resolving** is complete, minimal and idempotent. A value can be resolved exactly if every
reference in it, at whatever depth, is bound. What it is resolved to is the value itself with each
reference swapped for the object that is bound to its id, or for the absent value where that is
the nil object; there is no reference left in it, and it is resolved to itself. And where it
cannot be resolved, the first reference of a traversal that is not bound is reported.
-/
theorem resolve_swaps_references (c : Codec α) (instances : Instances α) (v : Value α) :
    ((∃ w, c.resolve instances v = .ok w) ↔
      ∀ handle, .reference handle ∈ v.parts → instances.has handle.id = true) ∧
    (∀ w, c.resolve instances v = .ok w ↔ v.Leafwise (Stands instances c.nil) w) ∧
    (∀ w, c.resolve instances v = .ok w →
      (∀ handle, .reference handle ∉ w.parts) ∧ c.resolve instances w = .ok w) ∧
    (∀ e, c.resolve instances v = .error e ↔
      ∃ handle, v.handles.find? (fun handle => !instances.has handle.id) = some handle ∧
        e = .instances (.unbound handle.id)) := by
  have hok : ∀ u w, c.resolve instances u = .ok w ↔ resolveValue instances c.nil u = .ok w :=
    fun u w => Result.mapError_eq_ok
  refine ⟨?_, fun w => (hok v w).trans resolveValue_eq_ok_iff_leafwise, fun w hw => ?_, fun e => ?_⟩
  · simp only [hok]
    exact exists_resolveValue_iff
  · have hnone := not_reference_of_resolveValue ((hok v w).mp hw)
    exact ⟨hnone, (hok w w).mpr (resolveValue_eq_self hnone)⟩
  · rw [resolve, Result.mapError_eq_error]
    simp only [resolveValue_eq_error]
    constructor
    · rintro ⟨_, ⟨handle, hfirst, rfl⟩, rfl⟩; exact ⟨handle, hfirst, rfl⟩
    · rintro ⟨handle, hfirst, rfl⟩; exact ⟨_, ⟨handle, hfirst, rfl⟩, rfl⟩

/-- References to the nil object and, in a key, to another one. -/
theorem resolve_swaps_references_key :
    let c : Codec Unit := ⟨.empty, ⟨0, .nil⟩, false, false⟩
    let o : Object Unit := ⟨1, .classHandle "Post"⟩
    let table : Instances Unit := (Instances.empty.bind c.nil 1).bind o 2
    let v : Value Unit := .list [.reference ⟨1, none, none, none, none⟩,
      .map [(.reference ⟨2, none, none, none, none⟩, .var "x")]]
    let w : Value Unit := .list [.nil, .map [(.object o, .var "x")]]
    c.resolve table v = .ok w ∧ c.resolve table w = .ok w := by
  intro c o table v w
  have hw : c.resolve table v = .ok w := rfl
  exact ⟨hw, ((resolve_swaps_references c table v).2.2.1 w hw).2⟩

end Codec

end HostBridge
