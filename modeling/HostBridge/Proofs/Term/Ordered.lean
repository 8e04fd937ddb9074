import HostBridge.Proofs.Json.Canonical
import HostBridge.Proofs.Term.Acceptance

/-!
Terms whose tables are in order.

A table of a term holds its fields under ascending keys. The writer writes the members of every
other object in ascending order too, so what it makes of such a term is a canonical tree. The other
way round, a canonical tree spells no other terms.
-/

namespace HostBridge

namespace Term

/-- The keys of every table in the term ascend, also in what its handles say. -/
inductive Ordered : Term → Prop
  | string (id offset : UInt64) (s : String) : Ordered ⟨id, offset, .string s⟩
  | boolean (id offset : UInt64) (b : Bool) : Ordered ⟨id, offset, .boolean b⟩
  | number (id offset : UInt64) (n : Numeric) : Ordered ⟨id, offset, .number n⟩
  | list (id offset : UInt64) {items : List Term} (h : ∀ t ∈ items, Ordered t) :
    Ordered ⟨id, offset, .list items⟩
  | dictionary (id offset : UInt64) {fields : List (String × Term)}
    (hkeys : Table.Ascending fields) (h : ∀ e ∈ fields, Ordered e.2) :
    Ordered ⟨id, offset, .dictionary fields⟩
  | external (id offset : UInt64) {handle : Handle Term}
    (h : ∀ t ∈ handle.constructor, Ordered t) : Ordered ⟨id, offset, .external handle⟩
  | call (id offset : UInt64) (name : String) {args : List Term}
    {kwargs : Option (List (String × Term))} (hargs : ∀ t ∈ args, Ordered t)
    (hkeys : ∀ fields ∈ kwargs, Table.Ascending fields)
    (hkwargs : ∀ fields ∈ kwargs, ∀ e ∈ fields, Ordered e.2) :
    Ordered ⟨id, offset, .call name args kwargs⟩
  | var (id offset : UInt64) (name : String) : Ordered ⟨id, offset, .var name⟩
  | expression (id offset : UInt64) (operator : Operator) {args : List Term}
    (h : ∀ t ∈ args, Ordered t) : Ordered ⟨id, offset, .expression operator args⟩
  | pattern (id offset : UInt64) (tag : Option String) {fields : List (String × Term)}
    (hkeys : Table.Ascending fields) (h : ∀ e ∈ fields, Ordered e.2) :
    Ordered ⟨id, offset, .pattern tag fields⟩

/-! ### Writing -/

section Write

open Json (canonical_object canonical_only)

lemma canonical_listJson {items : List Term} (h : ∀ t ∈ items, t.toJson.canonical = t.toJson) :
    (Json.array (listJson items)).canonical = .array (listJson items) := by
  rw [Json.canonical_array_iff, listJson_eq_map]
  exact List.forall_mem_map.mpr h

lemma canonical_fieldsJson {fields : List (String × Term)} (hkeys : Table.Ascending fields)
    (h : ∀ e ∈ fields, e.2.toJson.canonical = e.2.toJson) :
    (Json.object (fieldsJson fields)).canonical = .object (fieldsJson fields) := by
  rw [Json.canonical_object_iff, fieldsJson_eq_map]
  exact ⟨List.pairwise_map.mpr hkeys, List.forall_mem_map.mpr h⟩

lemma depth_doubleJson (x : Double) : x.toJson.depth = 0 := by
  rcases x with _ | negative | x
  · rfl
  · cases negative <;> rfl
  · rfl

lemma canonical_numericJson (n : Numeric) : n.toJson.canonical = n.toJson := by
  cases n with
  | integer n => exact canonical_only rfl
  | float x => exact canonical_only (Json.canonical_of_depth_eq_zero (depth_doubleJson x))

lemma depth_ofOption (text : Option String) : (Json.ofOption .string text).depth = 0 := by
  cases text <;> rfl

/-- A member that may be left out. -/
lemma forall_mem_memberOf {P : String × Json → Prop} {key : String} {json : Option Json} :
    (∀ e ∈ memberOf key json, P e) ↔ ∀ j ∈ json, P (key, j) := by
  cases json <;> simp [memberOf]

lemma constructorJson_eq_map (constructor : Option Term) :
    constructorJson constructor = constructor.map toJson := by
  cases constructor <;> rfl

lemma kwargsJson_eq_map (kwargs : Option (List (String × Term))) :
    kwargsJson kwargs = kwargs.map fun fields => .object (fieldsJson fields) := by
  cases kwargs <;> rfl

lemma canonical_handleJson {handle : Handle Term}
    (h : ∀ t ∈ handle.constructor, t.toJson.canonical = t.toJson) :
    (handleJson handle).canonical = handleJson handle := by
  obtain ⟨id, constructor, repr, classRepr, classId⟩ := handle
  rw [handleJson]
  refine canonical_object ["class_id", "class_repr", "constructor", "instance_id", "repr"]
    ?_ (by decide) ?_
  · cases classId <;> cases constructor <;> simp [Table.keys, memberOf, constructorJson]
  · have htext := fun text => Json.canonical_of_depth_eq_zero (depth_ofOption text)
    simp only [List.forall_mem_append, List.forall_mem_cons, forall_mem_memberOf,
      constructorJson_eq_map, Option.forall_mem_map]
    exact ⟨fun _ _ => rfl, htext classRepr, h, rfl, htext repr, List.forall_mem_nil _⟩

lemma canonical_toJson {t : Term} (h : t.Ordered) : t.toJson.canonical = t.toJson := by
  -- what is left to show is that the payload is canonical
  have hterm : ∀ {value : Payload Term} (id offset : UInt64),
      (payloadJson value).canonical = payloadJson value →
      (toJson ⟨id, offset, value⟩).canonical = toJson ⟨id, offset, value⟩ := by
    intro value id offset hvalue
    rw [toJson]
    refine canonical_object ["id", "offset", "value"] (List.Sublist.refl _) (by decide) ?_
    simp only [List.forall_mem_cons]
    exact ⟨rfl, rfl, hvalue, List.forall_mem_nil _⟩
  induction h with
  | string id offset | boolean id offset | var id offset =>
    exact hterm id offset (canonical_only rfl)
  | number id offset n => exact hterm id offset (canonical_only (canonical_numericJson n))
  | list id offset _ ih => exact hterm id offset (canonical_only (canonical_listJson ih))
  | dictionary id offset hkeys _ ih =>
    exact hterm id offset (canonical_only (canonical_only (canonical_fieldsJson hkeys ih)))
  | external id offset _ ih => exact hterm id offset (canonical_only (canonical_handleJson ih))
  | @call id offset name args kwargs _ hkeys _ hargs hkwargs =>
    have hkw : ∀ fields ∈ kwargs, (Json.object (fieldsJson fields)).canonical = _ :=
      fun fields hf => canonical_fieldsJson (hkeys fields hf) (hkwargs fields hf)
    refine hterm id offset (canonical_only
      (canonical_object ["args", "kwargs", "name"] ?_ (by decide) ?_))
    · cases kwargs <;> simp [Table.keys, memberOf, kwargsJson]
    · simp only [List.forall_mem_cons, List.forall_mem_append, forall_mem_memberOf,
        kwargsJson_eq_map, Option.forall_mem_map]
      exact ⟨canonical_listJson hargs, hkw, rfl, List.forall_mem_nil _⟩
  | expression id offset operator _ ih =>
    refine hterm id offset (canonical_only
      (canonical_object ["args", "operator"] (List.Sublist.refl _) (by decide) ?_))
    simp only [List.forall_mem_cons]
    exact ⟨canonical_listJson ih, rfl, List.forall_mem_nil _⟩
  | pattern id offset tag hkeys _ ih =>
    have hfields : (Json.object [("fields", .object (fieldsJson _))]).canonical = _ :=
      canonical_only (canonical_fieldsJson hkeys ih)
    rcases tag with _ | tag
    · exact hterm id offset (canonical_only (canonical_only hfields))
    · refine hterm id offset (canonical_only (canonical_only
        (canonical_object ["fields", "tag"] (List.Sublist.refl _) (by decide) ?_)))
      simp only [List.forall_mem_cons]
      exact ⟨hfields, rfl, List.forall_mem_nil _⟩

end Write

/-! ### Reading -/

section Read

variable {json : Json} {members : List (String × Json)}

lemma exists_of_spellsOption {β : Type} {R : Json → β → Prop} {found : Option Json} {b : β}
    (h : Json.SpellsOption R found (some b)) : ∃ json, found = some json ∧ R json b := by
  cases h with
  | present hb => exact ⟨_, rfl, hb⟩

/-- The terms of a list are in order if what is read as a term is. -/
lemma ordered_of_spellsList {items : List Term} (hjson : json.canonical = json)
    (h : Json.SpellsList Json.Spells json items)
    (ih : ∀ t ∈ items, ∀ json : Json, json.Spells t → json.canonical = json → t.Ordered) :
    ∀ t ∈ items, t.Ordered := by
  obtain ⟨h⟩ := h
  intro t ht
  obtain ⟨item, hi, hspells⟩ := forall₂_exists_left h ht
  exact ih t ht item hspells (Json.canonical_array_iff.mp hjson item hi)

lemma ordered_of_spellsTable {fields : List (String × Term)} (hjson : json.canonical = json)
    (h : Json.SpellsTable Json.Spells json fields)
    (ih : ∀ e ∈ fields, ∀ json : Json, json.Spells e.2 → json.canonical = json → e.2.Ordered) :
    Table.Ascending fields ∧ ∀ e ∈ fields, e.2.Ordered := by
  obtain ⟨h⟩ := h
  obtain ⟨hkeys, hvalues⟩ := Json.canonical_object_iff.mp hjson
  have hentries := spellsEntries_iff.mp h
  refine ⟨?_, fun e he => ?_⟩
  · have hsame : Table.keys _ = Table.keys fields :=
      Table.keys_eq_keys_iff.mpr (hentries.imp fun _ _ hme => ⟨hme.1, trivial⟩)
    rw [Table.ascending_iff_keys] at hkeys ⊢
    rwa [← hsame]
  · obtain ⟨m, hm, -, hspells⟩ := forall₂_exists_left hentries he
    exact ih e he m.2 hspells (hvalues m hm)

lemma ordered_of_spellsDictionary {fields : List (String × Term)} (hjson : json.canonical = json)
    (h : Json.SpellsDictionary Json.Spells json fields)
    (ih : ∀ e ∈ fields, ∀ json : Json, json.Spells e.2 → json.canonical = json → e.2.Ordered) :
    Table.Ascending fields ∧ ∀ e ∈ fields, e.2.Ordered := by
  obtain ⟨hlookup, htable⟩ := h
  exact ordered_of_spellsTable (Json.canonical_of_lookup hjson hlookup) htable ih

/-- What stands under the tag of a term is two levels down in the tree that spells it. -/
lemma exists_spellsPayload {id offset : UInt64} {value : Payload Term}
    (h : json.Spells ⟨id, offset, value⟩) :
    ∃ tag inner, Json.SpellsPayload Json.Spells tag inner value ∧ inner.depth + 2 ≤ json.depth ∧
      (json.canonical = json → inner.canonical = inner) := by
  obtain ⟨-, -, hvalue, -, hpayload⟩ := h
  refine ⟨_, _, hpayload, ?_, fun hjson => ?_⟩
  · have hlt := Json.depth_lt_of_lookup hvalue
    rw [Json.depth, Json.membersDepth, Json.membersDepth, Nat.max_zero] at hlt
    omega
  · have honly := Json.canonical_of_lookup hjson hvalue
    exact (Json.canonical_object_iff.mp honly).2 _ List.mem_cons_self

/-- **A canonical tree spells a term whose tables are in order.** -/
lemma ordered_of_spells {t : Term} (h : json.Spells t) (hjson : json.canonical = json) :
    t.Ordered := by
  induction t generalizing json with
  | string | boolean | number | var => constructor
  | list id offset items ih =>
    obtain ⟨_, _, hpayload, -, hinner⟩ := exists_spellsPayload h
    cases hpayload with
    | list hitems =>
      exact .list id offset
        (ordered_of_spellsList (hinner hjson) hitems fun t ht _ => ih t ht)
  | dictionary id offset fields ih =>
    obtain ⟨_, _, hpayload, -, hinner⟩ := exists_spellsPayload h
    cases hpayload with
    | dictionary hfields =>
      obtain ⟨hkeys, hvalues⟩ :=
        ordered_of_spellsDictionary (hinner hjson) hfields fun e he _ => ih e he
      exact .dictionary id offset hkeys hvalues
  | external id offset handle ih =>
    obtain ⟨_, _, hpayload, -, hinner⟩ := exists_spellsPayload h
    cases hpayload with
    | external _ _ hconstructor =>
      refine .external id offset fun t ht => ?_
      rw [Option.mem_def.mp ht] at hconstructor
      obtain ⟨json', hlookup, hspells⟩ := exists_of_spellsOption hconstructor
      exact ih t ht hspells (Json.canonical_of_lookup (hinner hjson) hlookup)
  | call id offset name args kwargs hargs hkwargs =>
    obtain ⟨_, _, hpayload, -, hinner⟩ := exists_spellsPayload h
    cases hpayload with
    | call _ hlookup hitems hfields =>
      have hall : ∀ fields ∈ kwargs,
          Table.Ascending fields ∧ ∀ e ∈ fields, e.2.Ordered := by
        intro fields hf
        rw [Option.mem_def.mp hf] at hfields
        obtain ⟨json', hfound, htable⟩ := exists_of_spellsOption hfields
        exact ordered_of_spellsTable (Json.canonical_of_lookup (hinner hjson) hfound) htable
          fun e he _ => hkwargs fields hf e he
      exact .call id offset name
        (ordered_of_spellsList (Json.canonical_of_lookup (hinner hjson) hlookup) hitems
          fun t ht _ => hargs t ht)
        (fun fields hf => (hall fields hf).1) fun fields hf => (hall fields hf).2
  | expression id offset operator args ih =>
    obtain ⟨_, _, hpayload, -, hinner⟩ := exists_spellsPayload h
    cases hpayload with
    | expression _ hlookup hitems =>
      exact .expression id offset operator (ordered_of_spellsList
        (Json.canonical_of_lookup (hinner hjson) hlookup) hitems fun t ht _ => ih t ht)
  | pattern id offset tag fields ih =>
    obtain ⟨_, _, hpayload, -, hinner⟩ := exists_spellsPayload h
    have hdictionary : ∃ json : Json, json.canonical = json ∧
        Json.SpellsDictionary Json.Spells json fields := by
      cases hpayload with
      | taggedPattern _ hlookup hfields =>
        have hmembers := (Json.canonical_object_iff.mp (hinner hjson)).2 _ List.mem_cons_self
        exact ⟨_, Json.canonical_of_lookup hmembers hlookup, hfields⟩
      | barePattern hfields =>
        exact ⟨_, (Json.canonical_object_iff.mp (hinner hjson)).2 _ List.mem_cons_self, hfields⟩
    obtain ⟨json, hcanonical, hfields⟩ := hdictionary
    obtain ⟨hkeys, hvalues⟩ := ordered_of_spellsDictionary hcanonical hfields fun e he _ => ih e he
    exact .pattern id offset tag hkeys hvalues

end Read

end Term

end HostBridge
