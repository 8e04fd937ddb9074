import HostBridge.Proofs.Codec.Traversal
import HostBridge.Proofs.Value.Normal

/-!
What becomes of a value that is sent as a term and read again.

While a value is encoded the table of instances goes on growing, and it may have grown further
when the term is read. The argument follows a value that was encoded somewhere on the way to a
fixed table: its objects are bound there, each to an id whose handle names the same object, and
no later table forgets them.
-/

namespace HostBridge

variable {α : Type}

namespace Instances

/-- The handle by which the table holds an object; an object that it does not hold is its own. -/
def held (s : Instances α) (o : Object α) : Object α := ((s.idOf? o).bind s.object?).getD o

lemma held_of_idOf {s : Instances α} {o p : Object α} {i : InstanceId} (hi : s.idOf? o = some i)
    (hp : s.object? i = some p) : s.held o = p := by
  rw [held, hi, Option.bind_some, hp, Option.getD_some]

lemma held_of_idOf_none {s : Instances α} {o : Object α} (h : s.idOf? o = none) :
    s.held o = o := by
  rw [held, h]; rfl

lemma Reachable.same_held {s : Instances α} (hs : s.Reachable) (o : Object α) :
    (s.held o).same o = true := by
  rcases h : s.idOf? o with _ | i
  · rw [held_of_idOf_none h, Object.same_self]
  · obtain ⟨p, hp, hsame⟩ := hs.object_of_idOf h
    rw [held_of_idOf h hp, hsame]

/-- A table whose handles of an object agree with it gives the object back as it is. -/
lemma Reachable.held_eq_self {s : Instances α} (hs : s.Reachable) {o : Object α}
    (h : ∀ i p, s.object? i = some p → p.same o = true → p = o) : s.held o = o := by
  rcases ho : s.idOf? o with _ | i
  · exact held_of_idOf_none ho
  · obtain ⟨p, hp, hsame⟩ := hs.object_of_idOf ho
    rw [held_of_idOf ho hp, h i p hp hsame]

end Instances

namespace Codec

variable (c : Codec α)

/-! ### Values that can come back -/

/-- A value without references and, unless expressions may be decoded, without expressions. -/
structure Returns (v : Value α) : Prop where
  reference : ∀ handle, .reference handle ∉ v.parts
  expression : c.acceptExpression = false →
    ∀ operator args, .expression operator args ∉ v.parts

variable {c}

lemma Returns.inside {v w : Value α} (h : c.Returns v) (hsub : ∀ p ∈ w.parts, p ∈ v.parts) :
    c.Returns w :=
  ⟨fun handle hp => h.reference handle (hsub _ hp),
    fun hoff operator args hp => h.expression hoff operator args (hsub _ hp)⟩

/-! ### Encoding on the way to a table -/

section Way

variable (c) (table later : Instances α)

/--
Wherever on the way to a table a value is encoded, its term is read later as the value's normal
form, with the handles of that table.
-/
def Recovers (v : Value α) : Prop :=
  ∀ s t s', s.Reachable → c.encode v s = .ok t s' → s'.Extends table →
    c.decodeResolved later t = .ok (v.normal c.nil table.held)

variable {c table later}

lemma recovers_reference {o : Object α} {repr : String} {classRepr : Option String}
    {s s' : Instances α} {t : Term} (hlater : table.Extends later) (hs : s.Reachable)
    (h : encodeReference o repr classRepr s = .ok t s') (hs' : s'.Extends table) :
    c.decodeResolved later t =
      .ok (if o.same c.nil then .nil else .object (table.held o)) := by
  rw [encodeReference, Step.bind_pure_eq_ok] at h
  obtain ⟨id, hid, rfl⟩ := h
  have hregister := Step.widen_eq_ok.mp hid
  have hreach : s'.Reachable := by
    have hafter := hs.after (.register o)
    rwa [Instances.Action.after, Step.left_of_ok hregister] at hafter
  have hidOf := Instances.idOf_of_register hregister
  obtain ⟨p, hp, hsame⟩ := hreach.object_of_idOf hidOf
  have hheld : table.held o = p := Instances.held_of_idOf (hs'.idOf hidOf) (hs'.object hp)
  have hget : later.get id = .ok p := Instances.get_eq_ok.mpr (hlater.object (hs'.object hp))
  have hnil : p.same c.nil = o.same c.nil := by
    have ha : p.address = o.address := by simpa [Object.same] using hsame
    simp only [Object.same, ha]
  refine c.decodeResolved_eq_ok.mpr ⟨_, rfl, ?_⟩
  rw [resolveValue, resolveHandle]
  simp only [hget, hnil, hheld]

lemma Recovers.of_within {v : Value α} {t : Term} {s s' : Instances α}
    (hv : Recovers c table later v) (hs : s.Reachable) (h : c.EncodedWithin s s' v t)
    (hs' : s'.Extends table) : c.decodeResolved later t = .ok (v.normal c.nil table.held) := by
  obtain ⟨s₁, s₂, h₁, ht, h₂⟩ := h
  exact hv s₁ t s₂ (Instances.reachable_of_registers h₁ hs) ht
    ((Instances.extends_of_registers h₂).trans hs')

/-- The items of a list are read back if each item is recovered. -/
lemma recovers_items {items : List (Value α)} {s s' : Instances α} {ts : List Term}
    (hs : s.Reachable) (ih : ∀ v ∈ items, Recovers c table later v)
    (h : encodeList c items s = .ok ts s') (hs' : s'.Extends table) :
    ∃ vs, decodeList c.acceptExpression ts = .ok vs ∧
      resolveList later c.nil vs = .ok (Value.listNormal c.nil table.held items) := by
  refine decodeResolved_items.mpr ?_
  rw [Value.listNormal_eq_map, List.forall₂_map_right_iff]
  refine (forall₂_imp_left (fun v hv t hvt => ?_) (encodedWithin_items h)).flip
  exact (ih v hv).of_within hs hvt hs'

lemma recovers_entries {fields : List (String × Value α)} {s s' : Instances α}
    {ts : List (String × Term)} (hs : s.Reachable)
    (ih : ∀ e ∈ fields, Recovers c table later e.2)
    (h : encodeFields c fields s = .ok ts s') (hs' : s'.Extends table) :
    ∃ vs, decodeFields c.acceptExpression ts = .ok vs ∧
      resolveFields later c.nil vs = .ok (Value.fieldsNormal c.nil table.held fields) := by
  refine decodeResolved_entries.mpr ?_
  rw [Value.fieldsNormal_eq_map, List.forall₂_map_right_iff]
  refine (forall₂_imp_left (fun e he f hef => ?_) (encodedWithin_entries h)).flip
  exact ⟨hef.1.symm, (ih e he).of_within hs hef.2 hs'⟩

/--
Pairs are encoded only if their keys are text, so every pair has its entry; and of a repeated key
the sender and the reader both keep the last one.
-/
lemma recovers_pairs {pairs : List (Value α × Value α)} {s s' : Instances α}
    {ts : List (String × Term)} (hs : s.Reachable)
    (ih : ∀ e ∈ pairs, Recovers c table later e.2)
    (h : encodePairs c pairs s = .ok ts s') (hs' : s'.Extends table) :
    ∃ vs, decodeFields c.acceptExpression (Table.ofList ts) = .ok vs ∧
      resolveFields later c.nil vs =
        .ok (Table.ofList (Value.pairsNormal c.nil table.held pairs)) := by
  rw [encodePairs_eq_mapM] at h
  have hway := Step.forall₂_of_mapM_eq_ok
    (fun e _ => closed_encodePair c (Step.closed_moves _) (moves_encode c e.2)) h
  have hboth := (List.forall₂_and_left _ _).mpr ⟨ih, hway⟩
  refine decodeResolved_entries.mpr (Table.forall₂_ofList ?_)
  clear h hway ih
  induction hboth with
  | nil => exact .nil
  | @cons e f pairs ts hef _ ihrest =>
    obtain ⟨k, v⟩ := e
    obtain ⟨hv, s₁, s₂, h₁, hf, h₂⟩ := hef
    cases k with
    | string key =>
      obtain ⟨hkey, ht⟩ := Step.onValue_eq_ok.mp hf
      rw [Value.pairsNormal]
      exact .cons ⟨hkey.symm, hv.of_within hs ⟨s₁, s₂, h₁, ht, h₂⟩ hs'⟩ ihrest
    | _ => cases hf

lemma recovers_kwargs {kwargs : Option (List (String × Value α))} {s s' : Instances α}
    {ts : Option (List (String × Term))} (hs : s.Reachable)
    (ih : ∀ fields ∈ kwargs, ∀ e ∈ fields, Recovers c table later e.2)
    (h : encodeKwargs c kwargs s = .ok ts s') (hs' : s'.Extends table) :
    ∃ vs, decodeKwargs c.acceptExpression ts = .ok vs ∧
      resolveKwargs later c.nil vs = .ok (Value.kwargsNormal c.nil table.held kwargs) := by
  rcases kwargs with _ | fields
  · rw [encodeKwargs, Step.pure_eq_ok] at h
    obtain ⟨rfl, -⟩ := h
    exact ⟨none, rfl, rfl⟩
  · rw [encodeKwargs, Step.bind_pure_eq_ok] at h
    obtain ⟨fts, hfts, rfl⟩ := h
    obtain ⟨vs, hdecode, hresolve⟩ := recovers_entries hs (ih fields rfl) hfts hs'
    refine ⟨some vs, ?_, ?_⟩
    · rw [decodeKwargs, hdecode]; rfl
    · rw [resolveKwargs, hresolve]; rfl

/-- Every value that can come back is recovered, at every table past the one on the way. -/
lemma recovers (hlater : table.Extends later) (v : Value α) (hv : c.Returns v) :
    Recovers c table later v := by
  induction v with
  | nil =>
    intro s t s' hs h hs'
    rw [recovers_reference hlater hs h hs', if_pos (Object.same_self _)]
    rfl
  | boolean | integer | float | string | var =>
    intro s t s' _ h _
    rw [encode, Step.pure_eq_ok] at h
    obtain ⟨rfl, -⟩ := h
    rfl
  | reference handle => exact absurd (Value.self_mem_parts _) (hv.reference handle)
  | object o =>
    intro s t s' hs h hs'
    rw [Value.normal]
    exact recovers_reference hlater hs (encodeObject_eq_ok h) hs'
  | list items ih =>
    intro s t s' hs h hs'
    rw [encode, Step.bind_pure_eq_ok] at h
    obtain ⟨ts, hts, rfl⟩ := h
    obtain ⟨vs, hdecode, hresolve⟩ := recovers_items hs
      (fun w hw => ih w hw (hv.inside fun p hp => Value.mem_parts_list hw hp)) hts hs'
    refine c.decodeResolved_eq_ok.mpr ⟨.list vs, ?_, ?_⟩
    · rw [Term.ofHost, decodeTerm, hdecode]; rfl
    · rw [resolveValue, hresolve, Value.normal]; rfl
  | dictionary fields ih =>
    intro s t s' hs h hs'
    rw [encode, Step.bind_pure_eq_ok] at h
    obtain ⟨ts, hts, rfl⟩ := h
    obtain ⟨vs, hdecode, hresolve⟩ := recovers_entries hs
      (fun e he => ih e he (hv.inside fun p hp => Value.mem_parts_dictionary he hp)) hts hs'
    refine c.decodeResolved_eq_ok.mpr ⟨.dictionary vs, ?_, ?_⟩
    · rw [Term.ofHost, decodeTerm, hdecode]; rfl
    · rw [resolveValue, hresolve, Value.normal]; rfl
  | map pairs _ ih =>
    intro s t s' hs h hs'
    rw [encode, Step.bind_pure_eq_ok] at h
    obtain ⟨ts, hts, rfl⟩ := h
    obtain ⟨vs, hdecode, hresolve⟩ := recovers_pairs hs
      (fun e he => ih e he (hv.inside fun p hp => Value.mem_parts_map he hp)) hts hs'
    refine c.decodeResolved_eq_ok.mpr ⟨.dictionary vs, ?_, ?_⟩
    · rw [Term.ofHost, decodeTerm, hdecode]; rfl
    · rw [resolveValue, hresolve, Value.normal]; rfl
  | predicate name args kwargs hargs hkwargs =>
    intro s t s' hs h hs'
    rw [encode, Step.bind_eq_ok] at h
    obtain ⟨ts, s₁, hts, h⟩ := h
    rw [Step.bind_pure_eq_ok] at h
    obtain ⟨kts, hkts, rfl⟩ := h
    -- the arguments are encoded first, and the keyword arguments only add to the table
    have hreach : s₁.Reachable := Instances.reachable_of_registers (registers_encodeList hts) hs
    have hrest : s₁.Extends s' := Instances.extends_of_registers (registers_encodeKwargs hkts)
    obtain ⟨vs, hdecode, hresolve⟩ := recovers_items hs
      (fun w hw => hargs w hw (hv.inside fun p hp => Value.mem_parts_args hw hp)) hts
      (hrest.trans hs')
    obtain ⟨kvs, hkdecode, hkresolve⟩ := recovers_kwargs hreach
      (fun fields hf e he => hkwargs fields hf e he (hv.inside fun p hp => by
        cases hf; exact Value.mem_parts_kwargs he hp)) hkts hs'
    refine c.decodeResolved_eq_ok.mpr ⟨.predicate name vs kvs, ?_, ?_⟩
    · rw [Term.ofHost, decodeTerm, hdecode, hkdecode]; rfl
    · rw [resolveValue, hresolve, hkresolve, Value.normal]; rfl
  | expression operator args ih =>
    intro s t s' hs h hs'
    have haccept : c.acceptExpression = true := by
      rcases ha : c.acceptExpression with _ | _
      · exact absurd (Value.self_mem_parts _) (hv.expression ha operator args)
      · rfl
    rw [encode, Step.bind_pure_eq_ok] at h
    obtain ⟨ts, hts, rfl⟩ := h
    obtain ⟨vs, hdecode, hresolve⟩ := recovers_items hs
      (fun w hw => ih w hw (hv.inside fun p hp => Value.mem_parts_expression hw hp)) hts hs'
    refine c.decodeResolved_eq_ok.mpr ⟨.expression operator vs, ?_, ?_⟩
    · rw [Term.ofHost, decodeTerm, hdecode, if_pos haccept]; rfl
    · rw [resolveValue, hresolve, Value.normal]; rfl
  | pattern tag fields ih =>
    intro s t s' hs h hs'
    rw [encode, Step.bind_pure_eq_ok] at h
    obtain ⟨ts, hts, rfl⟩ := h
    obtain ⟨vs, hdecode, hresolve⟩ := recovers_entries hs
      (fun e he => ih e he (hv.inside fun p hp => Value.mem_parts_pattern he hp)) hts hs'
    refine c.decodeResolved_eq_ok.mpr ⟨.pattern tag vs, ?_, ?_⟩
    · rw [Term.ofHost, decodeTerm, hdecode]; rfl
    · rw [resolveValue, hresolve, Value.normal]; rfl

end Way

/-! ### Reading at a later table -/

/-- What may be done to the table, other than to clear it; a call may fail. -/
inductive Grows : Instances α → Instances α → Prop
  | register (s : Instances α) (o : Object α) : Grows s (Step.left (Instances.register o) s)
  | registerWithId (s : Instances α) (o : Object α) (id : InstanceId) :
      Grows s (Step.left (Instances.registerWithId o id) s)
  | encode (s : Instances α) (c : Codec α) (v : Value α) : Grows s (Step.left (c.encode v) s)

lemma extends_of_grows {s s' : Instances α} (h : Relation.ReflTransGen Grows s s') :
    s.Extends s' := by
  induction h with
  | refl => exact Instances.Extends.refl s
  | tail _ hstep ih =>
    refine ih.trans ?_
    cases hstep with
    | register o => exact Instances.Extends.register _ o
    | registerWithId o id => exact Instances.Extends.registerWithId _ o id
    | encode c v => exact Instances.extends_of_registers (moves_encode c v _)

/-- Where the table holds an object of the value, it does so by the handle that the value has. -/
def Agrees (s : Instances α) (v : Value α) : Prop :=
  ∀ o, .object o ∈ v.parts → ∀ i p, s.object? i = some p → p.same o = true → p = o

/--
**Round trip.** Let a value without references, and without expressions unless these may be
decoded, be encoded in a table that the calls of a session can lead to. However the table grows
from then on, its term is read as the normal form of the value: each table with any keys has
become a dictionary, each occurrence of the nil object the absent value, and each other object
stands as some handle of itself. If the table has no other handles of the objects than those in
the value, then these come back; and then a value without tables with any keys and without the
nil object comes back as it was.
-/
theorem decodeResolved_encode {s s' : Instances α} {v : Value α} {t : Term} (hs : s.Reachable)
    (hv : c.Returns v) (h : c.encode v s = .ok t s') :
    (∃ held : Object α → Object α, (∀ o, (held o).same o = true) ∧
      ∀ later, Relation.ReflTransGen Grows s' later →
        c.decodeResolved later t = .ok (v.normal c.nil held)) ∧
    (Agrees s' v → ∀ later, Relation.ReflTransGen Grows s' later →
      c.decodeResolved later t = .ok (v.normal c.nil id) ∧
      (v.IsNormal c.nil → c.decodeResolved later t = .ok v)) := by
  have hs' : s'.Reachable := Instances.reachable_of_registers (registers_encode h) hs
  have hread : ∀ later, Relation.ReflTransGen Grows s' later →
      c.decodeResolved later t = .ok (v.normal c.nil s'.held) := fun later hlater =>
    recovers (extends_of_grows hlater) v hv s t s' hs h (Instances.Extends.refl s')
  refine ⟨⟨s'.held, hs'.same_held, hread⟩, fun hagree later hlater => ?_⟩
  have hheld : v.normal c.nil s'.held = v.normal c.nil id :=
    v.normal_congr fun o ho => hs'.held_eq_self (hagree o ho)
  have hsame := hread later hlater
  rw [hheld] at hsame
  refine ⟨hsame, fun hnormal => ?_⟩
  rw [hsame, v.normal_eq_self hnormal]

/-- One object at two places, the absent value, and two entries under one key. -/
theorem decodeResolved_encode_shared :
    let c : Codec Unit := ⟨.empty, ⟨0, .nil⟩, false, false⟩
    let o : Object Unit := ⟨1, .classHandle "Post"⟩
    let v : Value Unit := .list [.object o, .nil, .map [(.string "a", .integer 7),
      (.string "a", .object o)]]
    ∃ t s', c.encode v .empty = .ok t s' ∧ ∀ later, Relation.ReflTransGen Grows s' later →
      c.decodeResolved later t =
        .ok (.list [.object o, .nil, .dictionary [("a", .object o)]]) := by
  intro c o v
  have hreturns : c.Returns v :=
    ⟨by simp [v, Value.parts, Value.listParts, Value.pairsParts],
      by simp [v, Value.parts, Value.listParts, Value.pairsParts]⟩
  have hnormal : v.normal c.nil id = .list [.object o, .nil, .dictionary [("a", .object o)]] := by
    simp [v, c, o, Value.normal, Value.listNormal, Value.pairsNormal, Object.same, Table.ofList,
      Table.insert]
  refine ⟨_, _, rfl, fun later hlater => ?_⟩
  rw [← hnormal]
  refine ((decodeResolved_encode Instances.reachable_empty hreturns rfl).2 ?_ later hlater).1
  intro p hp i q hq hsame
  have hpo : p = o := by
    simpa [v, Value.parts, Value.listParts, Value.pairsParts] using hp
  -- the table holds this object and the nil object
  have hmem : (i, q) ∈ [((1 : InstanceId), o), (2, c.nil)] := by
    obtain ⟨before, after, hsplit, -⟩ := List.lookup_eq_some_iff.mp hq
    have hmid : (i, q) ∈ before ++ (i, q) :: after := by simp
    rw [← hsplit] at hmid
    exact hmid
  rcases List.mem_cons.mp hmem with h | h
  · cases h; exact hpo.symm
  · rw [List.mem_singleton] at h
    cases h
    rw [hpo] at hsame
    cases hsame

end Codec

end HostBridge
