import HostBridge.Codec
import HostBridge.Proofs.Instances.Coherence
import HostBridge.Proofs.Value.Parts

/-!
The traversals of the codec.

Decoding, resolving and encoding walk over lists and tables item by item. Decoding and resolving
succeed when they succeed at every item. Encoding moves the table of instances on as it goes,
and all that it does to the table is to register objects.
-/

namespace HostBridge

variable {α : Type}

namespace Codec

/-! ### Decoding and resolving -/

section Decode

variable (acceptExpression : Bool)

lemma decodeList_eq_mapM (items : List Term) :
    decodeList (α := α) acceptExpression items = items.mapM (decodeTerm acceptExpression) := by
  induction items with
  | nil => rfl
  | cons t rest ih => rw [decodeList, ih, List.mapM_cons]; rfl

lemma decodeFields_eq_mapM (fields : List (String × Term)) :
    decodeFields (α := α) acceptExpression fields =
      fields.mapM (onValue (decodeTerm acceptExpression)) := by
  induction fields with
  | nil => rfl
  | cons e rest ih =>
    obtain ⟨key, t⟩ := e
    rw [decodeFields, ih, List.mapM_cons, onValue]
    cases decodeTerm (α := α) acceptExpression t <;> rfl

end Decode

section Resolve

variable (instances : Instances α) (nilObject : Object α)

lemma resolveList_eq_mapM (items : List (Value α)) :
    resolveList instances nilObject items = items.mapM (resolveValue instances nilObject) := by
  induction items with
  | nil => rfl
  | cons v rest ih => rw [resolveList, ih, List.mapM_cons]; rfl

lemma resolveFields_eq_mapM (fields : List (String × Value α)) :
    resolveFields instances nilObject fields =
      fields.mapM (onValue (resolveValue instances nilObject)) := by
  induction fields with
  | nil => rfl
  | cons e rest ih =>
    obtain ⟨key, v⟩ := e
    rw [resolveFields, ih, List.mapM_cons, onValue]
    cases resolveValue instances nilObject v <;> rfl

variable {instances nilObject} in
/-- A handle stands for the object that is bound to its id. -/
lemma resolveHandle_eq_ok {handle : Handle Term} {w : Value α} :
    resolveHandle instances nilObject handle = .ok w ↔
      ∃ o, instances.object? handle.id = some o ∧
        w = if o.same nilObject then .nil else .object o := by
  unfold resolveHandle Instances.get
  rcases instances.object? handle.id with _ | o
  · exact ⟨nofun, fun ⟨_, ho, _⟩ => nomatch ho⟩
  · constructor
    · intro h; exact ⟨o, rfl, (Except.ok.inj h).symm⟩
    · rintro ⟨p, hp, rfl⟩; cases hp; rfl

/-- A pair with both of its values resolved. -/
def resolvePair (pair : Value α × Value α) : Except InstanceError (Value α × Value α) := do
  let k ← resolveValue instances nilObject pair.1
  let v ← resolveValue instances nilObject pair.2
  .ok (k, v)

lemma resolvePairs_eq_mapM (pairs : List (Value α × Value α)) :
    resolvePairs instances nilObject pairs =
      pairs.mapM (resolvePair instances nilObject) := by
  induction pairs with
  | nil => rfl
  | cons e rest ih =>
    obtain ⟨k, v⟩ := e
    rw [resolvePairs, ih, List.mapM_cons, resolvePair]
    cases resolveValue instances nilObject k with
    | error => rfl
    | ok => cases resolveValue instances nilObject v <;> rfl

variable {instances nilObject}

lemma resolvePair_eq_ok {e f : Value α × Value α} :
    resolvePair instances nilObject e = .ok f ↔
      resolveValue instances nilObject e.1 = .ok f.1 ∧
      resolveValue instances nilObject e.2 = .ok f.2 := by
  unfold resolvePair
  constructor
  · intro h
    obtain ⟨k, hk, h⟩ := Result.bind_eq_ok.mp h
    obtain ⟨v, hv, h⟩ := Result.bind_eq_ok.mp h
    cases h
    exact ⟨hk, hv⟩
  · rintro ⟨hk, hv⟩
    exact Result.bind_eq_ok.mpr ⟨_, hk, Result.bind_eq_ok.mpr ⟨_, hv, rfl⟩⟩

end Resolve

variable (c : Codec α)

lemma decodeResolved_eq_ok {instances : Instances α} {t : Term} {w : Value α} :
    c.decodeResolved instances t = .ok w ↔
      ∃ v, decodeTerm c.acceptExpression t = .ok v ∧ resolveValue instances c.nil v = .ok w := by
  simp only [decodeResolved, Result.bind_eq_ok, decode, resolve, Result.mapError_eq_ok]

variable {c}

/-- Items are read one by one. -/
lemma decodeResolved_items {instances : Instances α} {ts : List Term} {ws : List (Value α)} :
    (∃ vs, decodeList c.acceptExpression ts = .ok vs ∧
      resolveList instances c.nil vs = .ok ws) ↔
    List.Forall₂ (fun t w => c.decodeResolved instances t = .ok w) ts ws := by
  simp only [decodeResolved_eq_ok, decodeList_eq_mapM, resolveList_eq_mapM, Result.mapM_eq_ok]
  constructor
  · rintro ⟨vs, hdecode, hresolve⟩
    exact forall₂_trans (fun _ _ v _ _ _ hv hw => ⟨v, hv, hw⟩) hdecode hresolve
  · exact exists_forall₂_comp

/-- Entries are read one by one, and keep their keys. -/
lemma decodeResolved_entries {instances : Instances α} {ts : List (String × Term)}
    {ws : List (String × Value α)} :
    (∃ vs, decodeFields c.acceptExpression ts = .ok vs ∧
      resolveFields instances c.nil vs = .ok ws) ↔
    List.Forall₂ (Table.Corresponds fun t w => c.decodeResolved instances t = .ok w) ts ws := by
  simp only [decodeFields_eq_mapM, resolveFields_eq_mapM, Result.mapM_eq_ok]
  constructor
  · rintro ⟨vs, hdecode, hresolve⟩
    refine forall₂_trans (fun e _ d _ f _ hd hf => ?_) hdecode hresolve
    obtain ⟨hkey, hv⟩ := Result.onValue_eq_ok.mp hd
    obtain ⟨hkey', hw⟩ := Result.onValue_eq_ok.mp hf
    exact ⟨hkey.trans hkey', c.decodeResolved_eq_ok.mpr ⟨d.2, hv, hw⟩⟩
  · intro h
    refine exists_forall₂_comp (h.imp fun e f hef => ?_)
    obtain ⟨hkey, hvalue⟩ := hef
    obtain ⟨v, hv, hw⟩ := c.decodeResolved_eq_ok.mp hvalue
    exact ⟨(e.1, v), Result.onValue_eq_ok.mpr ⟨rfl, hv⟩, Result.onValue_eq_ok.mpr ⟨hkey, hw⟩⟩

variable (c)

/-! ### Encoding -/

/-- The entry of a pair, whose key must be text. -/
def encodePair : Value α × Value α → Step (Instances α) (String × Term)
  | (.string key, v) => onValue (encode c) (key, v)
  | (key, _) => throw (.term (.keyNotText key.shown))

lemma encodeList_eq_mapM (items : List (Value α)) :
    encodeList c items = items.mapM (encode c) := by
  induction items with
  | nil => rfl
  | cons v rest ih => rw [encodeList, ih, List.mapM_cons]

lemma encodeFields_eq_mapM (fields : List (String × Value α)) :
    encodeFields c fields = fields.mapM (onValue (encode c)) := by
  induction fields with
  | nil => rfl
  | cons e rest ih =>
    obtain ⟨key, v⟩ := e
    rw [encodeFields, ih, List.mapM_cons, onValue, bind_map_left]

lemma encodePairs_eq_mapM (pairs : List (Value α × Value α)) :
    encodePairs c pairs = pairs.mapM (encodePair c) := by
  induction pairs with
  | nil => rfl
  | cons e rest ih =>
    obtain ⟨k, v⟩ := e
    rw [List.mapM_cons]
    cases k <;> try rfl
    rw [encodePairs, ih, encodePair, onValue, bind_map_left]

variable {c}

/-- An object that may be sent is sent as a reference, with the class that stands for its type. -/
lemma encodeObject_eq_ok {o : Object α} {s s' : Instances α} {t : Term}
    (h : encodeObject c o s = .ok t s') :
    encodeReference o o.repr (c.classes.classOf? o) s = .ok t s' := by
  unfold encodeObject at h
  rcases hclass : c.classes.classOf? o with _ | name
  · rw [hclass] at h
    rcases hreject : c.rejectUnregistered with _ | _
    · simp only [hreject] at h
      exact h
    · simp only [hreject, if_true] at h
      cases h
  · rw [hclass] at h
    exact h

variable (c)

/-! ### Properties of encoding -/

section Closed

variable {P : ∀ β : Type, Step (Instances α) β → Prop}

lemma closed_encodePair (hP : Step.Closed P) {e : Value α × Value α}
    (h : P Term (encode c e.2)) : P (String × Term) (encodePair c e) := by
  obtain ⟨k, v⟩ := e
  cases k with
  | string key => exact hP.onValue h
  | _ => exact hP.throw _

lemma closed_encodeKwargs (hP : Step.Closed P) {kwargs : Option (List (String × Value α))}
    (h : ∀ fields ∈ kwargs, ∀ e ∈ fields, P Term (encode c e.2)) :
    P (Option (List (String × Term))) (encodeKwargs c kwargs) := by
  rcases kwargs with _ | fields
  · exact hP.pure _
  · rw [encodeKwargs, encodeFields_eq_mapM]
    exact hP.bind (hP.mapM fun e he => hP.onValue (h fields rfl e he)) fun _ => hP.pure _

variable {known : Object α → Prop}

/--
What holds of every registration of an object in the value, and of the nil object if an absent value
is in it, and of sequences, holds of encoding, which is made of nothing else.
-/
lemma closed_encode (hP : Step.Closed P)
    (hregister : ∀ o, known o → P InstanceId (Step.widen (Instances.register o))) (v : Value α)
    (hnil : .nil ∈ v.parts → known c.nil) (h : ∀ o, .object o ∈ v.parts → known o) :
    P Term (encode c v) := by
  have hreference : ∀ {o}, known o → ∀ repr classRepr,
      P Term (encodeReference o repr classRepr) := fun ho _ _ =>
    hP.bind (hregister _ ho) fun _ => hP.pure _
  induction v with
  | nil => exact hreference (hnil (Value.self_mem_parts _)) _ _
  | boolean | integer | float | string | reference | var => exact hP.pure _
  | object o =>
    have ho : known o := h o (Value.self_mem_parts _)
    rw [encode, encodeObject]
    split
    · exact hreference ho _ _
    · split
      · exact hP.throw _
      · exact hreference ho _ _
  | list items ih =>
    rw [encode, encodeList_eq_mapM]
    refine hP.bind (hP.mapM fun v hv => ?_) fun _ => hP.pure _
    exact ih v hv (fun hn => hnil (Value.mem_parts_list hv hn)) fun o ho =>
      h o (Value.mem_parts_list hv ho)
  | dictionary fields ih =>
    rw [encode, encodeFields_eq_mapM]
    refine hP.bind (hP.mapM fun e he => hP.onValue ?_) fun _ => hP.pure _
    exact ih e he (fun hn => hnil (Value.mem_parts_dictionary he hn)) fun o ho =>
      h o (Value.mem_parts_dictionary he ho)
  | map pairs _ ih =>
    rw [encode, encodePairs_eq_mapM]
    refine hP.bind (hP.mapM fun e he => closed_encodePair c hP ?_) fun _ => hP.pure _
    exact ih e he (fun hn => hnil (Value.mem_parts_map he hn)) fun o ho =>
      h o (Value.mem_parts_map he ho)
  | predicate name args kwargs hargs hkwargs =>
    rw [encode, encodeList_eq_mapM]
    refine hP.bind (hP.mapM fun v hv => ?_) fun _ =>
      hP.bind (closed_encodeKwargs c hP fun fields hf e he => ?_) fun _ => hP.pure _
    · exact hargs v hv (fun hn => hnil (Value.mem_parts_args hv hn)) fun o ho =>
        h o (Value.mem_parts_args hv ho)
    · cases hf
      exact hkwargs fields rfl e he (fun hn => hnil (Value.mem_parts_kwargs he hn)) fun o ho =>
        h o (Value.mem_parts_kwargs he ho)
  | expression operator args ih =>
    rw [encode, encodeList_eq_mapM]
    refine hP.bind (hP.mapM fun v hv => ?_) fun _ => hP.pure _
    exact ih v hv (fun hn => hnil (Value.mem_parts_expression hv hn)) fun o ho =>
      h o (Value.mem_parts_expression hv ho)
  | pattern tag fields ih =>
    rw [encode, encodeFields_eq_mapM]
    refine hP.bind (hP.mapM fun e he => hP.onValue ?_) fun _ => hP.pure _
    exact ih e he (fun hn => hnil (Value.mem_parts_pattern he hn)) fun o ho =>
      h o (Value.mem_parts_pattern he ho)

end Closed

/-! ### What encoding does to the table -/

/-- Encoding a value registers objects in it or the nil object, and nothing else is done. -/
lemma moves_encode_in {known : Object α → Prop} (hnil : known c.nil) (v : Value α)
    (h : ∀ o, .object o ∈ v.parts → known o) :
    Step.Moves (Instances.RegistersIn known) (encode c v) := by
  have hregister : ∀ o, known o →
      Step.Moves (Instances.RegistersIn known) (Instances.register o) := fun o ho _ =>
    .single ⟨o, ho, rfl⟩
  exact closed_encode c (Step.closed_moves _) (fun o ho => (hregister o ho).widen) v (fun _ => hnil) h

/-- Encoding a value registers objects and does nothing else to the table. -/
lemma moves_encode (v : Value α) : Step.Moves Instances.Registers (encode c v) :=
  Step.Moves.mono (fun _ _ => Instances.RegistersIn.registers)
    (@moves_encode_in _ c (fun _ => True) trivial v fun _ _ => trivial)

variable {c}

lemma registers_encode {v : Value α} {s s' : Instances α} {t : Term}
    (h : encode c v s = .ok t s') : Relation.ReflTransGen Instances.Registers s s' :=
  (moves_encode c v).of_ok h

lemma registers_encodeList {items : List (Value α)} {s s' : Instances α} {ts : List Term}
    (h : encodeList c items s = .ok ts s') : Relation.ReflTransGen Instances.Registers s s' := by
  rw [encodeList_eq_mapM] at h
  exact Step.Moves.of_ok ((Step.closed_moves _).mapM fun v _ => moves_encode c v) h

lemma registers_encodeKwargs {kwargs : Option (List (String × Value α))} {s s' : Instances α}
    {ts : Option (List (String × Term))} (h : encodeKwargs c kwargs s = .ok ts s') :
    Relation.ReflTransGen Instances.Registers s s' :=
  Step.Moves.of_ok
    (closed_encodeKwargs c (Step.closed_moves _) fun _ _ e _ => moves_encode c e.2) h

/-! ### Values that are encoded on the way -/

section Within

variable {s s' : Instances α}

/-- Somewhere on the way from the one table to the other the value is encoded as the term. -/
def EncodedWithin (c : Codec α) (s s' : Instances α) (v : Value α) (t : Term) : Prop :=
  ∃ s₁ s₂, Relation.ReflTransGen Instances.Registers s s₁ ∧ c.encode v s₁ = .ok t s₂ ∧
    Relation.ReflTransGen Instances.Registers s₂ s'

lemma EncodedWithin.mono {s₁ s₂ : Instances α} {v : Value α} {t : Term}
    (h : c.EncodedWithin s₁ s₂ v t) (hbefore : Relation.ReflTransGen Instances.Registers s s₁)
    (hafter : Relation.ReflTransGen Instances.Registers s₂ s') : c.EncodedWithin s s' v t := by
  obtain ⟨r₁, r₂, h₁, ht, h₂⟩ := h
  exact ⟨r₁, r₂, hbefore.trans h₁, ht, h₂.trans hafter⟩

lemma encodedWithin_items {items : List (Value α)} {ts : List Term}
    (h : encodeList c items s = .ok ts s') : List.Forall₂ (c.EncodedWithin s s') items ts := by
  rw [encodeList_eq_mapM] at h
  exact Step.forall₂_of_mapM_eq_ok (fun v _ => moves_encode c v) h

lemma encodedWithin_entries {fields : List (String × Value α)} {ts : List (String × Term)}
    (h : encodeFields c fields s = .ok ts s') :
    List.Forall₂ (Table.Corresponds (c.EncodedWithin s s')) fields ts := by
  rw [encodeFields_eq_mapM] at h
  refine (Step.forall₂_of_mapM_eq_ok
    (fun e _ => (Step.closed_moves _).onValue (moves_encode c e.2)) h).imp ?_
  rintro e f ⟨s₁, s₂, h₁, hf, h₂⟩
  obtain ⟨hkey, ht⟩ := Step.onValue_eq_ok.mp hf
  exact ⟨hkey, s₁, s₂, h₁, ht, h₂⟩

/-- Pairs are encoded as the entries that they are, or not at all. -/
lemma encodeFields_of_encodePairs {pairs : List (Value α × Value α)}
    {ts : List (String × Term)} (h : encodePairs c pairs s = .ok ts s') :
    ∃ entries, Value.textEntries? pairs = some entries ∧
      encodeFields c entries s = .ok ts s' := by
  induction pairs generalizing s ts with
  | nil => exact ⟨[], rfl, h⟩
  | cons e rest ih =>
    obtain ⟨k, v⟩ := e
    cases k with
    | string key =>
      obtain ⟨t, s₁, ht, h⟩ := Step.bind_eq_ok.mp h
      obtain ⟨rts, hrest, rfl⟩ := Step.bind_pure_eq_ok.mp h
      obtain ⟨entries, hentries, hencode⟩ := ih hrest
      refine ⟨(key, v) :: entries, by rw [Value.textEntries?, hentries]; rfl, ?_⟩
      exact Step.bind_eq_ok.mpr ⟨t, s₁, ht, Step.bind_pure_eq_ok.mpr ⟨rts, hencode, rfl⟩⟩
    | _ => cases h

end Within

end Codec

end HostBridge
