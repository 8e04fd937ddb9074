import HostBridge.Proofs.Codec.Traversal
import HostBridge.Proofs.Term.Induction
import HostBridge.Proofs.Term.Similar

/-!
Similar terms are read alike.

A reference keeps its handle when it is decoded, descriptions and all, and loses it when it is
resolved, which looks at the id alone. So the value of the essence of a term is the essence of its
value, and the two cannot be told apart once references are resolved.
-/

namespace HostBridge

/-- Traversals whose items answer alike up to a map of what they answer with. -/
lemma Result.mapM_map {ε β β' γ γ' : Type} {f : β → Except ε γ} {f' : β' → Except ε γ'}
    {g : β → β'} {k : γ → γ'} {xs : List β} (h : ∀ x ∈ xs, f' (g x) = (f x).map k) :
    (xs.map g).mapM f' = (xs.mapM f).map (List.map k) := by
  induction xs with
  | nil => rfl
  | cons x rest ih =>
    have hx := h x List.mem_cons_self
    have hrest := ih fun y hy => h y (List.mem_cons_of_mem _ hy)
    rw [List.map_cons, List.mapM_cons, List.mapM_cons, hx, hrest]
    rcases f x with e | y
    · rfl
    · rcases rest.mapM f with e | ys <;> rfl

/-- Traversals whose items answer alike. -/
lemma Result.mapM_map_eq {ε β γ : Type} {f : β → Except ε γ} {g : β → β} {xs : List β}
    (h : ∀ x ∈ xs, f (g x) = f x) : (xs.map g).mapM f = xs.mapM f := by
  induction xs with
  | nil => rfl
  | cons x rest ih =>
    have hrest := ih fun y hy => h y (List.mem_cons_of_mem _ hy)
    rw [List.map_cons, List.mapM_cons, List.mapM_cons, h x List.mem_cons_self, hrest]

/-! ### The essence of a value -/

namespace Value

variable {α : Type}

mutual

/-- The value with plain handles in its references. -/
def essence : Value α → Value α
  | .list items => .list (listEssence items)
  | .dictionary fields => .dictionary (fieldsEssence fields)
  | .map pairs => .map (pairsEssence pairs)
  | .reference handle => .reference handle.plain
  | .predicate name args kwargs => .predicate name (listEssence args) (kwargsEssence kwargs)
  | .expression operator args => .expression operator (listEssence args)
  | .pattern tag fields => .pattern tag (fieldsEssence fields)
  | v => v
termination_by structural v => v

def listEssence : List (Value α) → List (Value α)
  | [] => []
  | v :: rest => essence v :: listEssence rest
termination_by structural vs => vs

def fieldsEssence : List (String × Value α) → List (String × Value α)
  | [] => []
  | (key, v) :: rest => (key, essence v) :: fieldsEssence rest
termination_by structural vs => vs

def pairsEssence : List (Value α × Value α) → List (Value α × Value α)
  | [] => []
  | (k, v) :: rest => (essence k, essence v) :: pairsEssence rest
termination_by structural vs => vs

def kwargsEssence :
    Option (List (String × Value α)) → Option (List (String × Value α))
  | none => none
  | some fields => some (fieldsEssence fields)
termination_by structural vs => vs

end

lemma listEssence_eq_map (items : List (Value α)) : listEssence items = items.map essence := by
  induction items with
  | nil => rfl
  | cons v rest ih => rw [listEssence, ih, List.map_cons]

lemma fieldsEssence_eq_map (fields : List (String × Value α)) :
    fieldsEssence fields = fields.map fun e => (e.1, essence e.2) := by
  induction fields with
  | nil => rfl
  | cons e rest ih => rw [fieldsEssence, ih, List.map_cons]

lemma pairsEssence_eq_map (pairs : List (Value α × Value α)) :
    pairsEssence pairs = pairs.map fun e => (essence e.1, essence e.2) := by
  induction pairs with
  | nil => rfl
  | cons e rest ih => rw [pairsEssence, ih, List.map_cons]

end Value

namespace Codec

variable {α : Type}

/-! ### Decoding -/

section Decode

variable {acceptExpression : Bool}

lemma decodeList_essence {items : List Term}
    (h : ∀ t ∈ items, decodeTerm (α := α) acceptExpression t.essence =
      (decodeTerm acceptExpression t).map Value.essence) :
    decodeList (α := α) acceptExpression (Term.listEssence items) =
      (decodeList acceptExpression items).map Value.listEssence := by
  rw [decodeList_eq_mapM, decodeList_eq_mapM, Term.listEssence_eq_map, Result.mapM_map h,
    funext Value.listEssence_eq_map]

lemma decodeFields_essence {fields : List (String × Term)}
    (h : ∀ e ∈ fields, decodeTerm (α := α) acceptExpression e.2.essence =
      (decodeTerm acceptExpression e.2).map Value.essence) :
    decodeFields (α := α) acceptExpression (Term.fieldsEssence fields) =
      (decodeFields acceptExpression fields).map Value.fieldsEssence := by
  rw [decodeFields_eq_mapM, decodeFields_eq_mapM, Term.fieldsEssence_eq_map,
    funext Value.fieldsEssence_eq_map]
  refine Result.mapM_map fun e he => ?_
  simp only [onValue, h e he]
  rcases decodeTerm acceptExpression e.2 with _ | v <;> rfl

/-- The value of the essence of a term is the essence of its value. -/
lemma decodeTerm_essence (t : Term) :
    decodeTerm (α := α) acceptExpression t.essence =
      (decodeTerm acceptExpression t).map Value.essence := by
  induction t with
  | string | boolean | var | external => rfl
  | number id offset n => cases n <;> rfl
  | list id offset items ih =>
    simp only [Term.essence, Term.valueEssence, Term.ofHost, decodeTerm, decodeList_essence ih]
    rcases decodeList acceptExpression items with _ | vs <;> rfl
  | dictionary id offset fields ih =>
    simp only [Term.essence, Term.valueEssence, Term.ofHost, decodeTerm, decodeFields_essence ih]
    rcases decodeFields acceptExpression fields with _ | vs <;> rfl
  | call id offset name args kwargs hargs hkwargs =>
    have hkw : decodeKwargs (α := α) acceptExpression (Term.kwargsEssence kwargs) =
        (decodeKwargs acceptExpression kwargs).map Value.kwargsEssence := by
      rcases kwargs with _ | fields
      · rfl
      · simp only [Term.kwargsEssence, decodeKwargs, decodeFields_essence (hkwargs fields rfl)]
        rcases decodeFields acceptExpression fields with _ | vs <;> rfl
    simp only [Term.essence, Term.valueEssence, Term.ofHost, decodeTerm, decodeList_essence hargs,
      hkw]
    rcases decodeList acceptExpression args with _ | vs
    · rfl
    · rcases decodeKwargs acceptExpression kwargs with _ | kvs <;> rfl
  | expression id offset operator args ih =>
    simp only [Term.essence, Term.valueEssence, Term.ofHost, decodeTerm, decodeList_essence ih]
    cases acceptExpression
    · rfl
    · rcases decodeList true args with _ | vs <;> rfl
  | pattern id offset tag fields ih =>
    simp only [Term.essence, Term.valueEssence, Term.ofHost, decodeTerm, decodeFields_essence ih]
    rcases decodeFields acceptExpression fields with _ | vs <;> rfl

end Decode

/-! ### Resolving -/

section Resolve

variable {instances : Instances α} {nilObject : Object α}

lemma resolveList_essence {items : List (Value α)}
    (h : ∀ v ∈ items, resolveValue instances nilObject v.essence =
      resolveValue instances nilObject v) :
    resolveList instances nilObject (Value.listEssence items) =
      resolveList instances nilObject items := by
  rw [resolveList_eq_mapM, resolveList_eq_mapM, Value.listEssence_eq_map, Result.mapM_map_eq h]

lemma resolveFields_essence {fields : List (String × Value α)}
    (h : ∀ e ∈ fields, resolveValue instances nilObject e.2.essence =
      resolveValue instances nilObject e.2) :
    resolveFields instances nilObject (Value.fieldsEssence fields) =
      resolveFields instances nilObject fields := by
  rw [resolveFields_eq_mapM, resolveFields_eq_mapM, Value.fieldsEssence_eq_map]
  refine Result.mapM_map_eq fun e he => ?_
  simp only [onValue, h e he]

lemma resolvePairs_essence {pairs : List (Value α × Value α)}
    (hkeys : ∀ e ∈ pairs, resolveValue instances nilObject e.1.essence =
      resolveValue instances nilObject e.1)
    (hvalues : ∀ e ∈ pairs, resolveValue instances nilObject e.2.essence =
      resolveValue instances nilObject e.2) :
    resolvePairs instances nilObject (Value.pairsEssence pairs) =
      resolvePairs instances nilObject pairs := by
  rw [resolvePairs_eq_mapM, resolvePairs_eq_mapM, Value.pairsEssence_eq_map]
  refine Result.mapM_map_eq fun e he => ?_
  simp only [resolvePair, hkeys e he, hvalues e he]

/-- What a value stands for, its essence stands for. -/
lemma resolveValue_essence (v : Value α) :
    resolveValue instances nilObject v.essence = resolveValue instances nilObject v := by
  induction v with
  | nil | boolean | integer | float | string | reference | object | var => rfl
  | list items ih => simp only [Value.essence, resolveValue, resolveList_essence ih]
  | dictionary fields ih => simp only [Value.essence, resolveValue, resolveFields_essence ih]
  | map pairs hkeys hvalues =>
    simp only [Value.essence, resolveValue, resolvePairs_essence hkeys hvalues]
  | predicate name args kwargs hargs hkwargs =>
    have hkw : resolveKwargs instances nilObject (Value.kwargsEssence kwargs) =
        resolveKwargs instances nilObject kwargs := by
      rcases kwargs with _ | fields
      · rfl
      · simp only [Value.kwargsEssence, resolveKwargs, resolveFields_essence (hkwargs fields rfl)]
    simp only [Value.essence, resolveValue, resolveList_essence hargs, hkw]
  | expression operator args ih => simp only [Value.essence, resolveValue, resolveList_essence ih]
  | pattern tag fields ih => simp only [Value.essence, resolveValue, resolveFields_essence ih]

end Resolve

/-- Once references are resolved, a term and its essence are read alike, or fail alike. -/
lemma decodeResolved_essence (c : Codec α) (instances : Instances α) (t : Term) :
    c.decodeResolved instances t.essence = c.decodeResolved instances t := by
  simp only [decodeResolved, decode, decodeTerm_essence]
  rcases decodeTerm c.acceptExpression t with e | v
  · rfl
  · simp only [Except.map, Except.mapError, bind, Except.bind, resolve, resolveValue_essence]

end Codec

end HostBridge
