import HostBridge.Proofs.Codec.Refusal
import HostBridge.Proofs.Host.Equality

/-!
The gate for expressions.

Expressions are refused in one place, where a term is decoded, and nothing that the host makes of
terms goes by another way. So as long as they are not accepted, no value that is read holds one,
whatever the depth, and no operand of an operator does. Nor does an argument of a constructor: it
makes no difference what constructors would do with an expression.
-/

namespace HostBridge

variable {α β : Type}

/-! ### Constructors in place of others -/

/-- The replacements do the same on arguments without an expression. -/
structure Constructor.Replaces (f : Constructor α → Constructor α) : Prop where
  arity : ∀ k, (f k).arity = k.arity
  build : ∀ k args, (∀ v ∈ args, ¬ v.HasExpression) → (f k).build args = k.build args

namespace Class

/-- The class with each of its constructors replaced. -/
def mapConstructors (f : Constructor α → Constructor α) (c : Class α) : Class α :=
  { c with constructors := c.constructors.map f }

variable {f : Constructor α → Constructor α} {args : List (Value α)}

lemma firstBuilt_map (hf : Constructor.Replaces f) (hargs : ∀ v ∈ args, ¬ v.HasExpression)
    (ks : List (Constructor α)) (failure : Option String) :
    firstBuilt args (ks.map f) failure = firstBuilt args ks failure := by
  induction ks generalizing failure with
  | nil => rfl
  | cons k rest ih => simp only [List.map_cons, firstBuilt, hf.build k args hargs, ih]

lemma construct_mapConstructors (hf : Constructor.Replaces f)
    (hargs : ∀ v ∈ args, ¬ v.HasExpression) (c : Class α) :
    (c.mapConstructors f).construct args = c.construct args := by
  have hfilter : (c.constructors.map f).filter (·.accepts args.length) =
      (c.constructors.filter (·.accepts args.length)).map f := by
    rw [List.filter_map]
    refine congrArg _ (List.filter_congr fun k _ => ?_)
    simp only [Function.comp, Constructor.accepts, hf.arity]
  simp only [construct, mapConstructors, List.isEmpty_map, hfilter, firstBuilt_map hf hargs]

end Class

namespace Classes

def mapConstructors (f : Constructor α → Constructor α) (t : Classes α) : Classes α :=
  { t with byName := t.byName.map fun e => (e.1, e.2.mapConstructors f) }

variable (f : Constructor α → Constructor α) (t : Classes α)

lemma lookup_mapConstructors (name : String) :
    (t.mapConstructors f).byName.lookup name =
      (t.byName.lookup name).map (Class.mapConstructors f) := by
  rw [mapConstructors]
  induction t.byName with
  | nil => rfl
  | cons e rest ih =>
    simp only [List.map_cons, Table.lookup_cons, ih]
    split <;> rfl

lemma get_mapConstructors (name : String) :
    (t.mapConstructors f).get name = (t.get name).map (Class.mapConstructors f) := by
  rw [get, get, lookup_mapConstructors]
  cases t.byName.lookup name <;> rfl

lemma contains_mapConstructors (name : String) :
    (t.mapConstructors f).contains name = t.contains name := by
  rw [contains, Table.contains, lookup_mapConstructors, Option.isSome_map]
  rfl

lemma isSubclass_mapConstructors (left right : String) :
    (t.mapConstructors f).isSubclass left right = t.isSubclass left right := by
  simp only [isSubclass, ancestry, contains_mapConstructors]
  rfl

lemma hook?_mapConstructors (typeName : String) :
    (t.mapConstructors f).hook? typeName = t.hook? typeName := by
  have hname : (t.mapConstructors f).nameOf? typeName = t.nameOf? typeName := rfl
  rw [hook?, hook?, hname]
  rcases t.nameOf? typeName with _ | name
  · rfl
  · simp only [Option.bind_eq_bind, Option.bind_some, lookup_mapConstructors, Option.bind_map]
    rfl

lemma alike_mapConstructors : (t.mapConstructors f).alike = t.alike := by
  funext o p
  rw [Bool.eq_iff_iff, alike_iff, alike_iff, hook?_mapConstructors]

end Classes

/-! ### Sessions in which constructors have been replaced -/

/-- The same outcome in another state. -/
def Step.mapState {ε σ : Type} (g : σ → σ) : EStateM.Result ε σ β → EStateM.Result ε σ β
  | .ok b s => .ok b (g s)
  | .error e s => .error e (g s)

namespace Host

def mapConstructors (f : Constructor α → Constructor α) (h : Host α) : Host α :=
  { h with classes := h.classes.mapConstructors f }

section Questions

variable (f : Constructor α → Constructor α) (h : Host α)

lemma toResolvedList_mapConstructors (ts : List Term) :
    (h.mapConstructors f).toResolvedList ts = h.toResolvedList ts := by
  rw [toResolvedList_eq_mapM, toResolvedList_eq_mapM]
  rfl

lemma isa_mapConstructors (t : Term) (name : String) :
    (h.mapConstructors f).isa t name = h.isa t name := by
  simp only [isa, mapConstructors, Classes.contains_mapConstructors,
    Classes.isSubclass_mapConstructors]
  rfl

lemma isSubspecializer_mapConstructors (id : InstanceId) (left right : String) :
    (h.mapConstructors f).isSubspecializer id left right =
      h.isSubspecializer id left right := by
  simp only [isSubspecializer, mapConstructors, Classes.ancestry, Classes.contains_mapConstructors]
  rfl

lemma valuesEqual_mapConstructors : (h.mapConstructors f).valuesEqual = h.valuesEqual := by
  funext v w
  rw [valuesEqual, mapConstructors, Classes.alike_mapConstructors, valuesEqual]

lemma evaluate_mapConstructors (name : String) (args : Term) :
    (h.mapConstructors f).evaluate name args = h.evaluate name args := by
  simp only [evaluate, apply, valuesEqual_mapConstructors]
  rfl

lemma answer_mapConstructors (event : Event) :
    (h.mapConstructors f).answer event = h.answer event := by
  cases event with
  | makeExternal => rfl
  | isa | isSubspecializer | operation =>
    simp only [answer, isa_mapConstructors, isSubspecializer_mapConstructors,
      evaluate_mapConstructors]
  | isSubclass call left right =>
    simp only [answer, isSubclass, mapConstructors, Classes.isSubclass_mapConstructors]

end Questions

section Making

variable {f : Constructor α → Constructor α} {h : Host α}

lemma construct_mapConstructors (hf : Constructor.Replaces f) {values : List (Value α)}
    (hvalues : ∀ v ∈ values, ¬ v.HasExpression) (name : String) (id : InstanceId) :
    construct name values id (h.mapConstructors f) =
      Step.mapState (mapConstructors f) (construct name values id h) := by
  have hget := h.classes.get_mapConstructors f name
  simp only [construct, mapConstructors, hget]
  rcases h.classes.get name with e | c
  · rfl
  simp only [Except.map, Class.construct_mapConstructors hf hvalues]
  rcases c.construct values with e | content
  · rfl
  simp only
  rcases Instances.registerWithId ⟨h.fresh, content⟩ id h.instances with _ | _ <;> rfl

/-- The arguments of a call are read one by one. -/
lemma not_hasExpression_of_toResolvedList (hgate : h.config.acceptExpression = false)
    {ts : List Term} {values : List (Value α)} (hvalues : h.toResolvedList ts = .ok values) :
    ∀ v ∈ values, ¬ v.HasExpression := by
  have hreads : h.ReadsAll ts values := toResolvedList_eq_ok.mp hvalues
  clear hvalues
  induction hreads with
  | nil => exact nofun
  | cons hv _ ih =>
    exact List.forall_mem_cons.mpr
      ⟨Codec.not_hasExpression_of_decodeResolved (c := h.codec) hgate hv, ih⟩

lemma makeInstance_mapConstructors (hgate : h.config.acceptExpression = false)
    (hf : Constructor.Replaces f) (name : String) (args : Term) (id : InstanceId) :
    makeInstance name args id (h.mapConstructors f) =
      Step.mapState (mapConstructors f) (makeInstance name args id h) := by
  unfold makeInstance
  split
  · rename_i items _
    rw [toResolvedList_mapConstructors]
    rcases hvalues : h.toResolvedList items with e | values
    · rfl
    · exact construct_mapConstructors hf (not_hasExpression_of_toResolvedList hgate hvalues) name id
  · rfl

lemma makeInstanceFromCall_mapConstructors (hgate : h.config.acceptExpression = false)
    (hf : Constructor.Replaces f) (call : Term) (id : InstanceId) :
    makeInstanceFromCall call id (h.mapConstructors f) =
      Step.mapState (mapConstructors f) (makeInstanceFromCall call id h) := by
  unfold makeInstanceFromCall
  split
  · rename_i name args kwargs _
    split
    · rw [toResolvedList_mapConstructors]
      rcases hvalues : h.toResolvedList args with e | values
      · rfl
      · exact construct_mapConstructors hf (not_hasExpression_of_toResolvedList hgate hvalues)
          name id
    · rfl
  · rfl

lemma handle_mapConstructors (hgate : h.config.acceptExpression = false)
    (hf : Constructor.Replaces f) (event : Event) :
    handle event (h.mapConstructors f) =
      Step.mapState (mapConstructors f) (handle event h) := by
  rcases hcall : event.callId? with _ | call
  · cases event with
    | makeExternal id call =>
      rw [handle_makeExternal, handle_makeExternal, makeInstanceFromCall_mapConstructors hgate hf]
      rcases makeInstanceFromCall call id h with _ | _ <;> rfl
    | isa | isSubclass | isSubspecializer | operation => cases hcall
  · rw [handle_question hcall, handle_question hcall, answer_mapConstructors]
    rcases h.answer event with _ | _ <;> rfl

end Making

/-! ### Operands -/

section Operands

variable {h : Host α} {b : Bool}

/-- The values that equality compares when it is asked for on terms. -/
def Compares (h : Host α) (args : List Term) (v w : Value α) : Prop :=
  ∃ t u, args = [t, u] ∧ h.toResolved t = .ok v ∧ h.toResolved u = .ok w

lemma Compares.not_hasExpression (hgate : h.config.acceptExpression = false) {args : List Term}
    {v w : Value α} (hcompares : h.Compares args v w) :
    ¬ v.HasExpression ∧ ¬ w.HasExpression := by
  obtain ⟨t, u, -, hv, hw⟩ := hcompares
  exact ⟨Codec.not_hasExpression_of_decodeResolved (c := h.codec) hgate hv,
    Codec.not_hasExpression_of_decodeResolved (c := h.codec) hgate hw⟩

lemma exists_compares_of_apply {operator : Operator} {args : List Term}
    (happly : h.apply operator args = .ok b) :
    ∃ v w, h.Compares args v w ∧ h.valuesEqual v w = b := by
  unfold apply at happly
  split at happly
  · split at happly
    · rename_i t u
      obtain ⟨v, hv, happly⟩ := Result.bind_eq_ok.mp happly
      obtain ⟨w, hw, happly⟩ := Result.bind_eq_ok.mp happly
      exact ⟨v, w, ⟨t, u, rfl, hv, hw⟩, Except.ok.inj happly⟩
    · cases happly
  · cases happly

lemma apply_of_evaluate {name : String} {args : Term} (h' : h.evaluate name args = .ok b) :
    ∃ items, args.value = .list items ∧ h.apply .eq items = .ok b := by
  unfold evaluate at h'
  split at h'
  · split at h'
    · rename_i items hitems
      exact ⟨items, hitems, h'⟩
    · cases h'
  · cases h'

end Operands

/--
**The gate.** A term is refused exactly if expressions are not accepted and there is one in the
term, at whatever depth, and then this is what is said. While they are not accepted, no value that
a term is read as holds an expression, references resolved or not, and none is among the arguments
of a constructor: constructors may be replaced by others which do the same on arguments without an
expression, and no callback comes to another end. Nor does equality compare an operand with one.
-/
theorem expressions_gated :
    (∀ (c : Codec α) (t : Term),
      ((∃ e, c.decode t = .error e) ↔ c.acceptExpression = false ∧ t.HasExpression) ∧
      (∀ e, c.decode t = .error e → e = .term .expressionNotAllowed) ∧
      (c.acceptExpression = false →
        (∀ v, c.decode t = .ok v → ¬ v.HasExpression) ∧
        ∀ instances v, c.decodeResolved instances t = .ok v → ¬ v.HasExpression)) ∧
    ∀ h : Host α, h.config.acceptExpression = false →
      (∀ ts values, h.toResolvedList ts = .ok values → ∀ v ∈ values, ¬ v.HasExpression) ∧
      (∀ f, Constructor.Replaces f →
        (∀ name args id, makeInstance name args id (h.mapConstructors f) =
          Step.mapState (mapConstructors f) (makeInstance name args id h)) ∧
        (∀ call id, makeInstanceFromCall call id (h.mapConstructors f) =
          Step.mapState (mapConstructors f) (makeInstanceFromCall call id h)) ∧
        ∀ event, handle event (h.mapConstructors f) =
          Step.mapState (mapConstructors f) (handle event h)) ∧
      (∀ operator args b, h.apply operator args = .ok b → ∃ v w, h.Compares args v w ∧
        ¬ v.HasExpression ∧ ¬ w.HasExpression ∧ h.valuesEqual v w = b) ∧
      ∀ name args b, h.evaluate name args = .ok b → ∃ items v w, args.value = .list items ∧
        h.Compares items v w ∧ ¬ v.HasExpression ∧ ¬ w.HasExpression ∧ h.valuesEqual v w = b := by
  refine ⟨fun c t => ⟨?_, fun e he => (Codec.decode_eq_error_iff.mp he).2, fun hgate =>
    ⟨fun v hv => ?_, fun _ _ => Codec.not_hasExpression_of_decodeResolved hgate⟩⟩, fun h hgate =>
    ⟨fun _ _ => not_hasExpression_of_toResolvedList hgate, fun f hf => ?_,
      fun operator args b hb => ?_, fun name args b hb => ?_⟩⟩
  · simp only [Codec.decode_eq_error_iff, exists_eq_right]
  · rw [Codec.decode, hgate, Result.mapError_eq_ok] at hv
    exact Codec.not_hasExpression_of_decodeTerm hv
  · exact ⟨makeInstance_mapConstructors hgate hf, makeInstanceFromCall_mapConstructors hgate hf,
      handle_mapConstructors hgate hf⟩
  · obtain ⟨v, w, hcompares, hequal⟩ := exists_compares_of_apply hb
    obtain ⟨hv, hw⟩ := hcompares.not_hasExpression hgate
    exact ⟨v, w, hcompares, hv, hw, hequal⟩
  · obtain ⟨items, hitems, happly⟩ := apply_of_evaluate hb
    obtain ⟨v, w, hcompares, hequal⟩ := exists_compares_of_apply happly
    obtain ⟨hv, hw⟩ := hcompares.not_hasExpression hgate
    exact ⟨items, v, w, hitems, hcompares, hv, hw, hequal⟩

/-- What a handle says of its constructor is not looked at. -/
example : (Host.new {} : Host Unit).toResolved
    (.ofHost (.external ⟨0, some (.ofHost (.expression .new [])), none, none, none⟩)) =
      .ok .nil := rfl

end Host

end HostBridge
