import HostBridge.Proofs.Codec.Places
import HostBridge.Proofs.Host.Session

/-!
The absent value of a session.

The engine knows the absent value as the instance with id zero, and the host tells it from other
objects by its address. Both are sound because the object that stands for it is bound to zero and
to no other id in every state of a session: to register it once more does nothing, a new object
is another one, and the end of a session binds it again before anything else.
-/

namespace HostBridge.Host

variable {α : Type} {h : Host α}

/-- The term of the absent value. -/
def nilTerm : Term := .ofHost (.external ⟨nilId, none, some "nil", none, none⟩)

/-! ### The binding of the nil object -/

/-- **One step**: a call leaves the nil object the one id that it has. -/
lemma Effect.sole {given : Object α → Prop} {h' : Host α} (hs : h.instances.Sound h.fresh)
    (hnil : h.instances.Sole nilId h.nil) (he : h.Effect given h') :
    h'.instances.Sole nilId h'.nil := by
  cases he with
  | registers hle hpath => exact hnil.registers (Instances.registers_of_registersIn hpath)
  | binds content ha =>
    refine hnil.after ha ?_
    rw [Object.same_comm]
    exact hs.same_new hnil.object content

/-- **The run invariant**: the nil object is bound to zero, and to no other id. -/
theorem Reachable.sole (hh : h.Reachable) : h.instances.Sole nilId h.nil := by
  induction hh with
  | start config _ => exact Instances.sole_clear_bind .empty _ _
  | call hh _ ih => exact (effect_after _ _).sole hh.sound.table ih
  | registerClass c _ ih =>
    rw [Host.registerClass, onClasses, Step.left_onPart]
    exact ih
  | registerAncestry name ancestors _ ih =>
    rw [Host.registerAncestry, onClasses, Step.left_onPart]
    exact ih
  | endSession _ ih => exact Instances.sole_clear_bind _ _ _
  | setAcceptExpression accept _ ih => exact ih

/-! ### What follows from it -/

lemma encode_nil {c : Codec α} {s : Instances α} (hnil : s.Sole nilId c.nil) :
    c.encode .nil s = .ok nilTerm s :=
  Step.bind_pure_eq_ok.mpr
    ⟨nilId, Step.widen_eq_ok.mpr (Instances.register_cached hnil.idOf), rfl⟩

/-- The absent value is sent as its term, wherever it is. -/
lemma at?_of_encode {c : Codec α} {s s' : Instances α} (hnil : s.Sole nilId c.nil) {v : Value α}
    {t : Term} (ht : c.encode v s = .ok t s') {place : Place} (hv : v.at? place = some .nil) :
    t.at? place = some nilTerm := by
  have hrel := Codec.encode_at? ht place
  rw [hv, option_rel_some_left] at hrel
  obtain ⟨t', ht', s₁, s₂, h₁, hencode, -⟩ := hrel
  rw [encode_nil (hnil.registers h₁)] at hencode
  cases hencode
  exact ht'

/-- A handle with the id of the absent value is read as it, whatever else it says. -/
lemma decodeResolved_nilId {c : Codec α} {s : Instances α} (hnil : s.Sole nilId c.nil)
    {handle : Handle Term} (hid : handle.id = nilId) (id offset : UInt64) :
    c.decodeResolved s ⟨id, offset, .external handle⟩ = .ok .nil := by
  have hobject : s.object? handle.id = some c.nil := by rw [hid]; exact hnil.object
  exact Codec.decodeResolved_eq_nil.mpr
    ⟨id, offset, handle, c.nil, rfl, hobject, c.nil.same_self⟩

/-- What is read as the absent value are the handles with its id. -/
lemma at?_of_decodeResolved {c : Codec α} {s : Instances α} (hnil : s.Sole nilId c.nil)
    {t : Term} {v : Value α} (hv : c.decodeResolved s t = .ok v) (place : Place) :
    v.at? place = some .nil ↔ ∃ id offset handle,
      t.at? place = some ⟨id, offset, .external handle⟩ ∧ handle.id = nilId := by
  have hrel := Codec.decodeResolved_at? hv place
  constructor
  · intro hplace
    rw [hplace, option_rel_some_right] at hrel
    obtain ⟨t', ht', hread⟩ := hrel
    obtain ⟨id, offset, handle, o, rfl, ho, hsame⟩ := Codec.decodeResolved_eq_nil.mp hread
    exact ⟨id, offset, handle, ht', hnil.only ho hsame⟩
  · rintro ⟨id, offset, handle, hplace, hid⟩
    rw [hplace, option_rel_some_left] at hrel
    obtain ⟨w, hw, hread⟩ := hrel
    rw [decodeResolved_nilId hnil hid] at hread
    cases hread
    exact hw

/-- No instance is made under the id of the absent value. -/
lemma construct_nilId (hs : h.Sound) (name : String) (args : List (Value α)) :
    ∃ e, construct name args nilId h = .error e h := by
  rcases construct_cases name args nilId h with he | ⟨c, content, s, -, -, hr, -⟩
  · exact he
  · have hfree := (hs.table.registerWithId_new hr).free
    rw [hs.nil] at hfree; cases hfree

lemma makeInstance_nilId (hs : h.Sound) (name : String) (args : Term) :
    ∃ e, makeInstance name args nilId h = .error e h := by
  rcases makeInstance_cases name args nilId h with he | ⟨values, heq⟩
  · exact he
  · rw [heq]; exact construct_nilId hs name values

lemma makeInstanceFromCall_nilId (hs : h.Sound) (call : Term) :
    ∃ e, makeInstanceFromCall call nilId h = .error e h := by
  rcases makeInstanceFromCall_cases call nilId h with he | ⟨name, -, -, values, -, -, heq⟩
  · exact he
  · rw [heq]; exact construct_nilId hs name values

lemma handle_makeExternal_nilId (hs : h.Sound) (call : Term) :
    ∃ e, handle (.makeExternal nilId call) h = .error e h := by
  obtain ⟨e, he⟩ := makeInstanceFromCall_nilId hs call
  exact ⟨e, by rw [handle_makeExternal]; simp only [he]⟩

lemma toTerm_eq_ok {v : Value α} {t : Term} {h' : Host α} (ht : toTerm v h = .ok t h') :
    ∃ s, h.codec.encode v h.instances = .ok t s := by
  have hstep : toTerm v h = onInstances (h.codec.encode v) h := rfl
  rcases hencode : h.codec.encode v h.instances with ⟨t', s⟩ | ⟨e, s⟩
  · rw [hstep, onInstances, Step.onPart_of_ok hencode] at ht; cases ht
    exact ⟨s, rfl⟩
  · rw [hstep, onInstances, Step.onPart_of_error hencode] at ht; cases ht

/-- What is registered on the way to a term are objects of the value other than the nil object. -/
lemma registers_toTerm (hnil : h.instances.Sole nilId h.nil) (v : Value α) :
    Relation.ReflTransGen
      (Instances.RegistersIn fun o => .object o ∈ v.parts ∧ o.same h.nil = false)
      h.instances (Step.left (toTerm v) h).instances := by
  have hpath : Relation.ReflTransGen
      (Instances.RegistersIn fun o => o = h.nil ∨ .object o ∈ v.parts)
      h.instances (Step.left (h.codec.encode v) h.instances) :=
    Codec.moves_encode_in h.codec (Or.inl rfl) v (fun o ho => Or.inr ho) h.instances
  rw [left_toTerm]
  refine Relation.ReflTransGen.mono ?_ _ _ (hnil.registersIn_others hpath)
  rintro s s' ⟨o, ⟨ho, hne⟩, hs'⟩
  rcases ho with rfl | ho
  · rw [Object.same_self] at hne; cases hne
  · exact ⟨o, ⟨ho, hne⟩, hs'⟩

/--
**The absent value keeps its id.** In every state of a session: zero is bound to the nil object,
and any other id to another object. The absent value is sent as the instance with id zero, as the
text `nil` and without a class, at every place of a value, and its sending leaves the table of
instances as it was: what is registered on the way to a term are other objects. A handle with id
zero can be read, as the absent value, and of a term that can be read exactly such handles are.
To make an instance under id zero fails, in whatever way it is asked for. And the end of the
session does not fail, and binds the nil object to zero again.
-/
theorem nil_integrity (hh : h.Reachable) :
    (h.getInstance nilId = .ok h.nil ∧
      ∀ i o, h.getInstance i = .ok o → o.same h.nil = true → i = nilId) ∧
    (∀ s, Relation.ReflTransGen Instances.Registers h.instances s →
      h.codec.encode .nil s = .ok nilTerm s) ∧
    (∀ v t h' place, toTerm v h = .ok t h' → v.at? place = some .nil →
      t.at? place = some nilTerm) ∧
    (∀ v, Relation.ReflTransGen
      (Instances.RegistersIn fun o => .object o ∈ v.parts ∧ o.same h.nil = false)
      h.instances (Step.left (toTerm v) h).instances) ∧
    (∀ id offset handle, handle.id = nilId →
      h.toResolved ⟨id, offset, .external handle⟩ = .ok .nil) ∧
    (∀ t v place, h.toResolved t = .ok v →
      (v.at? place = some .nil ↔ ∃ id offset handle,
        t.at? place = some ⟨id, offset, .external handle⟩ ∧ handle.id = nilId)) ∧
    (∀ name args, ∃ e, makeInstance name args nilId h = .error e h) ∧
    (∀ call, ∃ e, makeInstanceFromCall call nilId h = .error e h) ∧
    (∀ call, ∃ e, handle (.makeExternal nilId call) h = .error e h) ∧
    endSession h = .ok () { h with instances := h.instances.clear.bind h.nil nilId } := by
  have hs : h.Sound := hh.sound
  have hnil : h.instances.Sole nilId h.nil := hh.sole
  have hget : ∀ {i o}, h.getInstance i = .ok o ↔ h.instances.object? i = some o := by
    intro i o
    rw [getInstance, Result.mapError_eq_ok, Instances.get_eq_ok]
  refine ⟨⟨hget.mpr hnil.object, fun i o ho => hnil.only (hget.mp ho)⟩,
    fun s hpath => encode_nil (hnil.registers hpath), fun v t h' place ht hplace => ?_,
    registers_toTerm hnil, fun id offset handle hid => decodeResolved_nilId hnil hid id offset,
    fun t v place hv => at?_of_decodeResolved hnil hv place, makeInstance_nilId hs,
    makeInstanceFromCall_nilId hs, handle_makeExternal_nilId hs, rfl⟩
  obtain ⟨s, hencode⟩ := toTerm_eq_ok ht
  exact at?_of_encode (c := h.codec) hnil hencode hplace

/-- A session in which an object has been made and the nil object has been registered again. -/
def recached : Host Unit :=
  (Call.cacheInstance ⟨0, .nil⟩).after ((Call.cacheNew (.foreign "Post" "" ())).after (.new {}))

lemma recached_reachable : recached.Reachable := by
  have hnew : ((Call.cacheNew (.foreign "Post" "" ())).after (.new {} : Host Unit)).Reachable :=
    .call (.start {} .empty) (Call.admitted_of_gives_nothing fun _ => not_false)
  have hs := hnew.sound
  refine .call hnew ⟨fun ho => ?_, fun ho hp _ => ho.trans hp.symm, fun ho hp hsame => ?_⟩
  · cases ho; exact hs.table.used hs.nil
  · cases ho; exact hs.table.coherent _ _ _ _ hs.nil hp hsame

/-- The absent value in an entry, beside an object in another. -/
theorem nil_integrity_recached :
    let v : Value Unit := .list [.nil, .dictionary [("a", .nil),
      ("b", .object ⟨1, .foreign "Post" "" ()⟩)]]
    let t : Term := .ofHost (.list [nilTerm, .ofHost (.dictionary [("a", nilTerm),
      ("b", ⟨0, 0, .external ⟨1, none, some "", none, none⟩⟩)])])
    recached.Reachable ∧ toTerm v recached = .ok t recached ∧
    ∃ w, recached.toResolved t = .ok w ∧ w.at? [.item 1, .entry "a"] = some .nil ∧
      w.at? [.item 1, .entry "b"] ≠ some .nil := by
  intro v t
  obtain ⟨-, -, hterm, -, -, hread, -⟩ := nil_integrity recached_reachable
  have hsent : t.at? [.item 1, .entry "a"] = some nilTerm := hterm v t recached _ rfl rfl
  have hv : recached.toResolved t = .ok v := rfl
  refine ⟨recached_reachable, rfl, v, hv, ?_, fun hnil => ?_⟩
  · exact (hread t v _ hv).mpr ⟨_, _, _, hsent, rfl⟩
  · obtain ⟨id, offset, handle, hplace, hid⟩ := (hread t v _ hv).mp hnil
    cases hplace
    cases hid

end HostBridge.Host
