import HostBridge.Event.Answer
import HostBridge.Proofs.Codec.Traversal
import HostBridge.Proofs.Instances.Freshness

/-!
The states of a session.

A caller hands in objects that were made earlier, and whatever a call answers, it only adds to the
table of instances and leaves the classes and the settings alone. So the table stays sound, and
the absent value stays bound, in every state that calls and registrations can lead to.
-/

namespace HostBridge

variable {α : Type}

/-! ### Class tables -/

/-- The class tables that registrations can lead to. -/
inductive Classes.Reachable : Classes α → Prop
  | empty : Reachable .empty
  | register (c : Class α) {t : Classes α} (ht : Reachable t) :
    Reachable (Step.left (Classes.register c) t)
  | registerAncestry (name : String) (ancestors : List String) {t : Classes α}
    (ht : Reachable t) : Reachable (Step.left (Classes.registerAncestry name ancestors) t)

/-- The number of the call that a question bears. -/
def Event.callId? : Event → Option UInt64
  | makeExternal .. => none
  | isa call .. | isSubclass call .. | isSubspecializer call .. | operation call .. => some call

namespace Host

/-! ### Calls -/

/-- A call that makes objects, or binds them. -/
inductive Call (α : Type) where
  | allocate (content : Content α)
  | cacheNew (content : Content α)
  | cacheInstance (o : Object α)
  | toTerm (v : Value α)
  | makeInstance (name : String) (args : Term) (id : InstanceId)
  | makeInstanceFromCall (call : Term) (id : InstanceId)
  | handle (event : Event)

namespace Call

/-- The objects that the caller hands in. -/
def gives : Call α → Object α → Prop
  | cacheInstance o => (· = o)
  | toTerm v => fun o => .object o ∈ v.parts
  | _ => fun _ => False

/-- The session that a call leaves, whether it succeeds or fails. -/
def after (h : Host α) : Call α → Host α
  | allocate content => Step.left (Host.allocate content) h
  | cacheNew content => Step.left (Host.cacheNew content) h
  | cacheInstance o => Step.left (Host.cacheInstance o) h
  | toTerm v => Step.left (Host.toTerm v) h
  | makeInstance name args id => Step.left (Host.makeInstance name args id) h
  | makeInstanceFromCall call id => Step.left (Host.makeInstanceFromCall call id) h
  | handle event => Step.left (Host.handle event) h

/-- What the caller hands in was made before and agrees with what the session holds. -/
def Admitted (h : Host α) (c : Call α) : Prop := h.instances.Admits h.fresh c.gives

/-- A call that is handed no object is admitted in every session. -/
lemma admitted_of_gives_nothing {h : Host α} {c : Call α} (hc : ∀ o, ¬ c.gives o) :
    c.Admitted h :=
  ⟨fun ho => absurd ho (hc _), fun ho => absurd ho (hc _), fun ho => absurd ho (hc _)⟩

end Call

/-- The session holds the absent value, and its table is sound. -/
structure Sound (h : Host α) : Prop where
  table : h.instances.Sound h.fresh
  nil : h.instances.object? nilId = some h.nil

variable {h : Host α}

/-- A session looks an instance up in its table. -/
lemma getInstance_eq_ok {id : InstanceId} {o : Object α} :
    h.getInstance id = .ok o ↔ h.instances.object? id = some o := by
  rw [getInstance, Result.mapError_eq_ok, Instances.get_eq_ok]

/-- The terms are read, each as the value in its place. -/
def ReadsAll (h : Host α) (ts : List Term) (values : List (Value α)) : Prop :=
  List.Forall₂ (fun t v => h.toResolved t = .ok v) ts values

/-- Terms are read one after another. -/
lemma toResolvedList_eq_mapM (h : Host α) (ts : List Term) :
    h.toResolvedList ts = ts.mapM h.toResolved := by
  induction ts with
  | nil => rfl
  | cons t rest ih => rw [List.mapM_cons, toResolvedList, ih]; rfl

lemma toResolvedList_eq_ok {ts : List Term} {values : List (Value α)} :
    h.toResolvedList ts = .ok values ↔ h.ReadsAll ts values := by
  rw [toResolvedList_eq_mapM, Result.mapM_eq_ok, ReadsAll]

/-- They are read up to the first that fails. -/
lemma toResolvedList_eq_error {ts : List Term} {e : Error} :
    h.toResolvedList ts = .error e ↔ ∃ front t back values, ts = front ++ t :: back ∧
      h.ReadsAll front values ∧ h.toResolved t = .error e := by
  rw [toResolvedList_eq_mapM, Result.mapM_eq_error]
  rfl

/-! ### What making an instance and answering an event come down to -/

/-- Making an instance changes nothing, or binds to the id what the class has built. -/
lemma construct_cases (name : String) (args : List (Value α)) (id : InstanceId) (h : Host α) :
    (∃ e, construct name args id h = .error e h) ∨
    ∃ c content s', h.classes.get name = .ok c ∧ c.construct args = .ok content ∧
      Instances.registerWithId ⟨h.fresh, content⟩ id h.instances = .ok () s' ∧
      construct name args id h =
        .ok ⟨h.fresh, content⟩ { h with instances := s', fresh := h.fresh + 1 } := by
  unfold construct
  rcases hget : h.classes.get name with e | c
  · exact Or.inl ⟨_, rfl⟩
  rcases hbuild : c.construct args with e | content
  · exact Or.inl ⟨_, by simp only [hbuild]; rfl⟩
  rcases hr : Instances.registerWithId ⟨h.fresh, content⟩ id h.instances with ⟨_, s⟩ | ⟨e, s⟩
  · exact Or.inr ⟨c, content, s, rfl, hbuild, hr, by simp only [hbuild, hr]⟩
  · exact Or.inl ⟨_, by simp only [hbuild, hr]; rfl⟩

lemma makeInstance_cases (name : String) (args : Term) (id : InstanceId) (h : Host α) :
    (∃ e, makeInstance name args id h = .error e h) ∨
    ∃ values, makeInstance name args id h = construct name values id h := by
  unfold makeInstance
  split
  · rename_i items _
    rcases hvalues : h.toResolvedList items with e | values
    · exact Or.inl ⟨_, rfl⟩
    · exact Or.inr ⟨values, rfl⟩
  · exact Or.inl ⟨_, rfl⟩

lemma makeInstanceFromCall_cases (call : Term) (id : InstanceId) (h : Host α) :
    (∃ e, makeInstanceFromCall call id h = .error e h) ∨
    ∃ name args kwargs values, call.value = .call name args kwargs ∧
      h.toResolvedList args = .ok values ∧
      makeInstanceFromCall call id h = construct name values id h := by
  unfold makeInstanceFromCall
  split
  · rename_i name args kwargs hcall
    split
    · rcases hvalues : h.toResolvedList args with e | values
      · exact Or.inl ⟨_, rfl⟩
      · exact Or.inr ⟨name, args, kwargs, values, hcall, hvalues, rfl⟩
    · exact Or.inl ⟨_, rfl⟩
  · exact Or.inl ⟨_, rfl⟩

/-- An event that makes an instance fails as the making does, and is not answered. -/
lemma handle_makeExternal (id : InstanceId) (call : Term) (h : Host α) :
    handle (.makeExternal id call) h =
      match makeInstanceFromCall call id h with
      | .ok _ h' => .ok none h'
      | .error e h' => .error e h' := by
  rcases hmake : makeInstanceFromCall call id h with ⟨o, h'⟩ | ⟨e, h'⟩
  · exact Step.bind_pure_eq_ok.mpr ⟨o, hmake, rfl⟩
  · exact Step.bind_of_error hmake

/-- A question looks at the session only. -/
lemma handle_question {event : Event} {call : UInt64} (hcall : event.callId? = some call)
    (h : Host α) : handle event h = Step.ofExcept (h.answer event) h := by
  cases event with
  | makeExternal => cases hcall
  | isa | isSubclass | isSubspecializer | operation => rfl

/-- A new object is bound to the next id, unless ids are exhausted. -/
lemma cacheNew_cases (hs : h.instances.Sound h.fresh) (content : Content α) :
    (h.instances.next = none ∧ cacheNew content h = .error (.instances .exhausted) h) ∨
    ∃ id, h.instances.next = some id ∧ h.instances.object? id = none ∧
      cacheNew content h = .ok id { h with
        instances := h.instances.bind ⟨h.fresh, content⟩ id, fresh := h.fresh + 1 } := by
  unfold cacheNew
  rcases hs.reachable.register_of_idOf_none (hs.idOf?_new content) with
    ⟨id, hn, hfree, hr⟩ | ⟨hn, hr⟩
  · exact Or.inr ⟨id, hn, hfree, by simp only [hr]⟩
  · exact Or.inl ⟨hn, by simp only [hr]⟩

/-- Whatever becomes of a value, its encoding is all that happens to the session. -/
lemma left_toTerm (v : Value α) (h : Host α) : Step.left (toTerm v) h =
    { h with instances := Step.left (h.codec.encode v) h.instances } := by
  have hstep : Step.left (toTerm v) h = Step.left (onInstances (h.codec.encode v)) h := rfl
  rw [hstep, onInstances, Step.left_onPart]

/-! ### What a call does to a session -/

/-- The effects of calls: objects at hand are registered, or a new one is bound. -/
inductive Effect (given : Object α → Prop) (h : Host α) : Host α → Prop
  | registers {s : Instances α} {fresh : Nat} (hle : h.fresh ≤ fresh)
      (hpath : Relation.ReflTransGen (Instances.RegistersIn given) h.instances s) :
      Effect given h { h with instances := s, fresh }
  | binds (content : Content α) {a : Instances.Action α}
      (ha : a.object? = some ⟨h.fresh, content⟩) :
      Effect given h { h with instances := a.after h.instances, fresh := h.fresh + 1 }

section Effect

variable {given : Object α → Prop}

lemma effect_refl (h : Host α) : h.Effect given h := .registers (Nat.le_refl _) .refl

lemma effect_construct (name : String) (args : List (Value α)) (id : InstanceId) (h : Host α) :
    h.Effect given (Step.left (construct name args id) h) := by
  rcases construct_cases name args id h with ⟨e, he⟩ | ⟨c, content, s, -, -, hr, hc⟩
  · rw [Step.left_of_error he]; exact effect_refl h
  · have hs : s = (Instances.Action.registerWithId ⟨h.fresh, content⟩ id).after h.instances := by
      rw [Instances.Action.after, Step.left_of_ok hr]
    rw [Step.left_of_ok hc, hs]
    exact .binds content rfl

/-- A step that fails at once or comes down to making an instance. -/
lemma effect_of_construct {step : Step (Host α) (Object α)}
    (hstep : (∃ e, step h = .error e h) ∨
      ∃ name values id, step h = construct name values id h) :
    h.Effect given (Step.left step h) := by
  rcases hstep with ⟨e, he⟩ | ⟨name, values, id, heq⟩
  · rw [Step.left_of_error he]; exact effect_refl h
  · have he : h.Effect given (Step.left (construct name values id) h) :=
      effect_construct name values id h
    rwa [Step.left, ← heq] at he

lemma effect_makeInstance (name : String) (args : Term) (id : InstanceId) (h : Host α) :
    h.Effect given (Step.left (makeInstance name args id) h) :=
  effect_of_construct ((makeInstance_cases name args id h).imp_right
    fun ⟨values, heq⟩ => ⟨name, values, id, heq⟩)

lemma effect_makeInstanceFromCall (call : Term) (id : InstanceId) (h : Host α) :
    h.Effect given (Step.left (makeInstanceFromCall call id) h) :=
  effect_of_construct ((makeInstanceFromCall_cases call id h).imp_right
    fun ⟨name, _, _, values, _, _, heq⟩ => ⟨name, values, id, heq⟩)

lemma effect_handle (event : Event) (h : Host α) :
    h.Effect given (Step.left (handle event) h) := by
  rcases hcall : event.callId? with _ | call
  · cases event with
    | makeExternal id call =>
      have hleft : Step.left (handle (.makeExternal id call)) h =
          Step.left (makeInstanceFromCall call id) h := by
        rw [Step.left, handle_makeExternal, Step.left]
        rcases makeInstanceFromCall call id h with _ | _ <;> rfl
      rw [hleft]
      exact effect_makeInstanceFromCall call id h
    | isa | isSubclass | isSubspecializer | operation => cases hcall
  · have hleft : Step.left (handle event) h = h := by
      rw [Step.left, handle_question hcall]
      rcases h.answer event with _ | _ <;> rfl
    rw [hleft]
    exact effect_refl h

end Effect

/-- **One step**: whatever a call answers, it has one of the effects. -/
lemma effect_after (c : Call α) (h : Host α) :
    h.Effect (fun o => o = h.nil ∨ c.gives o) (c.after h) := by
  cases c with
  | allocate content => exact .registers (Nat.le_succ _) .refl
  | cacheNew content =>
    rw [Call.after]
    rcases hr : Instances.register ⟨h.fresh, content⟩ h.instances with ⟨id, s⟩ | ⟨e, s⟩
    · have hs : s = (Instances.Action.register ⟨h.fresh, content⟩).after h.instances := by
        rw [Instances.Action.after, Step.left_of_ok hr]
      have hok : Step.left (Host.cacheNew content) h =
          { h with instances := s, fresh := h.fresh + 1 } :=
        Step.left_of_ok (b := id) (by simp only [Host.cacheNew, hr])
      rw [hok, hs]
      exact .binds content rfl
    · have herror : Step.left (Host.cacheNew content) h = h :=
        Step.left_of_error (e := .instances e) (by simp only [Host.cacheNew, hr])
      rw [herror]
      exact effect_refl h
  | cacheInstance o =>
    have hleft : (Call.cacheInstance o).after h =
        { h with instances := Step.left (Instances.register o) h.instances } := by
      rw [Call.after, cacheInstance, onInstances, Step.left_onPart, Step.left_widen]
    rw [hleft]
    exact .registers (Nat.le_refl _) (.single ⟨o, Or.inr rfl, rfl⟩)
  | toTerm v =>
    rw [Call.after, left_toTerm]
    exact .registers (Nat.le_refl _)
      (Codec.moves_encode_in h.codec (Or.inl rfl) v (fun o ho => Or.inr ho) h.instances)
  | makeInstance name args id => exact effect_makeInstance name args id h
  | makeInstanceFromCall call id => exact effect_makeInstanceFromCall call id h
  | handle event => exact effect_handle event h

/-! ### What a call leaves as it is -/

/-- The sessions that a session can become by calls: more is in the table, all else is kept. -/
inductive Grows (h : Host α) : Host α → Prop
  | intro (s : Instances α) (fresh : Nat) (hext : h.instances.Extends s) (hs : s.Sound fresh) :
    Grows h { h with instances := s, fresh }

lemma Grows.extends {h' : Host α} (hg : h.Grows h') : h.instances.Extends h'.instances := by
  obtain ⟨s, fresh, hext, -⟩ := hg
  exact hext

lemma Grows.table {h' : Host α} (hg : h.Grows h') : h'.instances.Sound h'.fresh := by
  obtain ⟨s, fresh, -, htable⟩ := hg
  exact htable

lemma Grows.sound {h' : Host α} (hs : h.Sound) (hg : h.Grows h') : h'.Sound := by
  obtain ⟨s, fresh, hext, htable⟩ := hg
  exact ⟨htable, hext.object hs.nil⟩

lemma Grows.refl (hs : h.Sound) : h.Grows h :=
  .intro h.instances h.fresh (Instances.Extends.refl _) hs.table

lemma Effect.grows {given : Object α → Prop} {h' : Host α} (hs : h.instances.Sound h.fresh)
    (hgiven : h.instances.Admits h.fresh given) (he : h.Effect given h') : h.Grows h' := by
  cases he with
  | registers hle hpath =>
    have hext := Instances.extends_of_registers (Instances.registers_of_registersIn hpath)
    exact .intro _ _ hext ((hs.registersIn hpath hgiven).1.mono hle)
  | binds content ha =>
    refine .intro _ _ (Instances.Extends.after _ ?_) (hs.after_new ha)
    rintro rfl; cases ha

/-- The absent value agrees with what the caller hands in. -/
lemma admits_nil (hs : h.Sound) {c : Call α} (hc : c.Admitted h) :
    h.instances.Admits h.fresh fun o => o = h.nil ∨ c.gives o := by
  refine ⟨fun ho => ?_, fun ho hp hsame => ?_, fun ho hp hsame => ?_⟩
  · rcases ho with rfl | ho
    · exact hs.table.used hs.nil
    · exact hc.used ho
  · rcases ho with rfl | ho <;> rcases hp with rfl | hp
    · rfl
    · exact (hc.held hp hs.nil (by rwa [Object.same_comm])).symm
    · exact hc.held ho hs.nil hsame
    · exact hc.agree ho hp hsame
  · rcases ho with rfl | ho
    · exact hs.table.coherent _ _ _ _ hs.nil hp hsame
    · exact hc.held ho hp hsame

/-- **Calls only add**: whatever a call answers, the session keeps what it had. -/
theorem grows_after (hs : h.Sound) {c : Call α} (hc : c.Admitted h) : h.Grows (c.after h) :=
  (effect_after c h).grows hs.table (admits_nil hs hc)

/-! ### Sessions -/

/-- The states of a session. -/
inductive Reachable : Host α → Prop
  | start (config : Config) {classes : Classes α} (hclasses : classes.Reachable) :
    Reachable (withClasses config classes)
  | call {h : Host α} (hh : Reachable h) {c : Call α} (hc : c.Admitted h) : Reachable (c.after h)
  | registerClass (c : Class α) {h : Host α} (hh : Reachable h) :
    Reachable (Step.left (registerClass c) h)
  | registerAncestry (name : String) (ancestors : List String) {h : Host α} (hh : Reachable h) :
    Reachable (Step.left (registerAncestry name ancestors) h)
  | endSession {h : Host α} (hh : Reachable h) : Reachable (Step.left endSession h)
  | setAcceptExpression (accept : Bool) {h : Host α} (hh : Reachable h) :
    Reachable (h.setAcceptExpression accept)

lemma sound_withClasses (config : Config) (classes : Classes α) :
    (withClasses config classes).Sound := by
  have hnil : (Instances.empty.bind (⟨0, .nil⟩ : Object α) nilId).object? nilId =
      some ⟨0, .nil⟩ := by rw [Instances.object?_bind, if_pos rfl]
  have hempty : (Instances.empty : Instances α).Sound 0 :=
    ⟨Instances.reachable_empty, fun ho => (by cases ho), fun _ _ _ _ ho => (by cases ho)⟩
  exact ⟨hempty.after_new (a := .registerWithId ⟨0, .nil⟩ nilId) rfl, hnil⟩

lemma left_endSession (h : Host α) : Step.left endSession h =
    { h with instances := h.instances.clear.bind h.nil nilId } := rfl

lemma Sound.endSession (hs : h.Sound) : (Step.left endSession h).Sound := by
  have hclear : h.instances.clear.Sound h.fresh :=
    ⟨hs.table.reachable.after .clear, fun ho => (by cases ho), fun _ _ _ _ ho => (by cases ho)⟩
  have hnil := hclear.after (a := .registerWithId h.nil nilId) (Nat.le_refl _)
    (fun hp => by cases hp; exact hs.table.used hs.nil) (fun _ hp => by cases hp)
  rw [left_endSession]
  exact ⟨hnil, by rw [Instances.object?_bind, if_pos rfl]⟩

/-- **The run invariant**: a session holds one object for each address, and the absent value. -/
theorem Reachable.sound (hh : h.Reachable) : h.Sound := by
  induction hh with
  | start config _ => exact sound_withClasses config _
  | call _ hc ih => exact (grows_after ih hc).sound ih
  | registerClass c _ ih =>
    rw [Host.registerClass, onClasses, Step.left_onPart]
    exact ⟨ih.table, ih.nil⟩
  | registerAncestry name ancestors _ ih =>
    rw [Host.registerAncestry, onClasses, Step.left_onPart]
    exact ⟨ih.table, ih.nil⟩
  | endSession _ ih => exact ih.endSession
  | setAcceptExpression accept _ ih => exact ⟨ih.table, ih.nil⟩

end Host

end HostBridge
