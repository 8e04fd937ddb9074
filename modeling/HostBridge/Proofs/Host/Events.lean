import HostBridge.Proofs.Host.Session

/-!
What an event changes.

A question changes nothing, and neither does an event that fails, however far it has come. An
event that makes an instance and succeeds changes one thing: the id that the engine chose, which
was free, is bound to the object that the class has built.
-/

namespace HostBridge.Host

variable {α : Type} {h : Host α}

/-- The object is a new one, and what it holds was built by the class that the call names. -/
def Builds (h : Host α) (call : Term) (o : Object α) : Prop :=
  o.address = h.fresh ∧ ∃ name args kwargs values c,
    call.value = .call name args kwargs ∧ h.toResolvedList args = .ok values ∧
    h.classes.get name = .ok c ∧ c.construct values = .ok o.content

/-- An instance that was made from a call is the only change to the session. -/
structure Makes (h h' : Host α) (id : InstanceId) (call : Term) : Prop where
  gains : ∃ o, h.Builds call o ∧ h.instances.Gains h'.instances id o
  classes : h'.classes = h.classes
  config : h'.config = h.config
  nil : h'.nil = h.nil

/-- Making an instance from a call fails and changes nothing, or it makes the instance. -/
lemma makeInstanceFromCall_makes (hs : h.instances.Sound h.fresh) (call : Term)
    (id : InstanceId) :
    (∃ e, makeInstanceFromCall call id h = .error e h) ∨
    ∃ o h', makeInstanceFromCall call id h = .ok o h' ∧ h.Makes h' id call := by
  rcases makeInstanceFromCall_cases call id h with he | ⟨name, args, kwargs, values, hcall,
    hvalues, hmake⟩
  · exact Or.inl he
  rcases construct_cases name values id h with ⟨e, he⟩ | ⟨c, content, s, hget, hbuild, hr, hok⟩
  · exact Or.inl ⟨e, hmake.trans he⟩
  · refine Or.inr ⟨_, _, hmake.trans hok, ⟨⟨_, ?_, hs.registerWithId_new hr⟩, rfl, rfl, rfl⟩⟩
    exact ⟨rfl, name, args, kwargs, values, c, hcall, hvalues, hget, hbuild⟩

/-- A question is answered under the number of its call. -/
lemma answer_eq_ok {event : Event} {call : UInt64} (hcall : event.callId? = some call)
    {answer : Option Answer} (h' : h.answer event = .ok answer) :
    ∃ result, answer = some ⟨call, result⟩ := by
  cases event with
  | makeExternal => cases hcall
  | isa | isSubclass | isSubspecializer | operation =>
    cases hcall
    obtain ⟨result, -, rfl⟩ := Result.map_eq_ok.mp h'
    exact ⟨result, rfl⟩

/--
**Only the making of an instance changes a session.** In a session whose table of instances is
sound, as it is in every session (`Reachable.sound`): an event that fails leaves the session as it
was; so does one that is answered, and the answer bears the number of the event's call; and one
that succeeds without an answer is the making of an instance, whose id was free, which is bound
now to one new object that the class has built, while all else is as before.
-/
theorem handle_changes_only_by_making (hs : h.instances.Sound h.fresh) (event : Event) :
    match handle event h with
    | .error _ h' => h' = h
    | .ok (some answer) h' => h' = h ∧ event.callId? = some answer.callId
    | .ok none h' => ∃ id call, event = .makeExternal id call ∧ h.Makes h' id call := by
  rcases hcall : event.callId? with _ | call
  · cases event with
    | makeExternal id call =>
      rw [handle_makeExternal]
      rcases makeInstanceFromCall_makes hs call id with ⟨e, he⟩ | ⟨o, h', hok, hmakes⟩
      · simp only [he]
      · simp only [hok]
        exact ⟨id, call, rfl, hmakes⟩
    | isa | isSubclass | isSubspecializer | operation => cases hcall
  · rw [handle_question hcall]
    rcases hanswer : h.answer event with e | answer
    · rfl
    · obtain ⟨result, rfl⟩ := answer_eq_ok hcall hanswer
      exact ⟨rfl, rfl⟩

/-- A class whose objects are built from one whole number. -/
def stampClass : Class Int32 where
  name := "Stamp"
  typeName := some "Stamp"
  constructors := [⟨some 1, fun args =>
    match args with
    | [.integer n] => .ok (.foreign "Stamp" "" n)
    | _ => .error "not a number"⟩]
  equality := none

/-- A session that can make stamps, and has issued no id yet. -/
def stampHost : Host Int32 := withClasses {} (Step.left (Classes.register stampClass) .empty)

lemma stampHost_reachable : stampHost.Reachable := .start {} (.register stampClass .empty)

/-- A stamp is made under an id far from the next one, which is moved past it. -/
theorem handle_changes_only_by_making_stamp :
    let number := Term.ofHost (.number (.integer 5))
    let event := Event.makeExternal 41 (.ofHost (.call "Stamp" [number] none))
    stampHost.instances.Sound stampHost.fresh ∧ ∃ h', handle event stampHost = .ok none h' ∧
      ∃ o, stampHost.instances.Gains h'.instances 41 o ∧ o.content = .foreign "Stamp" "" 5 ∧
        h'.instances.idOf? o = some 41 ∧ h'.instances.next = some 42 := by
  intro number event
  have hs : stampHost.instances.Sound stampHost.fresh := stampHost_reachable.sound.table
  have hstep : handle event stampHost = .ok none (Step.left (handle event) stampHost) := rfl
  have hchanges := handle_changes_only_by_making hs event
  rw [hstep] at hchanges
  obtain ⟨id, call, hevent, ⟨o, ⟨-, hbuilt⟩, hgains⟩, -, -, -⟩ := hchanges
  obtain ⟨rfl, rfl⟩ := Event.makeExternal.inj hevent
  obtain ⟨name, args, kwargs, values, c, hcall, hvalues, hget, hcontent⟩ := hbuilt
  cases hcall; cases hvalues; cases hget
  refine ⟨hs, _, hstep, o, hgains, (Except.ok.inj hcontent).symm, ?_, rfl⟩
  rw [hgains.idOf, if_pos o.same_self]

end HostBridge.Host
