import HostBridge.Proofs.Codec.Similar
import HostBridge.Proofs.Host.Session

/-!
What the host makes of similar terms.

A callback looks at the kind of a term, at the id in a handle, and at what terms stand for in the
session. It finds all of this in the essence of a term, and so it answers, fails and changes the
session as it would have for the essence.
-/

namespace HostBridge

variable {α : Type}

namespace Event

/-- Events that differ by similar terms at most. -/
inductive Similar : Event → Event → Prop
  | makeExternal (id : UInt64) {call call' : Term} (h : call.Similar call') :
    Similar (.makeExternal id call) (.makeExternal id call')
  | isa (call : UInt64) (classTag : String) {subject subject' : Term}
    (h : subject.Similar subject') :
    Similar (.isa call subject classTag) (.isa call subject' classTag)
  | isSubclass (call : UInt64) (left right : String) :
    Similar (.isSubclass call left right) (.isSubclass call left right)
  | isSubspecializer (call id : UInt64) (left right : String) :
    Similar (.isSubspecializer call id left right) (.isSubspecializer call id left right)
  | operation (call : UInt64) (operator : String) {args args' : List Term}
    (h : List.Forall₂ Term.Similar args args') :
    Similar (.operation call operator args) (.operation call operator args')

end Event

namespace Host

/-! ### Callbacks on the essence of a term -/

lemma toResolved_essence (h : Host α) (t : Term) : h.toResolved t.essence = h.toResolved t :=
  Codec.decodeResolved_essence h.codec h.instances t

lemma toResolvedList_essence (h : Host α) (items : List Term) :
    h.toResolvedList (Term.listEssence items) = h.toResolvedList items := by
  induction items with
  | nil => rfl
  | cons t rest ih => rw [Term.listEssence, toResolvedList, toResolved_essence, ih, toResolvedList]

lemma makeInstance_essence (name : String) (args : Term) (id : InstanceId) (h : Host α) :
    makeInstance name args.essence id h = makeInstance name args id h := by
  obtain ⟨_, _, value⟩ := args
  cases value with
  | list items => simp only [makeInstance, Term.essence, Term.valueEssence, Term.ofHost,
      toResolvedList_essence]
  | _ => rfl

lemma makeInstanceFromCall_essence (call : Term) (id : InstanceId) (h : Host α) :
    makeInstanceFromCall call.essence id h = makeInstanceFromCall call id h := by
  obtain ⟨_, _, value⟩ := call
  cases value with
  | call name args kwargs =>
    have hempty : ((Term.kwargsEssence kwargs).getD []).isEmpty = (kwargs.getD []).isEmpty := by
      rcases kwargs with _ | _ | _ <;> rfl
    simp only [makeInstanceFromCall, Term.essence, Term.valueEssence, Term.ofHost, hempty,
      toResolvedList_essence]
  | _ => rfl

lemma isa_essence (h : Host α) (t : Term) (name : String) :
    h.isa t.essence name = h.isa t name := by
  obtain ⟨_, _, value⟩ := t
  cases value <;> rfl

lemma apply_essence (h : Host α) (operator : Operator) (args : List Term) :
    h.apply operator (Term.listEssence args) = h.apply operator args := by
  match args with
  | [] | [_] => rfl
  | [left, right] => simp only [Term.listEssence, apply, toResolved_essence]
  | _ :: _ :: _ :: rest =>
    simp only [Term.listEssence, apply, List.length_cons, Term.listEssence_eq_map, List.length_map]

lemma evaluate_essence (h : Host α) (name : String) (args : Term) :
    h.evaluate name args.essence = h.evaluate name args := by
  obtain ⟨_, _, value⟩ := args
  cases value with
  | list items => simp only [evaluate, Term.essence, Term.valueEssence, Term.ofHost, apply_essence]
  | _ => rfl

/-! ### Similar terms -/

section Similar

variable {t u : Term}

lemma makeInstance_similar (htu : t.Similar u) (name : String) (id : InstanceId) (h : Host α) :
    makeInstance name t id h = makeInstance name u id h := by
  rw [← makeInstance_essence, htu, makeInstance_essence]

lemma makeInstanceFromCall_similar (htu : t.Similar u) (id : InstanceId) (h : Host α) :
    makeInstanceFromCall t id h = makeInstanceFromCall u id h := by
  rw [← makeInstanceFromCall_essence, htu, makeInstanceFromCall_essence]

lemma isa_similar (htu : t.Similar u) (h : Host α) (name : String) :
    h.isa t name = h.isa u name := by
  rw [← isa_essence, htu, isa_essence]

lemma evaluate_similar (htu : t.Similar u) (h : Host α) (name : String) :
    h.evaluate name t = h.evaluate name u := by
  rw [← evaluate_essence, htu, evaluate_essence]

lemma apply_similar {args args' : List Term} (hargs : List.Forall₂ Term.Similar args args')
    (h : Host α) (operator : Operator) : h.apply operator args = h.apply operator args' := by
  rw [← apply_essence, Term.forall₂_similar_iff.mp hargs, apply_essence]

lemma handle_similar {event event' : Event} (hevent : event.Similar event') (h : Host α) :
    handle event h = handle event' h := by
  cases hevent with
  | makeExternal id hcall =>
    rw [handle_makeExternal, handle_makeExternal, makeInstanceFromCall_similar hcall]
  | isa call classTag hsubject =>
    rw [handle_question rfl, handle_question rfl, answer, isa_similar hsubject, answer]
  | isSubclass | isSubspecializer => rfl
  | operation call operator hargs =>
    have hlist : (Term.ofHost (.list _)).Similar (.ofHost (.list _)) :=
      congrArg (fun items => Term.ofHost (.list items)) (Term.forall₂_similar_iff.mp hargs)
    rw [handle_question rfl, handle_question rfl, answer, evaluate_similar hlist, answer]

end Similar

/--
**Provenance and descriptions are never interpreted.** Whatever the session, two events that
differ by similar terms are answered alike or fail alike, and leave the same session; and so are
and do the calls of the other callbacks on similar terms.
-/
theorem callbacks_eq_of_similar (h : Host α) :
    (∀ event event', event.Similar event' → handle event h = handle event' h) ∧
    (∀ name t u id, t.Similar u → makeInstance name t id h = makeInstance name u id h) ∧
    (∀ t u id, t.Similar u → makeInstanceFromCall t id h = makeInstanceFromCall u id h) ∧
    (∀ t u name, t.Similar u → h.isa t name = h.isa u name) ∧
    (∀ name t u, t.Similar u → h.evaluate name t = h.evaluate name u) ∧
    (∀ operator ts us, List.Forall₂ Term.Similar ts us →
      h.apply operator ts = h.apply operator us) :=
  ⟨fun _ _ hevent => handle_similar hevent h,
    fun name _ _ id htu => makeInstance_similar htu name id h,
    fun _ _ id htu => makeInstanceFromCall_similar htu id h,
    fun _ _ name htu => isa_similar htu h name,
    fun name _ _ htu => evaluate_similar htu h name,
    fun operator _ _ hargs => apply_similar hargs h operator⟩

/-- A class whose objects remember how many arguments they were built from. -/
def crateClass : Class Nat :=
  ⟨"Crate", some "Crate", [⟨none, fun args => .ok (.foreign "Crate" "" args.length)⟩], none⟩

/-- The handle of an instance and a description, in which an expression is hidden. -/
def described (id : InstanceId) : Term :=
  ⟨7, 12, .external ⟨id, some ⟨8, 30, .expression .new []⟩, some "a crate", some "Crate", some 4⟩⟩

/-- Crates are made and recognized no matter what the handles in the questions say. -/
theorem callbacks_eq_of_similar_crates :
    let session : Host Nat := withClasses {} (Step.left (Classes.register crateClass) .empty)
    let plain := fun id => Term.ofHost (.external ⟨id, none, none, none, none⟩)
    let make := fun t => Event.makeExternal 3 (.ofHost (.call "Crate" [t] none))
    (make (described 0)).Similar (make (plain 0)) ∧
    ∃ h', handle (make (described 0)) session = .ok none h' ∧
      handle (make (plain 0)) session = .ok none h' ∧
      h'.isa (described 3) "Crate" = .ok true ∧ h'.isa (plain 3) "Crate" = .ok true := by
  intro session plain make
  have hmake : (make (described 0)).Similar (make (plain 0)) := .makeExternal 3 rfl
  have hplain : handle (make (plain 0)) session =
      .ok none (Step.left (handle (make (plain 0))) session) := rfl
  obtain ⟨-, -, -, hisa, -, -⟩ :=
    callbacks_eq_of_similar (Step.left (handle (make (plain 0))) session)
  have hsession := (callbacks_eq_of_similar session).1 _ _ hmake
  refine ⟨hmake, _, hsession.trans hplain, hplain, ?_, rfl⟩
  rw [hisa (described 3) (plain 3) "Crate" rfl]
  rfl

end Host

end HostBridge
