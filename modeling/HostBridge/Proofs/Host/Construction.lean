import HostBridge.Proofs.Classes.Ancestry
import HostBridge.Proofs.Classes.Construction
import HostBridge.Proofs.Host.Session

/-!
Making an instance.

Things have to go well one after another: the arguments are a list, all its items are read, the
class is looked up, one of its constructors succeeds, and the id that the engine chose is free.
The first of them that does not is what is reported, and the session is then as it was.
-/

namespace HostBridge.Host

variable {α : Type} {h h' : Host α} {name : String} {args : Term} {items : List Term}
  {values : List (Value α)} {id : InstanceId} {content : Content α} {o : Object α} {e : Error}

/-! ### Conditions -/

/-- The arguments are read from a list. -/
def ReadsArgs (h : Host α) (args : Term) (values : List (Value α)) : Prop :=
  ∃ items, args.value = .list items ∧ h.ReadsAll items values

/-- They are, the class builds the content from what they are read as, and the id is free. -/
def Constructs (h : Host α) (name : String) (args : Term) (id : InstanceId)
    (content : Content α) : Prop :=
  ∃ values c, h.ReadsArgs args values ∧ h.classes.get name = .ok c ∧ c.Yields values content ∧
    h.instances.object? id = none

/-- The first condition that fails, and what is reported of it. -/
inductive FailsFirst (h : Host α) (name : String) (args : Term) (id : InstanceId) : Error → Prop
  | notList (hargs : ∀ items, args.value ≠ .list items) :
    FailsFirst h name args id
      (.term (.mismatch "constructor arguments" "List" args.value.tag.name))
  | item {front back : List Term} {t : Term} {values : List (Value α)} {e : Error}
    (hargs : args.value = .list (front ++ t :: back)) (hfront : h.ReadsAll front values)
    (ht : h.toResolved t = .error e) : FailsFirst h name args id e
  | unknownClass {values : List (Value α)} (hvalues : h.ReadsArgs args values)
    (hname : h.classes.contains name = false) :
    FailsFirst h name args id (.classes (.unknown name))
  | rejected {values : List (Value α)} {c : Class α} {message : String}
    (hvalues : h.ReadsArgs args values) (hget : h.classes.get name = .ok c)
    (hrejects : c.Rejects values message) :
    FailsFirst h name args id (.classes (.notConstructed c.name message))
  | idTaken {values : List (Value α)} {c : Class α} {content : Content α} {existing : Object α}
    (hvalues : h.ReadsArgs args values) (hget : h.classes.get name = .ok c)
    (hyields : c.Yields values content) (htaken : h.instances.object? id = some existing) :
    FailsFirst h name args id (.instances (.taken id existing.repr content.repr))

/-- Arguments that are not read are no list, or one of the items cannot be read. -/
lemma readsArgs_or_failsFirst (h : Host α) (name : String) (args : Term) (id : InstanceId) :
    (∃ values, h.ReadsArgs args values) ∨ ∃ e, h.FailsFirst name args id e := by
  by_cases hlist : ∃ items, args.value = .list items
  · obtain ⟨items, hargs⟩ := hlist
    rcases hvalues : h.toResolvedList items with e | values
    · obtain ⟨front, t, back, values, rfl, hfront, ht⟩ := toResolvedList_eq_error.mp hvalues
      exact Or.inr ⟨e, .item hargs hfront ht⟩
    · exact Or.inl ⟨values, items, hargs, toResolvedList_eq_ok.mp hvalues⟩
  · exact Or.inr ⟨_, .notList (not_exists.mp hlist)⟩

/-- All conditions hold, or one of them is the first that fails. -/
lemma constructs_or_failsFirst (h : Host α) (name : String) (args : Term) (id : InstanceId) :
    (∃ content, h.Constructs name args id content) ∨ ∃ e, h.FailsFirst name args id e := by
  rcases readsArgs_or_failsFirst h name args id with ⟨values, hvalues⟩ | hfails
  · rcases hname : h.classes.contains name with _ | _
    · exact Or.inr ⟨_, .unknownClass hvalues hname⟩
    obtain ⟨c, hc⟩ := Classes.contains_iff.mp hname
    have hget : h.classes.get name = .ok c := Classes.get_eq_ok.mpr hc
    rcases c.yields_or_rejects values with ⟨content, hyields⟩ | ⟨message, hrejects⟩
    · rcases htaken : h.instances.object? id with _ | existing
      · exact Or.inl ⟨content, values, c, hvalues, hget, hyields, htaken⟩
      · exact Or.inr ⟨_, .idTaken hvalues hget hyields htaken⟩
    · exact Or.inr ⟨_, .rejected hvalues hget hrejects⟩
  · exact Or.inr hfails

/-! ### What happens then -/

/-- The session in which a new object holds the content and is bound to the id. -/
def withNew (h : Host α) (content : Content α) (id : InstanceId) : Host α :=
  { h with instances := h.instances.bind ⟨h.fresh, content⟩ id, fresh := h.fresh + 1 }

/-- Once its arguments are read, an instance is constructed from them. -/
lemma makeInstance_of_readsArgs (hvalues : h.ReadsArgs args values) :
    makeInstance name args id h = construct name values id h := by
  obtain ⟨items, hargs, hitems⟩ := hvalues
  simp only [makeInstance, hargs, toResolvedList_eq_ok.mpr hitems]

lemma makeInstance_of_constructs (hc : h.Constructs name args id content) :
    makeInstance name args id h = .ok ⟨h.fresh, content⟩ (h.withNew content id) := by
  obtain ⟨values, c, hvalues, hget, hyields, hfree⟩ := hc
  simp only [makeInstance_of_readsArgs hvalues, construct, hget,
    Class.construct_of_yields hyields, Instances.registerWithId_free hfree, withNew]

lemma makeInstance_of_failsFirst (hs : h.instances.Sound h.fresh)
    (hf : h.FailsFirst name args id e) : makeInstance name args id h = .error e h := by
  cases hf with
  | notList hargs =>
    unfold makeInstance
    split
    · rename_i items hitems
      exact absurd hitems (hargs items)
    · rfl
  | item hargs hfront ht =>
    simp only [makeInstance, hargs,
      toResolvedList_eq_error.mpr ⟨_, _, _, _, rfl, hfront, ht⟩]
  | unknownClass hvalues hname =>
    have hget : h.classes.get name = .error (.unknown name) := by
      rw [Classes.get, Classes.contains_eq_false_iff.mp hname]
    simp only [makeInstance_of_readsArgs hvalues, construct, hget]
  | rejected hvalues hget hrejects =>
    simp only [makeInstance_of_readsArgs hvalues, construct, hget,
      Class.construct_of_rejects hrejects]
  | @idTaken _ _ content existing hvalues hget hyields htaken =>
    -- a new object is not the one that the id is bound to, so the id is refused
    have hregister : Instances.registerWithId ⟨h.fresh, content⟩ id h.instances =
        .error (.taken id existing.repr content.repr) h.instances := by
      simp only [Instances.registerWithId, htaken, hs.same_new htaken]
      rfl
    simp only [makeInstance_of_readsArgs hvalues, construct, hget,
      Class.construct_of_yields hyields, hregister]

/-- An instance is made exactly if all conditions hold. -/
lemma makeInstance_eq_ok (hs : h.instances.Sound h.fresh) :
    makeInstance name args id h = .ok o h' ↔ ∃ content, h.Constructs name args id content ∧
      o = ⟨h.fresh, content⟩ ∧ h' = h.withNew content id := by
  constructor
  · intro hok
    rcases constructs_or_failsFirst h name args id with ⟨content, hc⟩ | ⟨e, hf⟩
    · rw [makeInstance_of_constructs hc] at hok; cases hok
      exact ⟨content, hc, rfl, rfl⟩
    · rw [makeInstance_of_failsFirst hs hf] at hok; cases hok
  · rintro ⟨content, hc, rfl, rfl⟩
    exact makeInstance_of_constructs hc

/-- And otherwise the first that fails is reported. -/
lemma makeInstance_eq_error (hs : h.instances.Sound h.fresh) :
    makeInstance name args id h = .error e h' ↔ h.FailsFirst name args id e ∧ h' = h := by
  constructor
  · intro herror
    rcases constructs_or_failsFirst h name args id with ⟨content, hc⟩ | ⟨e', hf⟩
    · rw [makeInstance_of_constructs hc] at herror; cases herror
    · rw [makeInstance_of_failsFirst hs hf] at herror; cases herror
      exact ⟨hf, rfl⟩
  · rintro ⟨hf, rfl⟩
    exact makeInstance_of_failsFirst hs hf

/-- The id is bound to the new object, and is the object's id. -/
lemma withNew_lookups (hs : h.instances.Sound h.fresh) (content : Content α) (id : InstanceId) :
    (h.withNew content id).getInstance id = .ok ⟨h.fresh, content⟩ ∧
      (h.withNew content id).instances.idOf? ⟨h.fresh, content⟩ = some id := by
  refine ⟨getInstance_eq_ok.mpr ?_, ?_⟩
  · rw [withNew, Instances.object?_bind, if_pos rfl]
  · rw [withNew, Instances.idOf?_bind, if_pos (Object.same_self _), hs.idOf?_new, Option.getD_none]

/-- A call without keyword arguments is as good as the list of its arguments. -/
lemma makeInstanceFromCall_eq {call : Term} {kwargs : Option (List (String × Term))}
    (hcall : call.value = .call name items kwargs) (hkwargs : kwargs = none ∨ kwargs = some [])
    (hargs : args.value = .list items) :
    makeInstanceFromCall call id h = makeInstance name args id h := by
  simp only [makeInstance, hargs, makeInstanceFromCall, hcall]
  rcases hkwargs with rfl | rfl <;> rfl

/--
**The outcome of construction.** In a session whose table of instances is sound, as it is in every
session (`Reachable.sound`): an instance is made exactly from a list whose items can all be read,
if the class is registered, one of its constructors takes them and succeeds, and the id is free.
It is then a new object, which holds what the first of those constructors has built; the id is
bound to it and is its id, and all else is as before. Otherwise the first of these conditions that
fails is reported, and the session is as it was. A call without keyword arguments comes to the
same as the list of its arguments.
-/
theorem makeInstance_outcome (hs : h.instances.Sound h.fresh) (name : String) (args : Term)
    (id : InstanceId) :
    (∀ o h', makeInstance name args id h = .ok o h' ↔ ∃ content,
      h.Constructs name args id content ∧ o = ⟨h.fresh, content⟩ ∧ h' = h.withNew content id) ∧
    (∀ o h', makeInstance name args id h = .ok o h' →
      h'.getInstance id = .ok o ∧ h'.instances.idOf? o = some id) ∧
    (∀ e h', makeInstance name args id h = .error e h' ↔
      h.FailsFirst name args id e ∧ h' = h) ∧
    ∀ call items kwargs, call.value = .call name items kwargs →
      (kwargs = none ∨ kwargs = some []) → args.value = .list items →
        makeInstanceFromCall call id h = makeInstance name args id h := by
  refine ⟨fun o h' => makeInstance_eq_ok hs, fun o h' hok => ?_,
    fun e h' => makeInstance_eq_error hs, fun call items kwargs => makeInstanceFromCall_eq⟩
  obtain ⟨content, -, rfl, rfl⟩ := (makeInstance_eq_ok hs).mp hok
  exact withNew_lookups hs content id

/-- A class whose objects are built from a text, or else from a whole number. -/
def labelClass : Class Unit where
  name := "Label"
  typeName := some "Label"
  constructors := [
    ⟨some 1, fun args =>
      match args with
      | [.string s] => .ok (.foreign "Label" s ())
      | _ => .error "not a text"⟩,
    ⟨some 1, fun args =>
      match args with
      | [.integer _] => .ok (.foreign "Label" "numbered" ())
      | _ => .error "not a number"⟩]
  equality := none

/-- A session that can make labels. -/
def labelHost : Host Unit := withClasses {} (Step.left (Classes.register labelClass) .empty)

/--
The second constructor makes a label from a number; from a truth value none does, and the second
has the last word. The id of the absent value is refused, but only after a label has been built.
-/
theorem makeInstance_outcome_label :
    let number := Term.ofHost (.list [.ofHost (.number (.integer 5))])
    let truth := Term.ofHost (.list [.ofHost (.boolean true)])
    labelHost.instances.Sound labelHost.fresh ∧
    (∃ o h', makeInstance "Label" number 7 labelHost = .ok o h' ∧
      o.content = .foreign "Label" "numbered" () ∧ h'.getInstance 7 = .ok o ∧
      h'.instances.idOf? o = some 7) ∧
    makeInstance "Label" truth nilId labelHost =
      .error (.classes (.notConstructed "Label" "not a number")) labelHost ∧
    makeInstance "Label" number nilId labelHost =
      .error (.instances (.taken nilId "Nil" "numbered")) labelHost := by
  intro number truth
  have hs : labelHost.instances.Sound labelHost.fresh := (sound_withClasses {} _).table
  have hnumber : labelHost.ReadsArgs number [.integer 5] := ⟨_, rfl, .cons rfl .nil⟩
  have htruth : labelHost.ReadsArgs truth [.boolean true] := ⟨_, rfl, .cons rfl .nil⟩
  have htaken : labelHost.instances.object? nilId = some labelHost.nil := rfl
  have hyields : labelClass.Yields [.integer 5] (.foreign "Label" "numbered" ()) := by
    refine ⟨[_], _, [], rfl, fun k' hk' _ => ?_, Or.inr rfl, rfl⟩
    obtain rfl := List.mem_singleton.mp hk'
    exact ⟨_, rfl⟩
  have hrejects : labelClass.Rejects [.boolean true] "not a number" := by
    refine @Class.Rejects.lastRefusal _ _ _ [_] [] _ _ rfl (fun k' hk' _ => ?_) (Or.inr rfl) rfl
      nofun
    obtain rfl := List.mem_singleton.mp hk'
    exact ⟨_, rfl⟩
  obtain ⟨hok, hlookups, -, -⟩ := makeInstance_outcome hs "Label" number 7
  have hmade := (hok _ _).mpr ⟨_, ⟨_, _, hnumber, rfl, hyields, rfl⟩, rfl, rfl⟩
  refine ⟨hs, ⟨_, _, hmade, rfl, hlookups _ _ hmade⟩, ?_, ?_⟩
  · exact ((makeInstance_outcome hs "Label" truth nilId).2.2.1 _ _).mpr
      ⟨.rejected htruth rfl hrejects, rfl⟩
  · exact ((makeInstance_outcome hs "Label" number nilId).2.2.1 _ _).mpr
      ⟨.idTaken hnumber rfl hyields htaken, rfl⟩

end HostBridge.Host
