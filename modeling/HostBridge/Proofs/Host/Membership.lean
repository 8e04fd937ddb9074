import HostBridge.Proofs.Classes.Construction
import HostBridge.Proofs.Host.Later

/-!
What an object is a member of.

An object is made by a class, which is asked for by its name, and is a member of classes by its
type. The class that stands for a type is the one that was first registered over it. So what was
made as that class is a member of it for as long as the session lasts; what was made as another
class over the same type is a member of that other class only if the first one descends from it.
-/

namespace HostBridge

variable {α : Type}

/-! ### What a class builds -/

namespace TypedClass

lemma typeName_of_construct (c : TypedClass α) {args : List (Value α)} {content : Content α}
    (h : c.construct args = .ok content) : c.typeName = some content.typeName := by
  obtain ⟨front, k, back, hks, -, -, hbuild⟩ := Class.construct_eq_ok_iff.mp h
  exact c.wellTyped k (by simp [hks]) args content hbuild

end TypedClass

namespace Host

variable {h h' : Host α} {name : String} {id : InstanceId}

/-! ### Instances made as a class -/

/-- An instance of a class has been made under an id, from a list of arguments or from a call. -/
inductive MadeAs (h : Host α) (name : String) (id : InstanceId) : Host α → Prop
  | fromList {args : Term} {o : Object α} {h' : Host α} :
    makeInstance name args id h = .ok o h' → MadeAs h name id h'
  | fromCall {call : Term} {args : List Term} {kwargs : Option (List (String × Term))}
    {o : Object α} {h' : Host α} : call.value = .call name args kwargs →
    makeInstanceFromCall call id h = .ok o h' → MadeAs h name id h'

/-- Either way the class has constructed what the id is bound to now. -/
lemma MadeAs.construct_eq_ok (hm : h.MadeAs name id h') :
    ∃ values o, construct name values id h = .ok o h' := by
  cases hm with
  | @fromList args o _ hmake =>
    rcases makeInstance_cases name args id h with ⟨e, he⟩ | ⟨values, heq⟩
    · rw [hmake] at he; cases he
    · exact ⟨values, o, heq.symm.trans hmake⟩
  | @fromCall call args kwargs o _ hcall hmake =>
    rcases makeInstanceFromCall_cases call id h with ⟨e, he⟩ | ⟨name', _, _, values, hcall', -, heq⟩
    · rw [hmake] at he; cases he
    · obtain ⟨rfl, -, -⟩ := Payload.call.inj (hcall.symm.trans hcall')
      exact ⟨values, o, heq.symm.trans hmake⟩

/-- The class of the name was there, and the id is bound to what it has constructed. -/
lemma MadeAs.exists_object (hs : h.Sound) (hm : h.MadeAs name id h') :
    ∃ c values o, h.classes.get name = .ok c ∧ c.construct values = .ok o.content ∧
      h'.instances.object? id = some o := by
  obtain ⟨values, o, hconstruct⟩ := hm.construct_eq_ok
  rcases construct_cases name values id h with ⟨e, he⟩ | ⟨c, content, s, hget, hbuild, hr, hok⟩
  · rw [hconstruct] at he; cases he
  · cases hconstruct.symm.trans hok
    refine ⟨c, values, ⟨h.fresh, content⟩, hget, hbuild, ?_⟩
    exact ((hs.table.registerWithId_new hr).object id).trans (if_pos rfl)

/-- The making of an instance is one of the calls of a session. -/
lemma MadeAs.later (hm : h.MadeAs name id h') : h.Later h' := by
  cases hm with
  | @fromList args o _ hmake =>
    have hafter : (Call.makeInstance name args id).after h = h' := Step.left_of_ok hmake
    exact hafter ▸ .call .refl (Call.admitted_of_gives_nothing fun _ => not_false)
  | @fromCall call args kwargs o _ hcall hmake =>
    have hafter : (Call.makeInstanceFromCall call id).after h = h' := Step.left_of_ok hmake
    exact hafter ▸ .call .refl (Call.admitted_of_gives_nothing fun _ => not_false)

/-! ### Membership -/

/-- An instance is asked after by its handle, and answered for by the class of its type. -/
lemma isa_of_classOf {t : Term} {handle : Handle Term} {o : Object α} {own : String}
    {chain : List String} (ht : t.value = .external handle)
    (ho : h.instances.object? handle.id = some o) (hown : h.classes.classOf? o = some own)
    (hchain : h.classes.ancestry own = .ok chain) (hname : h.classes.contains name = true) :
    h.isa t name = .ok (chain.contains name) := by
  have hget : h.getInstance handle.id = .ok o := getInstance_eq_ok.mpr ho
  have hsubclass : h.classes.isSubclass own name = .ok (chain.contains name) := by
    rw [Classes.isSubclass, hchain]
    exact if_pos hname
  rw [isa, ht]
  simp only [hget, hname, hown, hsubclass, if_true, bind, Except.bind, Except.mapError]

/-- Of the classes over the type of `c`, the one that was registered first. -/
def FirstOver (h : Host α) (c first : Class α) : Prop :=
  ∃ actions typeName, (Classes.History.run actions).table = h.classes ∧
    c.typeName = some typeName ∧ (Classes.History.run actions).firstOver? typeName = some first

/-- It is the class that stands for the type. -/
lemma FirstOver.nameOf {c first : Class α} {typeName : String} (hfirst : h.FirstOver c first)
    (htype : c.typeName = some typeName) : h.classes.nameOf? typeName = some first.name := by
  obtain ⟨actions, typeName', htable, htype', hfirst⟩ := hfirst
  obtain rfl := Option.some.inj (htype'.symm.trans htype)
  rw [← htable, (Classes.History.run_sound actions).nameOf_eq, hfirst, Option.map_some]

/-- Every registered class with a type has one that was registered first over the type. -/
lemma Reachable.exists_firstOver (hh : h.Reachable) {c : Class α} {typeName : String}
    (hget : h.classes.get name = .ok c) (htype : c.typeName = some typeName) :
    ∃ first, h.FirstOver c first := by
  obtain ⟨actions, htable⟩ := hh.classes.exists_history
  have hs := Classes.History.run_sound actions
  have hc : c ∈ (Classes.History.run actions).classes := by
    rw [← htable, Classes.get_eq_ok, hs.lookup_eq] at hget
    exact List.mem_of_find?_eq_some hget
  have hsome : ((Classes.History.run actions).firstOver? typeName).isSome := by
    rw [Classes.History.firstOver?, List.find?_isSome]
    exact ⟨c, hc, by simp [htype]⟩
  obtain ⟨first, hfirst⟩ := Option.isSome_iff_exists.mp hsome
  exact ⟨first, actions, typeName, htable, htype, hfirst⟩

/--
**Membership follows the first class over a type.** Let an instance be made as the class of a
name, a class of one type of objects. Of the classes over its type one was registered first. From
then on until the session ends, to ask whether the instance belongs to the class it was made as is
answered, and the answer is whether that class stands in the ancestry that the first class has by
then. So it is a member for certain if its class is the first one.
-/
theorem isa_of_madeAs (hh : h.Reachable) (c : TypedClass α)
    (hget : h.classes.get name = .ok c.toClass) (hm : h.MadeAs name id h') :
    ∃ first, h.FirstOver c.toClass first ∧
      ∀ h'', h'.Later h'' → ∀ t handle, t.value = .external handle → handle.id = id →
        (∃ chain, h''.classes.ancestry first.name = .ok chain ∧
          h''.isa t name = .ok (chain.contains name)) ∧
        (first = c.toClass → h''.isa t name = .ok true) := by
  obtain ⟨c', values, o, hget', hbuild, ho⟩ := hm.exists_object hh.sound
  obtain rfl : c' = c.toClass := Except.ok.inj (hget'.symm.trans hget)
  have htype := c.typeName_of_construct hbuild
  obtain ⟨first, hfirst⟩ := hh.exists_firstOver hget htype
  refine ⟨first, hfirst, fun h'' hl t handle ht hid => ?_⟩
  have hmade := hm.later.keeps hh.sound
  have hkept := hl.keeps hmade.sound
  have hh'' : h''.Reachable := hl.reachable (hm.later.reachable hh)
  -- the binding, the class and what stands for the type are as they were
  have hobject : h''.instances.object? handle.id = some o := hid ▸ hkept.instances.object ho
  have hown : h''.classes.classOf? o = some first.name :=
    hkept.classes.nameOf (hmade.classes.nameOf (hfirst.nameOf htype))
  have hname : h''.classes.contains name = true :=
    Classes.contains_iff.mpr
      ⟨c.toClass, Classes.get_eq_ok.mp (hkept.classes.byName (hmade.classes.byName hget))⟩
  obtain ⟨chain, hchain⟩ := hh''.classes.exists_ancestry hown
  have hisa := isa_of_classOf ht hobject hown hchain hname
  refine ⟨⟨chain, hchain, hisa⟩, fun heq => ?_⟩
  have hmem : name ∈ chain := by
    rw [← hh.classes.name_eq hget, ← heq]
    exact hh''.classes.mem_ancestry hchain
  rw [hisa, List.contains_iff_mem.mpr hmem]

/-! ### Two classes over one type -/

/-- A class over the type of dogs, under a name of choice. -/
def dogClass (name : String) : TypedClass Unit :=
  (TypedClass.ofType name "Dog").addConstructor (some 0) fun _ =>
    .ok ⟨.foreign "Dog" "Dog" (), rfl⟩

/-- A session with two classes over the type of dogs. -/
def kennel : Host Unit :=
  Step.left (registerClass (dogClass "Hound").toClass)
    (Step.left (registerClass (dogClass "Dog").toClass) (.new {}))

lemma kennel_reachable : kennel.Reachable :=
  ((Reachable.start {} .empty).registerClass _).registerClass _

/-- The handle of an instance, with nothing said about it. -/
def handleOf (id : InstanceId) : Term := .ofHost (.external ⟨id, none, none, none, none⟩)

/-- What was made as the class that was registered second does not belong to it. -/
theorem not_isa_of_madeAs_second :
    kennel.Reachable ∧ kennel.classes.get "Hound" = .ok (dogClass "Hound").toClass ∧
    ∃ o h', makeInstance "Hound" (.ofHost (.list [])) 5 kennel = .ok o h' ∧
      h'.isa (handleOf 5) "Hound" = .ok false :=
  ⟨kennel_reachable, rfl, _, _, rfl, rfl⟩

/-- It does once the class that was registered first descends from it. -/
theorem isa_of_madeAs_second :
    kennel.Reachable ∧ kennel.classes.get "Hound" = .ok (dogClass "Hound").toClass ∧
    ∃ h', kennel.MadeAs "Hound" 5 h' ∧
      (Step.left (registerAncestry "Dog" ["Hound"]) h').isa (handleOf 5) "Hound" = .ok true := by
  have hget : kennel.classes.get "Hound" = .ok (dogClass "Hound").toClass := rfl
  obtain ⟨o, h', hmake⟩ : ∃ o h', makeInstance "Hound" (.ofHost (.list [])) 5 kennel = .ok o h' :=
    ⟨_, _, rfl⟩
  have hm : kennel.MadeAs "Hound" 5 h' := .fromList hmake
  obtain ⟨first, hfirst, hall⟩ := isa_of_madeAs kennel_reachable (dogClass "Hound") hget hm
  have hname : first.name = "Dog" := by
    have hdog : Classes.nameOf? _ "Dog" = some first.name := hfirst.nameOf rfl
    exact (Option.some.inj hdog).symm
  obtain ⟨⟨chain, hchain, hisa⟩, -⟩ :=
    hall _ (.registerAncestry "Dog" ["Hound"] .refl) (handleOf 5) _ rfl rfl
  rw [hname] at hchain
  cases hmake; cases hchain
  exact ⟨kennel_reachable, hget, _, hm, hisa⟩

end Host

end HostBridge
