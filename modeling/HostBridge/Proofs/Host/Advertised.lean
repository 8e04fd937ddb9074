import HostBridge.Proofs.Host.Nil
import HostBridge.Proofs.Host.Specificity

/-!
The class that a term advertises.

The term of an object says which class stands for the object's type. Callbacks do not read this:
they look up the object by its id, and then the class anew. What they answer agrees with what the
term says, at once and as long as the session lasts, since an id stays bound to its object and a
type goes on to stand for its class. A term that names no class keeps its word until a class over
the object's type is registered.
-/

namespace HostBridge.Host

variable {α : Type} {h h' : Host α} {o : Object α} {id : InstanceId} {t : Term}

/-! ### The term of an object -/

/-- What an object is sent as under an id. -/
def objectTerm (h : Host α) (o : Object α) (id : InstanceId) : Term :=
  .ofHost (.external ⟨id, none, some o.repr, h.classes.classOf? o, none⟩)

lemma toTerm_object_eq_ok (ht : toTerm (.object o) h = .ok t h') :
    ∃ id s, Instances.register o h.instances = .ok id s ∧ h' = { h with instances := s } ∧
      t = h.objectTerm o id := by
  obtain ⟨s, hencode⟩ := toTerm_eq_ok ht
  have hleft : h' = { h with instances := Step.left (h.codec.encode (.object o)) h.instances } :=
    (Step.left_of_ok ht).symm.trans (left_toTerm _ h)
  rw [Step.left_of_ok hencode] at hleft
  obtain ⟨id, hid, rfl⟩ := Step.bind_pure_eq_ok.mp (Codec.encodeObject_eq_ok hencode)
  exact ⟨id, s, Step.widen_eq_ok.mp hid, hleft, rfl⟩

/-- An object with an id and a class is sent again without any change. -/
lemma toTerm_object_cached {own : String} (hid : h.instances.idOf? o = some id)
    (hown : h.classes.classOf? o = some own) :
    toTerm (.object o) h = .ok (h.objectTerm o id) h := by
  have hencode : h.codec.encode (.object o) h.instances =
      .ok (h.objectTerm o id) h.instances := by
    have hclass : h.codec.classes.classOf? o = some own := hown
    rw [Codec.encode, Codec.encodeObject, hclass]
    exact Step.bind_pure_eq_ok.mpr ⟨id, Step.widen_eq_ok.mpr (Instances.register_cached hid),
      by rw [objectTerm, hown]⟩
  have hstep : toTerm (.object o) h = onInstances (h.codec.encode (.object o)) h := rfl
  rw [hstep, onInstances, Step.onPart_of_ok hencode]

/-! ### What callbacks make of it -/

/-- Callbacks take the instance of a term for one of the class. -/
structure Honours (h : Host α) (t : Term) (own : String) : Prop where
  registered : h.classes.contains own = true
  isa : ∀ name, h.isa t name = h.isSubclass own name
  answered : ∀ name, h.classes.contains name = true → ∃ b, h.isa t name = .ok b
  self : h.isa t own = .ok true

/-- Callbacks take the instance for one of no class. -/
structure Disowns (h : Host α) (t : Term) (id : InstanceId) : Prop where
  isa : ∀ name, h.classes.contains name = true → h.isa t name = .ok false
  isSubspecializer : ∀ left right, h.isSubspecializer id left right = .ok false

variable {handle : Handle Term}

/-- To ask after an instance is to ask after the class that stands for its type. -/
lemma isa_eq_isSubclass (ht : t.value = .external handle)
    (ho : h.instances.object? handle.id = some o) {own : String} {chain : List String}
    (hown : h.classes.classOf? o = some own) (hchain : h.classes.ancestry own = .ok chain)
    (name : String) : h.isa t name = h.isSubclass own name := by
  rw [isa, ht, isSubclass]
  simp only [getInstance_eq_ok.mpr ho, hown, bind, Except.bind]
  rcases hname : h.classes.contains name with _ | _
  · -- both report the same name as unknown
    rw [Classes.isSubclass, hchain]
    simp only [hname, bind, Except.bind]
    rfl
  · rfl

lemma honours_of_classOf (hclasses : h.classes.Reachable) (ht : t.value = .external handle)
    (ho : h.instances.object? handle.id = some o) {own : String}
    (hown : h.classes.classOf? o = some own) : h.Honours t own := by
  obtain ⟨chain, hchain⟩ := hclasses.exists_ancestry hown
  have hmem : own ∈ chain := hclasses.mem_ancestry hchain
  have hregistered : h.classes.contains own = true := hclasses.contains_of_mem_ancestry hchain hmem
  have hisa : ∀ {name}, h.classes.contains name = true → h.isa t name = .ok (chain.contains name) :=
    isa_of_classOf ht ho hown hchain
  refine ⟨hregistered, isa_eq_isSubclass ht ho hown hchain, fun name hname => ⟨_, hisa hname⟩, ?_⟩
  rw [hisa hregistered, List.contains_iff_mem.mpr hmem]

lemma disowns_of_classOf (ht : t.value = .external handle)
    (ho : h.instances.object? handle.id = some o) (hown : h.classes.classOf? o = none) :
    h.Disowns t handle.id := by
  refine ⟨fun name hname => ?_, fun left right => ?_⟩
  · rw [isa, ht]
    simp only [getInstance_eq_ok.mpr ho, hname, hown, bind, Except.bind, if_true]
  · exact isSubspecializer_eq ho (.unregistered hown) left right

/-- No class has been registered over the type of the object. -/
def Unclaimed (h : Host α) (o : Object α) : Prop :=
  ∀ name c, h.classes.get name = .ok c → c.typeName ≠ some o.typeName

lemma Unclaimed.classOf?_eq_none (hu : h.Unclaimed o) (hclasses : h.classes.Reachable) :
    h.classes.classOf? o = none := by
  rcases hown : h.classes.classOf? o with _ | own
  · rfl
  · obtain ⟨c, hget, htype⟩ := hclasses.exists_class hown
    exact absurd htype (hu own c hget)

/--
**What a term advertises holds.** Let an object that was made before be sent in a state of a
session. Its term is a handle. If it names a class, then from then on until the session ends
callbacks take the instance for one of this class: the class is registered, the instance belongs
to exactly those classes that the class is or descends from, itself among them, and the object is
sent as the same term again. If it names none, callbacks take the instance for one of no class for
as long as no class over the type of the object is registered.
-/
theorem advertised_class_honoured (hh : h.Reachable) (ho : (Call.toTerm (.object o)).Admitted h)
    (ht : toTerm (.object o) h = .ok t h') :
    ∃ handle, t.value = .external handle ∧
      (∀ own, handle.classRepr = some own → ∀ h'', h'.Later h'' →
        h''.Honours t own ∧ toTerm (.object o) h'' = .ok t h'') ∧
      (handle.classRepr = none → ∀ h'', h'.Later h'' → h''.Unclaimed o →
        h''.Disowns t handle.id) := by
  have hh' : h'.Reachable := by
    have hafter : (Call.toTerm (.object o)).after h = h' := Step.left_of_ok ht
    exact hafter ▸ hh.call ho
  obtain ⟨id, s, hregister, rfl, rfl⟩ := toTerm_object_eq_ok ht
  have hobject : s.object? id = some o :=
    hh.sound.table.object_of_register ho (Value.self_mem_parts _) hregister
  have hid : s.idOf? o = some id := Instances.idOf_of_register hregister
  refine ⟨_, rfl, fun own hsays h'' hl => ?_, fun _ h'' hl hu => ?_⟩
  · have hown : h.classes.classOf? o = some own := hsays
    have hkept := hl.keeps hh'.sound
    have hclasses : h''.classes.Reachable := (hl.reachable hh').classes
    have hown'' : h''.classes.classOf? o = some own := hkept.classes.nameOf hown
    have hterm : h.objectTerm o id = h''.objectTerm o id := by
      rw [objectTerm, hown, objectTerm, hown'']
    refine ⟨honours_of_classOf hclasses rfl (hkept.instances.object hobject) hown'', ?_⟩
    rw [hterm]
    exact toTerm_object_cached (hkept.instances.idOf hid) hown''
  · have hkept := hl.keeps hh'.sound
    have hclasses : h''.classes.Reachable := (hl.reachable hh').classes
    exact disowns_of_classOf rfl (hkept.instances.object hobject) (hu.classOf?_eq_none hclasses)

/-- A new object may be sent. -/
lemma admitted_allocate (hs : h.Sound) (content : Content α) :
    (Call.toTerm (.object ⟨h.fresh, content⟩)).Admitted ((Call.allocate content).after h) := by
  have hgives : ∀ {p : Object α}, (Call.toTerm (.object ⟨h.fresh, content⟩)).gives p →
      p = ⟨h.fresh, content⟩ := by
    intro p hp
    simpa [Call.gives, Value.parts] using hp
  refine ⟨fun hp => ?_, fun hp hq _ => (hgives hp).trans (hgives hq).symm,
    fun {p i q} hp hq hsame => ?_⟩
  · rw [hgives hp]
    exact Nat.lt_succ_self h.fresh
  · rw [hgives hp, Object.same_comm, hs.table.same_new hq content] at hsame
    cases hsame

/-- A dog is sent, as the first of the two classes over dogs, and stays one as ancestries change. -/
theorem advertised_class_honoured_dog :
    let dog : Object Unit := ⟨kennel.fresh, .foreign "Dog" "Rex" ()⟩
    let home := (Call.allocate dog.content).after kennel
    let t : Term := .ofHost (.external ⟨1, none, some "Rex", some "Dog", none⟩)
    home.Reachable ∧ (Call.toTerm (.object dog)).Admitted home ∧
    ∃ h', toTerm (.object dog) home = .ok t h' ∧ h'.isa t "Hound" = .ok false ∧
      let later := Step.left (registerAncestry "Dog" ["Hound"]) h'
      later.isa t "Hound" = .ok true ∧ toTerm (.object dog) later = .ok t later := by
  intro dog home t
  have hhome : home.Reachable :=
    .call kennel_reachable (Call.admitted_of_gives_nothing fun _ => not_false)
  have ho : (Call.toTerm (.object dog)).Admitted home :=
    admitted_allocate kennel_reachable.sound dog.content
  have ht : toTerm (.object dog) home = .ok t (Step.left (toTerm (.object dog)) home) := rfl
  obtain ⟨handle, hvalue, hnamed, -⟩ := advertised_class_honoured hhome ho ht
  cases hvalue
  have hnow := (hnamed "Dog" rfl _ .refl).1
  obtain ⟨hlater, hagain⟩ := hnamed "Dog" rfl _ (.registerAncestry "Dog" ["Hound"] .refl)
  exact ⟨hhome, ho, _, ht, (hnow.isa "Hound").trans rfl, (hlater.isa "Hound").trans rfl, hagain⟩

end HostBridge.Host
