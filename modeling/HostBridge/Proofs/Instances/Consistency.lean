import HostBridge.Proofs.Instances.History

/-!
The two lookups of the table agree, and bindings last until the table is cleared.

An object may own several ids, so the lookups are not inverse to each other: going from an
object to an id and back ends at the same object, going from an id to an object and back ends
at the id under which the object was bound first.
-/

namespace HostBridge.Instances

variable {α : Type}

/-! ### Extensions of a table -/

/-- Every binding of the one table is a binding of the other, and every id of an object is. -/
structure Extends (s s' : Instances α) : Prop where
  object : ∀ {i o}, s.object? i = some o → s'.object? i = some o
  idOf : ∀ {o i}, s.idOf? o = some i → s'.idOf? o = some i

namespace Extends

variable {s s' s'' : Instances α}

lemma refl (s : Instances α) : s.Extends s := ⟨id, id⟩

lemma trans (h : s.Extends s') (h' : s'.Extends s'') : s.Extends s'' :=
  ⟨fun ho => h'.object (h.object ho), fun hi => h'.idOf (h.idOf hi)⟩

lemma bind (s : Instances α) (o : Object α) {id : InstanceId} (hfree : s.object? id = none) :
    s.Extends (s.bind o id) := by
  refine ⟨fun {i p} hp => ?_, fun {p i} hi => ?_⟩
  · have hne : i ≠ id := by
      rintro rfl; rw [hfree] at hp; cases hp
    rw [object?_bind, if_neg hne, hp]
  · rw [idOf?_bind]
    by_cases hsame : p.same o = true
    · -- the same object has an id already, which is kept
      have ho : s.idOf? o = some i := (s.idOf?_congr hsame).symm.trans hi
      rw [if_pos hsame, ho, Option.getD_some]
    · rw [if_neg hsame]; exact hi

lemma register (s : Instances α) (o : Object α) :
    s.Extends (Step.left (Instances.register o) s) := by
  rcases register_cases o s with ⟨id, -, hr⟩ | ⟨e, -, hr⟩ | ⟨id, -, -, hfree, hr⟩
  · rw [Step.left_of_ok hr]; exact refl s
  · rw [Step.left_of_error hr]; exact refl s
  · rw [Step.left_of_ok hr]; exact bind s o hfree

lemma registerWithId (s : Instances α) (o : Object α) (id : InstanceId) :
    s.Extends (Step.left (Instances.registerWithId o id) s) := by
  rcases registerWithId_cases o id s with ⟨p, -, hr⟩ | ⟨hfree, hr⟩
  · rcases hsame : p.same o with _ | _
    · rw [Step.left_of_error (by rw [hr, hsame]; rfl)]; exact refl s
    · rw [Step.left_of_ok (by rw [hr, hsame]; rfl)]; exact refl s
  · rw [Step.left_of_ok hr]; exact bind s o hfree

lemma after (s : Instances α) {a : Action α} (ha : a ≠ .clear) : s.Extends (a.after s) := by
  cases a with
  | register o => exact register s o
  | registerWithId o id => exact registerWithId s o id
  | clear => exact absurd rfl ha

/-- Calls other than clearings only add to the table. -/
lemma run (actions more : List (Action α)) (hmore : .clear ∉ more) :
    (History.run actions).table.Extends (History.run (actions ++ more)).table := by
  induction more using List.reverseRecOn with
  | nil => rw [List.append_nil]; exact refl _
  | append_singleton more a ih =>
    have hm : .clear ∉ more := fun h => hmore (List.mem_append_left _ h)
    have ha : a ≠ .clear := by
      rintro rfl; exact hmore (List.mem_append_right _ (List.mem_singleton_self _))
    rw [← List.append_assoc, History.run_concat, History.table_step]
    exact (ih hm).trans (after _ ha)

end Extends

/-! ### Agreement of the lookups -/

/--
**Consistency.** After every run of calls: the id of an object is bound to that object; a bound
object has an id, the one under which it was bound first since the table was last cleared;
further calls other than a clearing leave every binding and every object's id as they are; and
a call that fails leaves the table as it was.
-/
theorem lookups_consistent (actions : List (Action α)) :
    let h := History.run actions
    (∀ o i, h.table.idOf? o = some i → ∃ p, h.table.get i = .ok p ∧ p.same o = true) ∧
    (∀ i o, h.table.get i = .ok o → ∃ j p, h.table.idOf? o = some j ∧ h.table.get j = .ok p ∧
      p.same o = true ∧ h.firstId? o = some j) ∧
    (∀ more, .clear ∉ more →
      (∀ i o, h.table.get i = .ok o → (History.run (actions ++ more)).table.get i = .ok o) ∧
      (∀ o i, h.table.idOf? o = some i →
        (History.run (actions ++ more)).table.idOf? o = some i)) ∧
    (∀ o e s', register o h.table = .error e s' → s' = h.table) ∧
    (∀ o id e s', registerWithId o id h.table = .error e s' → s' = h.table) := by
  intro h
  have hs : h.Sound := History.run_sound actions
  have hobject : ∀ o i, h.table.idOf? o = some i →
      ∃ p, h.table.get i = .ok p ∧ p.same o = true := by
    intro o i hi
    obtain ⟨p, hp, hsame⟩ := hs.object_of_idOf hi
    exact ⟨p, get_eq_ok.mpr hp, hsame⟩
  refine ⟨hobject, fun i o hio => ?_, fun more hmore => ⟨fun i o hio => ?_, fun o i hi => ?_⟩,
    fun o e s' he => register_error he, fun o id e s' he => registerWithId_error he⟩
  · obtain ⟨j, hj⟩ := hs.idOf_of_object (get_eq_ok.mp hio)
    obtain ⟨p, hp, hsame⟩ := hobject o j hj
    exact ⟨j, p, hj, hp, hsame, by rw [← hs.idOf_eq, hj]⟩
  · exact get_eq_ok.mpr ((Extends.run actions more hmore).object (get_eq_ok.mp hio))
  · exact (Extends.run actions more hmore).idOf hi

end HostBridge.Instances
