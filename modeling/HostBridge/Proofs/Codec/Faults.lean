import HostBridge.Proofs.Codec.Visits

/-!
When a value can be sent.

Three things can be at fault with a value: a key that is no text, an object whose class is not
registered where that is asked for, and more new objects than there are ids. A value with which
nothing is at fault is sent, and of any other the first fault is reported.
-/

namespace HostBridge.Codec

variable {α : Type} {c : Codec α} {s s' : Instances α} {v : Value α}

lemma sent_append (xs ys : List (Visit α)) : c.sent (xs ++ ys) = c.sent xs ++ c.sent ys :=
  List.filterMap_append

/-- If the ids last to the end they last all the way. -/
lemma faultless_iff {xs : List (Visit α)} :
    c.Faultless s xs ↔ (∀ x ∈ xs, c.objection? x = none) ∧
      (s.newcomers (c.sent xs)).length ≤ s.idsLeft := by
  have hfault : ∀ before x, c.fault? s before x = none ↔ c.objection? x = none ∧
      (s.newcomers (c.sent (before ++ [x]))).length ≤ s.idsLeft := by
    intro before x
    simp [fault?, Option.or_eq_none_iff]
  constructor
  · intro h
    refine ⟨fun x hx => ?_, ?_⟩
    · obtain ⟨before, after, hsplit⟩ := List.append_of_mem hx
      exact ((hfault before x).mp (h before x after hsplit)).1
    · rcases List.eq_nil_or_concat xs with rfl | ⟨before, x, hsplit⟩
      · exact Nat.zero_le _
      · rw [List.concat_eq_append] at hsplit
        have hlast := ((hfault before x).mp (h before x [] hsplit)).2
        rwa [← hsplit] at hlast
  · rintro ⟨hobjection, hroom⟩ before x after hsplit
    refine (hfault before x).mpr ⟨hobjection x (by simp [hsplit]), ?_⟩
    have hall : xs = (before ++ [x]) ++ after := by rw [hsplit]; simp
    rw [hall, sent_append] at hroom
    have hprefix := (s.newcomers_prefix (c.sent (before ++ [x])) (c.sent after)).length_le
    omega

/-- The objections to what is met in a value. -/
lemma forall_objection?_eq_none_iff :
    (∀ x ∈ v.visits, c.objection? x = none) ↔
      v.KeysAreText ∧ ∀ o, .object o ∈ v.parts → c.refuses o = false := by
  have hkey : ∀ key, c.objection? (.key key) = none ↔ key.isText = true := by
    intro key; simp [objection?]
  have hobject : ∀ o, c.objection? (.leaf (.object o)) = none ↔ c.refuses o = false := by
    intro o; simp [objection?]
  constructor
  · intro h
    have htext : v.KeysAreText := Value.forall_key_mem_visits_iff.mp fun key hmem =>
      (hkey key).mp (h _ hmem)
    refine ⟨htext, fun o ho => ?_⟩
    have hleaf : .object o ∈ v.visits.map Visit.value := by
      rw [Value.map_value_visits htext]
      exact Value.mem_leaves.mpr ⟨ho, rfl⟩
    obtain ⟨x, hx, hvalue⟩ := List.mem_map.mp hleaf
    cases x with
    | key k =>
      cases hvalue
      cases (hkey _).mp (h _ hx)
    | leaf w =>
      cases hvalue
      exact (hobject o).mp (h _ hx)
  · rintro ⟨htext, hclass⟩ x hx
    have hleaf : x.value ∈ v.leaves := by
      rw [← Value.map_value_visits htext]
      exact List.mem_map_of_mem hx
    cases x with
    | key k => exact (hkey k).mpr (Value.forall_key_mem_visits_iff.mpr htext k hx)
    | leaf w =>
      cases w with
      | object o => exact (hobject o).mpr (hclass o (Value.mem_leaves.mp hleaf).1)
      | _ => rfl

lemma refuses_eq_false_iff {o : Object α} :
    c.refuses o = false ↔
      (c.rejectUnregistered = true → ∃ name, c.classes.classOf? o = some name) := by
  rw [refuses]
  rcases c.classes.classOf? o with _ | name <;> rcases c.rejectUnregistered with _ | _ <;> simp

/-- No object of a type without a class has been sent, unless as the absent value. -/
lemma not_mem_sent_of_refuses {before : List (Visit α)} {o p : Object α}
    (hbefore : ∀ x ∈ before, c.objection? x = none) (ho : c.refuses o = true)
    (htype : p.typeName = o.typeName) (hp : p ∈ c.sent before) :
    p = c.nil ∧ .leaf .nil ∈ before := by
  have hrefuses : c.refuses p = true := by
    rw [← ho, refuses, refuses, Classes.classOf?, Classes.classOf?, htype]
  obtain ⟨x, hx, hsent⟩ := List.mem_filterMap.mp hp
  have hnone := hbefore x hx
  cases x with
  | key k =>
    cases k with
    | string => cases hsent
    | _ => cases hnone
  | leaf w =>
    cases w with
    | nil => cases hsent; exact ⟨rfl, hx⟩
    | object q =>
      cases hsent
      rw [objection?, hrefuses] at hnone
      cases hnone
    | _ => cases hsent

lemma refuses_of_fault? {before : List (Visit α)} {x : Visit α} {typeName : String}
    (h : c.fault? s before x = some (.classes (.unknown typeName))) :
    ∃ o, x = .leaf (.object o) ∧ c.refuses o = true ∧ o.typeName = typeName := by
  have hobjection : c.objection? x = some (.classes (.unknown typeName)) := by
    rw [fault?] at h
    rcases hx : c.objection? x with _ | e
    · rw [hx, Option.none_or] at h
      split at h <;> cases h
    · rw [hx, Option.some_or] at h
      exact h
  cases x with
  | key k =>
    rw [objection?] at hobjection
    split at hobjection <;> cases hobjection
  | leaf w =>
    cases w with
    | object o =>
      rw [objection?] at hobjection
      split at hobjection
      · rename_i hrefuses
        cases hobjection
        exact ⟨o, rfl, hrefuses, rfl⟩
      · cases hobjection
    | _ => cases hobjection

/--
**When encoding succeeds.** A value can be sent exactly if every key of every map in it is text,
every object in it has a registered class where that is asked for, and there are as many ids left
as there are objects in it without an id, where the absent value counts as the nil object.
Otherwise the first fault in the order of a traversal is reported. If that is an object without a
registered class, no object of its type has been bound, other than the nil object for an absent
value that came before.
-/
theorem encode_succeeds_iff (hs : s.Reachable) (v : Value α) :
    ((∃ t s', c.encode v s = .ok t s') ↔
      v.KeysAreText ∧
      (c.rejectUnregistered = true →
        ∀ o, .object o ∈ v.parts → ∃ name, c.classes.classOf? o = some name) ∧
      (s.newcomers (v.objects c.nil)).length ≤ s.idsLeft) ∧
    ∀ e s', c.encode v s = .error e s' →
      ∃ before x after, v.visits = before ++ x :: after ∧ c.Faultless s before ∧
        c.fault? s before x = some e ∧
        ∀ typeName, e = .classes (.unknown typeName) →
          ∃ o, x = .leaf (.object o) ∧ o.typeName = typeName ∧
            ∀ i p, s'.object? i = some p → p.typeName = typeName →
              s.object? i = some p ∨ (p = c.nil ∧ .leaf .nil ∈ before) := by
  have hcases := encode_cases (c := c) hs v
  constructor
  · have hsucceeds : (∃ t s', c.encode v s = .ok t s') ↔ c.Faultless s v.visits := by
      rcases hcases with ⟨hfaultless, t, s', hok, -⟩ | ⟨before, x, after, e, s', hv, -, hx, he, -⟩
      · exact iff_of_true ⟨t, s', hok⟩ hfaultless
      · refine iff_of_false (fun ⟨t, s'', hok⟩ => ?_) fun hfaultless => ?_
        · rw [he] at hok; cases hok
        · rw [hfaultless before x after hv] at hx; cases hx
    rw [hsucceeds, faultless_iff, forall_objection?_eq_none_iff, and_assoc]
    refine and_congr_right fun htext => and_congr ?_ (by rw [sent_visits htext])
    simp only [refuses_eq_false_iff]
    exact ⟨fun h hreject o ho => h o ho hreject, fun h o ho hreject => h hreject o ho⟩
  · intro e s' he
    rcases hcases with ⟨-, t, s'', hok, -⟩ | ⟨before, x, after, e', s'', hv, hbefore, hx, he', hs'⟩
    · rw [he] at hok; cases hok
    · rw [he] at he'; cases he'
      refine ⟨before, x, after, hv, hbefore, hx, ?_⟩
      rintro typeName rfl
      obtain ⟨o, rfl, hrefuses, htype⟩ := refuses_of_fault? hx
      refine ⟨o, rfl, htype, fun i p hp hpo => ?_⟩
      rcases hs'.object hp with hold | ⟨n, k, -, -, hk⟩
      · exact Or.inl hold
      · have hmem : p ∈ c.sent before :=
          Instances.mem_of_mem_newcomers (List.mem_of_getElem? hk)
        exact Or.inr (not_mem_sent_of_refuses (faultless_iff.mp hbefore).1 hrefuses
          (hpo.trans htype.symm) hmem)

/-- Once the greatest id is bound, what has an id can still be sent and nothing else can. -/
theorem encode_succeeds_iff_exhausted :
    let c : Codec Unit := ⟨.empty, ⟨0, .nil⟩, false, false⟩
    let o : Object Unit := ⟨1, .classHandle "Post"⟩
    let s : Instances Unit := Instances.empty.bind o .greatest
    (∃ t s', c.encode (.list [.object o, .object o]) s = .ok t s') ∧
    ¬ (∃ t s', c.encode (.list [.object o, .nil]) s = .ok t s') := by
  intro c o s
  have hs : s.Reachable := ⟨[.registerWithId o .greatest], rfl⟩
  have hleft : s.idsLeft = 0 := rfl
  constructor
  · refine (encode_succeeds_iff (c := c) hs (.list [.object o, .object o])).1.mpr ⟨?_, nofun, ?_⟩
    · exact Value.keysAreText_iff.mpr ⟨nofun, by
        simp [Value.inside, Value.KeysAreText, Value.parts]⟩
    · exact Nat.le_of_eq hleft.symm
  · intro h
    have hroom := ((encode_succeeds_iff (c := c) hs (.list [.object o, .nil])).1.mp h).2.2
    rw [hleft] at hroom
    exact absurd hroom (by decide)

/-- The nil object may be refused after an absent value has bound it. -/
theorem refused_but_bound :
    let c : Codec Unit := ⟨.empty, ⟨1, .foreign "Dog" "Dog" ()⟩, false, true⟩
    ∃ s', c.encode (.list [.nil, .object c.nil]) .empty = .error (.classes (.unknown "Dog")) s' ∧
      s'.object? 1 = some c.nil ∧ (Instances.empty : Instances Unit).object? 1 = none :=
  ⟨_, rfl, rfl, rfl⟩

end HostBridge.Codec
