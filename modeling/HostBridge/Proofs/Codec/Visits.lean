import HostBridge.Proofs.Codec.Traversal
import HostBridge.Proofs.Instances.Enrolment
import HostBridge.Proofs.Silent
import HostBridge.Proofs.Value.Visits

/-!
Encoding as a loop over what is met.

But for the term that it makes, encoding attends to one key or leaf after another. Some are
refused whatever the table is like. An object that is not refused is registered, which fails once
the ids are used up. So the first thing at fault decides how encoding ends, and the objects met
before it have been enrolled.
-/

namespace HostBridge.Codec

variable {α : Type} (c : Codec α)

/-- Whether an object may not be sent, for want of a registered class. -/
def refuses (o : Object α) : Bool := c.rejectUnregistered && (c.classes.classOf? o).isNone

/-- What is said against a key or a leaf, whatever the table is like. -/
def objection? : Visit α → Option Error
  | .key k => if k.isText then none else some (.term (.keyNotText k.shown))
  | .leaf (.object o) => if c.refuses o then some (.classes (.unknown o.typeName)) else none
  | .leaf _ => none

/-- What is done about a key or a leaf. -/
def attend (x : Visit α) : Step (Instances α) Unit :=
  match c.objection? x, x.value.sentAs? c.nil with
  | some e, _ => throw e
  | none, some o => silent (Step.widen (Instances.register o))
  | none, none => pure ()

/-! ### Encoding without its answer -/

lemma silent_encodeReference (o : Object α) (repr : String) (classRepr : Option String) :
    silent (encodeReference o repr classRepr) = silent (Step.widen (Instances.register o)) :=
  silent_bind_pure _ _

lemma silent_encodeObject (o : Object α) :
    silent (encodeObject c o) = attend c (.leaf (.object o)) := by
  have hattend : attend c (.leaf (.object o)) =
      if c.refuses o then throw (.classes (.unknown o.typeName))
      else silent (Step.widen (Instances.register o)) := by
    rw [attend, objection?]
    cases c.refuses o <;> rfl
  rw [hattend, refuses, encodeObject]
  rcases c.classes.classOf? o with _ | name <;> rcases c.rejectUnregistered with _ | _
  · exact silent_encodeReference o _ _
  · rfl
  · exact silent_encodeReference o _ _
  · exact silent_encodeReference o _ _

lemma silent_encodePair {e : Value α × Value α}
    (ih : silent (encode c e.2) = forM e.2.visits (attend c)) :
    silent (encodePair c e) = forM (.key e.1 :: e.2.visits) (attend c) := by
  obtain ⟨k, v⟩ := e
  rw [List.forM_cons, ← ih]
  cases k with
  | string key => exact silent_onValue _ _
  | _ => rfl

lemma silent_encodeFields {fields : List (String × Value α)}
    (ih : ∀ e ∈ fields, silent (encode c e.2) = forM e.2.visits (attend c)) :
    silent (encodeFields c fields) = forM (Value.fieldsVisits fields) (attend c) := by
  rw [encodeFields_eq_mapM, Value.fieldsVisits_eq_flatMap]
  exact silent_mapM fun e he => (silent_onValue _ e).trans (ih e he)

lemma silent_encodeList {items : List (Value α)}
    (ih : ∀ v ∈ items, silent (encode c v) = forM v.visits (attend c)) :
    silent (encodeList c items) = forM (Value.listVisits items) (attend c) := by
  rw [encodeList_eq_mapM, Value.listVisits_eq_flatMap]
  exact silent_mapM ih

/-- **But for its answer**, encoding attends to what it meets, one after another. -/
lemma silent_encode (v : Value α) : silent (encode c v) = forM v.visits (attend c) := by
  induction v with
  | boolean | integer | float | string | reference | var => rfl
  | nil =>
    rw [encode, silent_encodeReference]
    exact (bind_pure (attend c (.leaf .nil))).symm
  | object o =>
    rw [encode, silent_encodeObject]
    exact (bind_pure (attend c (.leaf (.object o)))).symm
  | list items ih => exact (silent_bind_pure _ _).trans (silent_encodeList c ih)
  | dictionary fields ih => exact (silent_bind_pure _ _).trans (silent_encodeFields c ih)
  | map pairs _ ih =>
    rw [encode, encodePairs_eq_mapM, Value.visits, Value.pairsVisits_eq_flatMap]
    exact (silent_bind_pure _ _).trans (silent_mapM fun e he => silent_encodePair c (ih e he))
  | predicate name args kwargs hargs hkwargs =>
    have hk : silent (encodeKwargs c kwargs) =
        forM (Value.kwargsVisits kwargs) (attend c) := by
      rcases kwargs with _ | fields
      · rfl
      · exact (silent_bind_pure _ _).trans (silent_encodeFields c (hkwargs fields rfl))
    rw [Value.visits, List.forM_append, ← silent_encodeList c hargs, ← hk]
    exact silent_bind_bind_pure _ _ _
  | expression operator args ih => exact (silent_bind_pure _ _).trans (silent_encodeList c ih)
  | pattern tag fields ih => exact (silent_bind_pure _ _).trans (silent_encodeFields c ih)

/-! ### One thing after another -/

variable {c} {s s₁ s' : Instances α} {x : Visit α}

variable (c) in
/-- The objects as which what is met is sent. -/
def sent (xs : List (Visit α)) : List (Object α) := xs.filterMap (·.value.sentAs? c.nil)

variable (c) in
/--
What is at fault with a key or a leaf that is met after others: there is an objection to it, or its
object is one too many for the ids that are left.
-/
def fault? (s : Instances α) (before : List (Visit α)) (x : Visit α) : Option Error :=
  (c.objection? x).or
    (if s.idsLeft < (s.newcomers (c.sent (before ++ [x]))).length then
      some (.instances .exhausted)
    else none)

variable (c) in
/-- Nothing is at fault with any of what is met. -/
def Faultless (s : Instances α) (xs : List (Visit α)) : Prop :=
  ∀ before x after, xs = before ++ x :: after → c.fault? s before x = none

lemma sent_cons_of_none (h : x.value.sentAs? c.nil = none) (xs : List (Visit α)) :
    c.sent (x :: xs) = c.sent xs := List.filterMap_cons_none h

lemma sent_cons_of_some {o : Object α} (h : x.value.sentAs? c.nil = some o)
    (xs : List (Visit α)) : c.sent (x :: xs) = o :: c.sent xs := List.filterMap_cons_some h

variable (c) in
/-- The table after something has been met with which nothing is at fault. -/
inductive Passes (s : Instances α) (x : Visit α) : Instances α → Prop where
  | known (h : ∀ xs, s.newcomers (c.sent (x :: xs)) = s.newcomers (c.sent xs)) : Passes s x s
  | new {o : Object α} {n : InstanceId} (hsent : x.value.sentAs? c.nil = some o)
      (hnew : s.idOf? o = none) (hn : s.next = some n) (hfree : s.object? n = none) :
      Passes s x (s.bind o n)

lemma Passes.reachable (h : c.Passes s x s₁) (hs : s.Reachable) : s₁.Reachable := by
  cases h with
  | known => exact hs
  | @new o n _ hnew hn hfree =>
    have hafter := hs.after (.register o)
    rwa [Instances.Action.after, Step.left_of_ok (Instances.register_new hnew hn hfree)] at hafter

/-- What comes later is at fault, or not, as it would be if the loop began there. -/
lemma Passes.fault?_cons (h : c.Passes s x s₁) (before : List (Visit α)) (y : Visit α) :
    c.fault? s (x :: before) y = c.fault? s₁ before y := by
  cases h with
  | known h => rw [fault?, fault?, List.cons_append, h]
  | @new o n hsent hnew hn hfree =>
    -- one more newcomer, and one id less
    have hleft := Instances.idsLeft_bind hn o
    have hcount : (s.newcomers (c.sent (x :: (before ++ [y])))).length =
        ((s.bind o n).newcomers (c.sent (before ++ [y]))).length + 1 := by
      rw [sent_cons_of_some hsent, Instances.newcomers_cons_new hnew n, List.length_cons]
    simp only [fault?, List.cons_append, hcount, ← hleft, Nat.add_lt_add_iff_right]

lemma Passes.enrols (h : c.Passes s x s₁) {xs : List (Visit α)}
    (hrest : s₁.Enrols s' (s₁.newcomers (c.sent xs))) :
    s.Enrols s' (s.newcomers (c.sent (x :: xs))) := by
  cases h with
  | known h => rwa [h]
  | @new o n hsent hnew hn hfree =>
    rw [sent_cons_of_some hsent, Instances.newcomers_cons_new hnew n]
    exact hrest.cons hn hfree hnew

lemma Faultless.nil : c.Faultless s [] := fun before x after h => by
  rcases before with _ | _ <;> cases h

lemma Passes.faultless (h : c.Passes s x s₁) (hx : c.fault? s [] x = none) {xs : List (Visit α)}
    (hrest : c.Faultless s₁ xs) : c.Faultless s (x :: xs) := by
  intro before y after hsplit
  cases before with
  | nil => cases hsplit; exact hx
  | cons z before =>
    cases hsplit
    rw [h.fault?_cons]
    exact hrest before y after rfl

/-- What changes nothing about who is new is at fault only if there is an objection to it. -/
lemma fault?_of_known (hobjection : c.objection? x = none)
    (h : ∀ xs, s.newcomers (c.sent (x :: xs)) = s.newcomers (c.sent xs)) :
    c.fault? s [] x = none := by
  rw [fault?, hobjection, List.nil_append, h]
  rfl

lemma attend_of_none (hobjection : c.objection? x = none) (hsent : x.value.sentAs? c.nil = none) :
    attend c x s = .ok () s := by
  rw [attend, hobjection, hsent]
  rfl

lemma attend_of_some {o : Object α} (hobjection : c.objection? x = none)
    (hsent : x.value.sentAs? c.nil = some o) :
    attend c x = silent (Step.widen (Instances.register o)) := by
  rw [attend, hobjection, hsent]

/-- **One step**: either something is at fault and nothing is done, or it passes. -/
lemma attend_cases (hs : s.Reachable) (x : Visit α) :
    (∃ e, c.fault? s [] x = some e ∧ attend c x s = .error e s) ∨
    (∃ s₁, c.fault? s [] x = none ∧ attend c x s = .ok () s₁ ∧ c.Passes s x s₁) := by
  rcases hobjection : c.objection? x with _ | e
  · rcases hsent : x.value.sentAs? c.nil with _ | o
    · -- nothing is to be registered
      have hknown := fun xs => congrArg s.newcomers (sent_cons_of_none hsent xs)
      exact Or.inr ⟨s, fault?_of_known hobjection hknown, attend_of_none hobjection hsent,
        .known hknown⟩
    · rw [attend_of_some hobjection hsent]
      rcases ho : s.idOf? o with _ | id
      · have hone : s.newcomers (c.sent ([] ++ [x])) = [o] := by
          rw [List.nil_append, sent_cons_of_some hsent, Instances.newcomers_cons_new ho 0]; rfl
        rw [fault?, hobjection, Option.none_or, hone, List.length_singleton]
        rcases hs.register_of_idOf_none ho with ⟨n, hn, hfree, hregister⟩ | ⟨hn, hregister⟩
        · have hpos := Instances.idsLeft_pos hn
          refine Or.inr ⟨s.bind o n, if_neg (by omega), ?_, .new hsent ho hn hfree⟩
          exact Step.silent_eq_ok.mpr ⟨n, Step.widen_eq_ok.mpr hregister⟩
        · have hzero := Instances.idsLeft_of_next_none hn
          refine Or.inl ⟨.instances .exhausted, if_pos (by omega), ?_⟩
          exact Step.silent_eq_error.mpr (Step.widen_of_error hregister)
      · have hknown : ∀ xs, s.newcomers (c.sent (x :: xs)) = s.newcomers (c.sent xs) := by
          intro xs
          rw [sent_cons_of_some hsent, Instances.newcomers_cons_cached ho]
        refine Or.inr ⟨s, fault?_of_known hobjection hknown, ?_, .known hknown⟩
        exact Step.silent_eq_ok.mpr
          ⟨id, Step.widen_eq_ok.mpr (Instances.register_cached ho)⟩
  · refine Or.inl ⟨e, by rw [fault?, hobjection]; rfl, ?_⟩
    rw [attend, hobjection]
    rfl

/--
**The loop** passes all that is met and has enrolled its objects, or it stops at the first thing at
fault and has enrolled the objects before it.
-/
lemma forM_attend (hs : s.Reachable) (xs : List (Visit α)) :
    (c.Faultless s xs ∧ ∃ s', forM xs (attend c) s = .ok () s' ∧
      s.Enrols s' (s.newcomers (c.sent xs))) ∨
    (∃ before x after e s', xs = before ++ x :: after ∧ c.Faultless s before ∧
      c.fault? s before x = some e ∧ forM xs (attend c) s = .error e s' ∧
      s.Enrols s' (s.newcomers (c.sent before))) := by
  induction xs generalizing s with
  | nil => exact Or.inl ⟨.nil, s, rfl, .refl s⟩
  | cons y rest ih =>
    rcases attend_cases (c := c) hs y with ⟨e, hfault, hstop⟩ | ⟨s₁, hfault, hpass, hpasses⟩
    · refine Or.inr ⟨[], y, rest, e, s, rfl, .nil, hfault, ?_, .refl s⟩
      rw [List.forM_cons, Step.bind_of_error hstop]
    · have hgo : forM (y :: rest) (attend c) s = forM rest (attend c) s₁ := by
        rw [List.forM_cons, Step.bind_of_ok hpass]
      rw [hgo]
      rcases ih (hpasses.reachable hs) with
        ⟨hrest, s', hend, henrols⟩ | ⟨before, x, after, e, s', rfl, hbefore, hx, hend, henrols⟩
      · exact Or.inl ⟨hpasses.faultless hfault hrest, s', hend, hpasses.enrols henrols⟩
      · refine Or.inr ⟨y :: before, x, after, e, s', rfl, hpasses.faultless hfault hbefore, ?_, hend,
          hpasses.enrols henrols⟩
        rw [hpasses.fault?_cons, hx]

/-! ### How encoding ends -/

/-- A value in which nothing is at fault has text for keys. -/
lemma Faultless.keysAreText {v : Value α} (h : c.Faultless s v.visits) : v.KeysAreText := by
  refine Value.forall_key_mem_visits_iff.mp fun key hkey => ?_
  obtain ⟨before, after, hsplit⟩ := List.append_of_mem hkey
  have hnone := h before _ after hsplit
  cases htext : key.isText with
  | true => rfl
  | false =>
    rw [fault?, objection?, htext] at hnone
    cases hnone

lemma sent_visits {v : Value α} (h : v.KeysAreText) : c.sent v.visits = v.objects c.nil := by
  rw [Value.objects, ← Value.map_value_visits h, List.filterMap_map]
  rfl

/--
Encoding succeeds and has enrolled the objects in the value, or it fails at the first thing at
fault and has enrolled the objects before it.
-/
lemma encode_cases (hs : s.Reachable) (v : Value α) :
    (c.Faultless s v.visits ∧ ∃ t s', c.encode v s = .ok t s' ∧
      s.Enrols s' (s.newcomers (v.objects c.nil))) ∨
    (∃ before x after e s', v.visits = before ++ x :: after ∧ c.Faultless s before ∧
      c.fault? s before x = some e ∧ c.encode v s = .error e s' ∧
      s.Enrols s' (s.newcomers (c.sent before))) := by
  have hloop := forM_attend (c := c) hs v.visits
  simp only [← silent_encode, Step.silent_eq_ok, Step.silent_eq_error] at hloop
  rcases hloop with ⟨hfaultless, s', ⟨t, hend⟩, henrols⟩ | hstop
  · rw [sent_visits hfaultless.keysAreText] at henrols
    exact Or.inl ⟨hfaultless, t, s', hend, henrols⟩
  · exact Or.inr hstop

end HostBridge.Codec
