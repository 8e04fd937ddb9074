import HostBridge.Proofs.Instances.Consistency
import Mathlib.Logic.Relation

/-!
Tables of one session.

Objects are made with addresses that no object had before, and two handles of one object agree on
what it holds. So a table holds one object for each address, every address in it has been used,
and a new object is not in the table yet.
-/

namespace HostBridge.Instances

variable {α : Type}

/-- Handles of one object in the table agree on what it holds. -/
def Coherent (s : Instances α) : Prop :=
  ∀ i j o p, s.object? i = some o → s.object? j = some p → o.same p = true → o = p

/-- A table of a session in which the addresses below `fresh` have been used. -/
structure Sound (s : Instances α) (fresh : Nat) : Prop where
  reachable : s.Reachable
  used : ∀ {i o}, s.object? i = some o → o.address < fresh
  coherent : s.Coherent

/-- The given objects were made before, and agree with each other and with the table. -/
structure Admits (s : Instances α) (fresh : Nat) (given : Object α → Prop) : Prop where
  used : ∀ {o}, given o → o.address < fresh
  agree : ∀ {o p}, given o → given p → o.same p = true → o = p
  held : ∀ {o i p}, given o → s.object? i = some p → o.same p = true → o = p

/-- The object that a call may bind. -/
def Action.object? : Action α → Option (Object α)
  | register o => some o
  | registerWithId o _ => some o
  | clear => none

variable {s s' : Instances α} {fresh : Nat} {given : Object α → Prop}

/-- A call adds no object but its own. -/
lemma object?_after {a : Action α} {i : InstanceId} {p : Object α}
    (h : (a.after s).object? i = some p) : s.object? i = some p ∨ a.object? = some p := by
  have hbind : ∀ (o : Object α) (id : InstanceId), (s.bind o id).object? i = some p →
      s.object? i = some p ∨ o = p := by
    intro o id hb
    rw [object?_bind] at hb
    split at hb
    · exact Or.inr (Option.some.inj hb)
    · exact Or.inl hb
  cases a with
  | register o =>
    rw [Action.after] at h
    rcases register_cases o s with ⟨id, -, hr⟩ | ⟨e, -, hr⟩ | ⟨id, -, -, -, hr⟩
    · rw [Step.left_of_ok hr] at h; exact Or.inl h
    · rw [Step.left_of_error hr] at h; exact Or.inl h
    · rw [Step.left_of_ok hr] at h
      exact (hbind o id h).imp_right fun ho => congrArg some ho
  | registerWithId o id =>
    rw [Action.after] at h
    rcases registerWithId_cases o id s with ⟨q, -, hr⟩ | ⟨-, hr⟩
    · split at hr
      · rw [Step.left_of_ok hr] at h; exact Or.inl h
      · rw [Step.left_of_error hr] at h; exact Or.inl h
    · rw [Step.left_of_ok hr] at h
      exact (hbind o id h).imp_right fun ho => congrArg some ho
  | clear => cases h

/-- A call with an object that agrees with the table. -/
lemma Sound.after (hs : s.Sound fresh) {a : Action α} {fresh' : Nat} (hle : fresh ≤ fresh')
    (hused : ∀ {o}, a.object? = some o → o.address < fresh')
    (hheld : ∀ {o i p}, a.object? = some o → s.object? i = some p → o.same p = true → o = p) :
    (a.after s).Sound fresh' := by
  refine ⟨hs.reachable.after a, fun ho => ?_, fun i j o p ho hp hsame => ?_⟩
  · rcases object?_after ho with ho | ho
    · exact Nat.lt_of_lt_of_le (hs.used ho) hle
    · exact hused ho
  · rcases object?_after ho with ho | ho <;> rcases object?_after hp with hp | hp
    · exact hs.coherent i j o p ho hp hsame
    · exact (hheld hp ho (by rwa [Object.same_comm])).symm
    · exact hheld ho hp hsame
    · exact Option.some.inj (ho.symm.trans hp)

lemma Sound.mono (hs : s.Sound fresh) {fresh' : Nat} (hle : fresh ≤ fresh') : s.Sound fresh' :=
  ⟨hs.reachable, fun ho => Nat.lt_of_lt_of_le (hs.used ho) hle, hs.coherent⟩

/-- A new object is none of those in the table. -/
lemma Sound.same_new (hs : s.Sound fresh) {i : InstanceId} {p : Object α}
    (hp : s.object? i = some p) (content : Content α) : p.same ⟨fresh, content⟩ = false := by
  have hne : p.address ≠ fresh := Nat.ne_of_lt (hs.used hp)
  simp [Object.same, hne]

/-- Of an address that has not been used no object is in the table. -/
lemma Sound.idOf?_new (hs : s.Sound fresh) (content : Content α) :
    s.idOf? ⟨fresh, content⟩ = none := by
  rcases h : s.idOf? ⟨fresh, content⟩ with _ | id
  · rfl
  · obtain ⟨p, hp, hsame⟩ := hs.reachable.object_of_idOf h
    rw [hs.same_new hp content] at hsame; cases hsame

/-- Binding a new object. -/
lemma Sound.after_new (hs : s.Sound fresh) {a : Action α} {content : Content α}
    (ha : a.object? = some ⟨fresh, content⟩) : (a.after s).Sound (fresh + 1) := by
  refine hs.after (Nat.le_succ fresh) (fun ho => ?_) (fun {o i p} ho hp hsame => ?_)
  · rw [ha] at ho; cases ho
    exact Nat.lt_succ_self fresh
  · rw [ha] at ho; cases ho
    rw [Object.same_comm, hs.same_new hp content] at hsame; cases hsame

/-! ### One binding more -/

/--
The second table has one binding more than the first, of an id to an object that was not bound:
all other ids are bound as before, all other objects have the id they had, and the next id has
been moved past the new one unless it was past it already.
-/
structure Gains (s s' : Instances α) (id : InstanceId) (o : Object α) : Prop where
  free : s.object? id = none
  new : ∀ i p, s.object? i = some p → p.same o = false
  object : ∀ i, s'.object? i = if i = id then some o else s.object? i
  idOf : ∀ p, s'.idOf? p = if p.same o then some id else s.idOf? p
  next : (∃ n, s.next = some n ∧ n ≤ id ∧ s'.next = id.next?) ∨
    (∀ n, s.next = some n → id < n) ∧ s'.next = s.next

lemma nextPast_cases (next : Option InstanceId) (id : InstanceId) :
    (∃ n, next = some n ∧ n ≤ id ∧ nextPast next id = id.next?) ∨
    (∀ n, next = some n → id < n) ∧ nextPast next id = next := by
  rcases next with _ | n
  · exact Or.inr ⟨nofun, rfl⟩
  · by_cases hle : n ≤ id
    · exact Or.inl ⟨n, rfl, hle, by simp only [nextPast, if_pos hle]⟩
    · refine Or.inr ⟨fun m hm => ?_, by simp only [nextPast, if_neg hle]⟩
      cases hm
      exact UInt64.not_le.mp hle

/-- Binding a new object to a free id. -/
lemma Sound.gains_bind (hs : s.Sound fresh) (content : Content α) {id : InstanceId}
    (hfree : s.object? id = none) :
    s.Gains (s.bind ⟨fresh, content⟩ id) id ⟨fresh, content⟩ := by
  refine ⟨hfree, fun i p hp => hs.same_new hp content, fun i => object?_bind s _ id i,
    fun p => ?_, nextPast_cases s.next id⟩
  rw [idOf?_bind, hs.idOf?_new content, Option.getD_none]

/-- A new object is bound only to a free id. -/
lemma Sound.registerWithId_new (hs : s.Sound fresh) {content : Content α} {id : InstanceId}
    (h : registerWithId ⟨fresh, content⟩ id s = .ok () s') :
    s.Gains s' id ⟨fresh, content⟩ := by
  rcases registerWithId_cases ⟨fresh, content⟩ id s with ⟨p, hp, hr⟩ | ⟨hfree, hr⟩
  · rw [hs.same_new hp content] at hr
    rw [hr] at h; cases h
  · rw [hr] at h; cases h
    exact hs.gains_bind content hfree

/-! ### Registrations in a row -/

/-- The table after an object has been registered, or has failed to be. -/
def Registers (s s' : Instances α) : Prop := ∃ o, Step.left (register o) s = s'

/-- The same with one of the given objects. -/
def RegistersIn (known : Object α → Prop) (s s' : Instances α) : Prop :=
  ∃ o, known o ∧ Step.left (register o) s = s'

lemma RegistersIn.registers {known : Object α → Prop} {s s' : Instances α}
    (h : RegistersIn known s s') : Registers s s' := by
  obtain ⟨o, -, ho⟩ := h
  exact ⟨o, ho⟩

lemma registers_of_registersIn {known : Object α → Prop} {s s' : Instances α}
    (h : Relation.ReflTransGen (RegistersIn known) s s') : Relation.ReflTransGen Registers s s' :=
  Relation.ReflTransGen.mono (fun _ _ => RegistersIn.registers) _ _ h

lemma reachable_of_registers {s s' : Instances α} (h : Relation.ReflTransGen Registers s s')
    (hs : s.Reachable) : s'.Reachable := by
  induction h with
  | refl => exact hs
  | tail _ hstep ih =>
    obtain ⟨o, rfl⟩ := hstep
    exact ih.after (.register o)

lemma extends_of_registers {s s' : Instances α} (h : Relation.ReflTransGen Registers s s') :
    s.Extends s' := by
  induction h with
  | refl => exact Extends.refl s
  | tail _ hstep ih =>
    obtain ⟨o, rfl⟩ := hstep
    exact ih.trans (Extends.register _ o)

/-- Given objects can be registered one after another. -/
lemma Sound.registersIn (h : Relation.ReflTransGen (RegistersIn given) s s')
    (hs : s.Sound fresh) (ha : s.Admits fresh given) :
    s'.Sound fresh ∧ s'.Admits fresh given := by
  induction h with
  | refl => exact ⟨hs, ha⟩
  | @tail s₁ s₂ _ hstep ih =>
    obtain ⟨hs, ha⟩ := ih
    obtain ⟨o, ho, rfl⟩ := hstep
    refine ⟨?_, ha.used, ha.agree, fun {q i p} hq hp hsame => ?_⟩
    · exact hs.after (a := .register o) (Nat.le_refl fresh)
        (fun hp => by cases hp; exact ha.used ho) (fun hp => by cases hp; exact ha.held ho)
    · rcases object?_after (a := .register o) hp with hp | hp
      · exact ha.held hq hp hsame
      · cases hp; exact ha.agree hq ho hsame

/-- An object that agrees with the table is what its id is bound to. -/
lemma Sound.object_of_register (hs : s.Sound fresh) (ha : s.Admits fresh given) {o : Object α}
    (ho : given o) {id : InstanceId} (h : register o s = .ok id s') : s'.object? id = some o := by
  obtain ⟨hs', ha'⟩ := hs.registersIn (.single ⟨o, ho, Step.left_of_ok h⟩) ha
  obtain ⟨p, hp, hsame⟩ := hs'.reachable.object_of_idOf (idOf_of_register h)
  rw [hp, ha'.held ho hp (by rwa [Object.same_comm])]

/-! ### Objects with one id -/

/-- The object is bound to the id, and to no other. -/
structure Sole (s : Instances α) (id : InstanceId) (o : Object α) : Prop where
  object : s.object? id = some o
  idOf : s.idOf? o = some id
  only : ∀ {i p}, s.object? i = some p → p.same o = true → i = id

section Sole

variable {id : InstanceId} {o p : Object α}

/-- The first binding after the table has been cleared. -/
lemma sole_clear_bind (s : Instances α) (o : Object α) (id : InstanceId) :
    (s.clear.bind o id).Sole id o := by
  refine ⟨by rw [object?_bind, if_pos rfl], ?_, fun {i p} hp _ => ?_⟩
  · rw [idOf?_bind, if_pos o.same_self, idOf?_clear, Option.getD_none]
  · rw [object?_bind] at hp
    split at hp
    · assumption
    · cases hp

lemma Sole.idOf_same (h : s.Sole id o) (hp : p.same o = true) : s.idOf? p = some id := by
  rw [s.idOf?_congr hp]
  exact h.idOf

/-- Another object is bound. -/
lemma Sole.bind (h : s.Sole id o) {i : InstanceId} (hfree : s.object? i = none)
    (hp : p.same o = false) : (s.bind p i).Sole id o := by
  have hext := Extends.bind s p hfree
  refine ⟨hext.object h.object, hext.idOf h.idOf, fun {j q} hq hsame => ?_⟩
  rw [object?_bind] at hq
  split at hq
  · cases hq
    rw [hp] at hsame; cases hsame
  · exact h.only hq hsame

/-- Any object is registered; the one that has the id keeps it. -/
lemma Sole.register (h : s.Sole id o) (p : Object α) :
    (Step.left (Instances.register p) s).Sole id o := by
  rcases register_cases p s with ⟨i, -, hr⟩ | ⟨e, -, hr⟩ | ⟨i, hnone, -, hfree, hr⟩
  · rw [Step.left_of_ok hr]; exact h
  · rw [Step.left_of_error hr]; exact h
  · rw [Step.left_of_ok hr]
    refine h.bind hfree (Bool.eq_false_iff.mpr fun hp => ?_)
    rw [h.idOf_same hp] at hnone; cases hnone

/-- A call with another object. -/
lemma Sole.after (h : s.Sole id o) {a : Action α} (ha : a.object? = some p)
    (hp : p.same o = false) : (a.after s).Sole id o := by
  cases a with
  | register q => exact h.register q
  | registerWithId q i =>
    cases ha
    rw [Action.after]
    rcases registerWithId_cases p i s with ⟨q, -, hr⟩ | ⟨hfree, hr⟩
    · split at hr
      · rw [Step.left_of_ok hr]; exact h
      · rw [Step.left_of_error hr]; exact h
    · rw [Step.left_of_ok hr]; exact h.bind hfree hp
  | clear => cases ha

lemma Sole.registers (h : s.Sole id o) (hpath : Relation.ReflTransGen Registers s s') :
    s'.Sole id o := by
  induction hpath with
  | refl => exact h
  | tail _ hstep ih =>
    obtain ⟨p, rfl⟩ := hstep
    exact ih.register p

/-- To register the object itself does nothing, so only other objects count. -/
lemma Sole.registersIn_others (h : s.Sole id o)
    (hpath : Relation.ReflTransGen (RegistersIn given) s s') :
    Relation.ReflTransGen (RegistersIn fun p => given p ∧ p.same o = false) s s' := by
  induction hpath with
  | refl => exact .refl
  | @tail s₁ s₂ hpath hstep ih =>
    obtain ⟨p, hp, rfl⟩ := hstep
    rcases hsame : p.same o with _ | _
    · exact ih.tail ⟨p, ⟨hp, hsame⟩, rfl⟩
    · have hsole : s₁.Sole id o := h.registers (registers_of_registersIn hpath)
      rw [Step.left_of_ok (register_cached (hsole.idOf_same hsame))]
      exact ih

end Sole

end HostBridge.Instances
