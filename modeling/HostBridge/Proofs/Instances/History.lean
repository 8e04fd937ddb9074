import HostBridge.Proofs.Step
import HostBridge.Proofs.Table
import HostBridge.Instances
import Mathlib.Data.List.Induction

/-!
The table of instances over a run of calls.

Beside the table stands its history: the bindings that the calls have made, those that a
clearing has dropped apart from those made since. The history is read off the answers of the
calls alone, and what the table says is a function of it.
-/

namespace HostBridge.Instances

variable {α : Type}

/-- A call on the table. -/
inductive Action (α : Type) where
  | register (o : Object α)
  | registerWithId (o : Object α) (id : InstanceId)
  | clear

/-- The table that a call leaves. -/
def Action.after (s : Instances α) : Action α → Instances α
  | register o => Step.left (Instances.register o) s
  | registerWithId o id => Step.left (Instances.registerWithId o id) s
  | clear => s.clear

/-- An id and the object that it is bound to. -/
abbrev Binding (α : Type) := InstanceId × Object α

/-- The binding that a call makes: it succeeds, and its id was not bound. -/
def Action.binding? (s : Instances α) : Action α → Option (Binding α)
  | register o =>
    match Instances.register o s with
    | .ok id _ => if s.has id then none else some (id, o)
    | .error .. => none
  | registerWithId o id =>
    match Instances.registerWithId o id s with
    | .ok .. => if s.has id then none else some (id, o)
    | .error .. => none
  | clear => none

/-! ### What one call can do -/

lemma register_cached {o : Object α} {id : InstanceId} {s : Instances α}
    (h : s.idOf? o = some id) : register o s = .ok id s := by
  simp only [register, h]

lemma register_exhausted {o : Object α} {s : Instances α} (h : s.idOf? o = none)
    (hn : s.next = none) : register o s = .error .exhausted s := by
  simp only [register, h, hn]

lemma register_taken {o p : Object α} {id : InstanceId} {s : Instances α}
    (h : s.idOf? o = none) (hn : s.next = some id) (hp : s.object? id = some p) :
    register o s = .error (.taken id p.repr o.repr) s := by
  simp only [register, h, hn, hp]

lemma register_new {o : Object α} {id : InstanceId} {s : Instances α} (h : s.idOf? o = none)
    (hn : s.next = some id) (hfree : s.object? id = none) :
    register o s = .ok id (s.bind o id) := by
  simp only [register, h, hn, hfree]

/-- A call to register an object changes nothing, or binds the object to the next id. -/
lemma register_cases (o : Object α) (s : Instances α) :
    (∃ id, s.idOf? o = some id ∧ register o s = .ok id s) ∨
    (∃ e, s.idOf? o = none ∧ register o s = .error e s) ∨
    (∃ id, s.idOf? o = none ∧ s.next = some id ∧ s.object? id = none ∧
      register o s = .ok id (s.bind o id)) := by
  rcases h : s.idOf? o with _ | id
  · right
    rcases hn : s.next with _ | id
    · exact Or.inl ⟨_, rfl, register_exhausted h hn⟩
    · rcases hp : s.object? id with _ | p
      · exact Or.inr ⟨id, rfl, rfl, hp, register_new h hn hp⟩
      · exact Or.inl ⟨_, rfl, register_taken h hn hp⟩
  · exact Or.inl ⟨id, rfl, register_cached h⟩

lemma registerWithId_free {o : Object α} {id : InstanceId} {s : Instances α}
    (h : s.object? id = none) : registerWithId o id s = .ok () (s.bind o id) := by
  simp only [registerWithId, h]

/-- A call to bind an id changes nothing if the id is bound, and else binds it. -/
lemma registerWithId_cases (o : Object α) (id : InstanceId) (s : Instances α) :
    (∃ p, s.object? id = some p ∧ registerWithId o id s =
      if p.same o then .ok () s else .error (.taken id p.repr o.repr) s) ∨
    (s.object? id = none ∧ registerWithId o id s = .ok () (s.bind o id)) := by
  rcases h : s.object? id with _ | p
  · exact Or.inr ⟨rfl, registerWithId_free h⟩
  · exact Or.inl ⟨p, rfl, by simp only [registerWithId, h]⟩

/-- A failing call leaves the table as it was. -/
lemma register_error {o : Object α} {e : InstanceError} {s s' : Instances α}
    (h : register o s = .error e s') : s' = s := by
  rcases register_cases o s with ⟨id, -, hr⟩ | ⟨e', -, hr⟩ | ⟨id, -, -, -, hr⟩
  · rw [hr] at h; cases h
  · rw [hr] at h; cases h; rfl
  · rw [hr] at h; cases h

lemma registerWithId_error {o : Object α} {id : InstanceId} {e : InstanceError}
    {s s' : Instances α} (h : registerWithId o id s = .error e s') : s' = s := by
  rcases registerWithId_cases o id s with ⟨p, -, hr⟩ | ⟨-, hr⟩
  · rw [hr] at h
    split at h
    · cases h
    · cases h; rfl
  · rw [hr] at h; cases h

/-! ### Bindings of a table -/

lemma has_iff {s : Instances α} {id : InstanceId} :
    s.has id = true ↔ ∃ o, s.object? id = some o := by
  rw [has, Option.isSome_iff_exists]

lemma has_eq_false {s : Instances α} {id : InstanceId} (h : s.object? id = none) :
    s.has id = false := by
  rw [has, h, Option.isSome_none]

lemma get_eq_ok {s : Instances α} {id : InstanceId} {o : Object α} :
    s.get id = .ok o ↔ s.object? id = some o := by
  unfold get
  rcases s.object? id with _ | p <;> simp

lemma object?_bind (s : Instances α) (o : Object α) (id i : InstanceId) :
    (s.bind o id).object? i = if i = id then some o else s.object? i :=
  Table.lookup_insert id i o s.byId

lemma idOf?_bind (s : Instances α) (o p : Object α) (id : InstanceId) :
    (s.bind o id).idOf? p =
      if p.same o then some ((s.idOf? o).getD id) else s.idOf? p := by
  simp only [idOf?, bind, Table.lookup_insertNew, Object.same, beq_iff_eq]

/-- Objects that are the same have the same id. -/
lemma idOf?_congr (s : Instances α) {o p : Object α} (h : o.same p = true) :
    s.idOf? o = s.idOf? p := by
  have ha : o.address = p.address := by simpa [Object.same] using h
  rw [idOf?, idOf?, ha]

/-- The answer to a registration is the object's id. -/
lemma idOf_of_register {o : Object α} {i : InstanceId} {s s' : Instances α}
    (h : register o s = .ok i s') : s'.idOf? o = some i := by
  rcases register_cases o s with ⟨id, hid, hr⟩ | ⟨e, -, hr⟩ | ⟨id, hnone, -, -, hr⟩
  · rw [hr] at h; cases h; exact hid
  · rw [hr] at h; cases h
  · rw [hr] at h; cases h
    rw [idOf?_bind, if_pos (Object.same_self o), hnone, Option.getD_none]

@[simp] lemma object?_empty (i : InstanceId) : (empty : Instances α).object? i = none := rfl

@[simp] lemma idOf?_empty (o : Object α) : (empty : Instances α).idOf? o = none := rfl

@[simp] lemma object?_clear (s : Instances α) (i : InstanceId) : s.clear.object? i = none := rfl

@[simp] lemma idOf?_clear (s : Instances α) (o : Object α) : s.clear.idOf? o = none := rfl

/-! ### Histories -/

/-- A table and the bindings made up to it, each list oldest first. -/
structure History (α : Type) where
  table : Instances α
  /-- The bindings that were dropped when the table was cleared. -/
  dropped : List (Binding α)
  /-- The bindings made since the table was last cleared. -/
  current : List (Binding α)

namespace History

def init : History α := ⟨empty, [], []⟩

def step (h : History α) : Action α → History α
  | .clear => ⟨h.table.clear, h.dropped ++ h.current, []⟩
  | a => ⟨a.after h.table, h.dropped, h.current ++ (a.binding? h.table).toList⟩

def run (actions : List (Action α)) : History α := actions.foldl step init

lemma run_concat (actions : List (Action α)) (a : Action α) :
    run (actions ++ [a]) = (run actions).step a := by
  simp [run, List.foldl_append]

/-- Every id that was ever bound, in the order of the bindings. -/
def ids (h : History α) : List InstanceId := (h.dropped ++ h.current).map (·.1)

/-- The id under which an object was bound first since the table was last cleared. -/
def firstId? (h : History α) (o : Object α) : Option InstanceId :=
  (h.current.find? fun b => b.2.same o).map (·.1)

/-- The table says what its history says. -/
structure Sound (h : History α) : Prop where
  object_iff : ∀ i o, h.table.object? i = some o ↔ (i, o) ∈ h.current
  idOf_eq : ∀ o, h.table.idOf? o = h.firstId? o
  next_eq : h.table.next = h.ids.foldl nextPast (some 1)

/-- The history after a new binding. -/
def bound (h : History α) (o : Object α) (id : InstanceId) : History α :=
  ⟨h.table.bind o id, h.dropped, h.current ++ [(id, o)]⟩

lemma ids_bound (h : History α) (o : Object α) (id : InstanceId) :
    (h.bound o id).ids = h.ids ++ [id] := by
  simp [ids, bound]

lemma firstId?_bound (h : History α) (o p : Object α) (id : InstanceId) :
    (h.bound o id).firstId? p = (h.firstId? p).or (if o.same p then some id else none) := by
  unfold firstId? bound
  rw [List.find?_append, Option.map_or]
  congr 1
  rcases hs : o.same p with _ | _ <;> simp [hs]

/-- Objects that are the same have the same first id. -/
lemma firstId?_congr (h : History α) {o p : Object α} (hs : o.same p = true) :
    h.firstId? o = h.firstId? p := by
  have hfun : (fun b : Binding α => b.2.same o) = fun b => b.2.same p := by
    funext b
    have ha : o.address = p.address := by simpa [Object.same] using hs
    simp [Object.same, ha]
  rw [firstId?, firstId?, hfun]

lemma sound_init : Sound (init : History α) :=
  ⟨by simp [init], by simp [init, firstId?], rfl⟩

variable {h : History α}

lemma Sound.bound (hs : h.Sound) {o : Object α} {id : InstanceId}
    (hfree : h.table.object? id = none) : (h.bound o id).Sound := by
  refine ⟨fun i p => ?_, fun p => ?_, ?_⟩
  · have hold := hs.object_iff i p
    simp only [History.bound, object?_bind, List.mem_append, List.mem_singleton, Prod.mk.injEq]
    by_cases hi : i = id
    · subst hi
      have hno : (i, p) ∉ h.current := by
        rw [← hold, hfree]; simp
      simp [hno, eq_comm]
    · simp [hi, hold]
  · rw [firstId?_bound, ← hs.idOf_eq p]
    simp only [History.bound, idOf?_bind]
    rcases hsame : p.same o with _ | _
    · have : o.same p = false := by rw [Object.same_comm, hsame]
      simp [this]
    · have hop : o.same p = true := by rw [Object.same_comm, hsame]
      rw [hs.idOf_eq p, hs.idOf_eq o, firstId?_congr h hop]
      rcases h.firstId? p with _ | j <;> simp [hop]
  · rw [ids_bound, List.foldl_append, ← hs.next_eq]
    rfl

lemma Sound.clear (hs : h.Sound) :
    (⟨h.table.clear, h.dropped ++ h.current, []⟩ : History α).Sound := by
  refine ⟨by simp, by simp [firstId?], ?_⟩
  simp only [ids, List.append_nil]
  exact hs.next_eq

/-- An id of a bound object is bound to that object. -/
lemma Sound.object_of_idOf (hs : h.Sound) {o : Object α} {i : InstanceId}
    (hi : h.table.idOf? o = some i) : ∃ p, h.table.object? i = some p ∧ p.same o = true := by
  rw [hs.idOf_eq, firstId?, Option.map_eq_some_iff] at hi
  obtain ⟨⟨j, p⟩, hfind, rfl⟩ := hi
  exact ⟨p, (hs.object_iff j p).mpr (List.mem_of_find?_eq_some hfind),
    by simpa using List.find?_some hfind⟩

/-- Every bound object has an id. -/
lemma Sound.idOf_of_object (hs : h.Sound) {o : Object α} {i : InstanceId}
    (hi : h.table.object? i = some o) : ∃ j, h.table.idOf? o = some j := by
  have hmem := (hs.object_iff i o).mp hi
  rw [hs.idOf_eq, firstId?, ← Option.isSome_iff_exists, Option.isSome_map, List.find?_isSome]
  exact ⟨(i, o), hmem, Object.same_self o⟩

/-! ### What one call adds to a history -/

/-- The ways in which a history goes on: as it was, by a new binding, or cleared. -/
lemma Sound.step_cases (hs : h.Sound) (a : Action α) :
    h.step a = h ∨
    (∃ o id, h.table.object? id = none ∧ h.step a = h.bound o id) ∨
    h.step a = ⟨h.table.clear, h.dropped ++ h.current, []⟩ := by
  cases a with
  | register o =>
    have hstep : h.step (.register o) = ⟨(Action.register o).after h.table, h.dropped,
        h.current ++ ((Action.register o).binding? h.table).toList⟩ := rfl
    rw [hstep]
    rcases register_cases o h.table with ⟨id, hid, hr⟩ | ⟨e, -, hr⟩ | ⟨id, -, -, hfree, hr⟩
    · left
      -- the id of a cached object is bound already
      obtain ⟨p, hp, -⟩ := hs.object_of_idOf hid
      simp [Action.after, Action.binding?, Step.left, hr, has_iff.mpr ⟨p, hp⟩]
    · left
      simp [Action.after, Action.binding?, Step.left, hr]
    · right; left
      refine ⟨o, id, hfree, ?_⟩
      simp [Action.after, Action.binding?, Step.left, hr, has_eq_false hfree, History.bound]
  | registerWithId o id =>
    have hstep : h.step (.registerWithId o id) = ⟨(Action.registerWithId o id).after h.table,
        h.dropped, h.current ++ ((Action.registerWithId o id).binding? h.table).toList⟩ := rfl
    rw [hstep]
    rcases registerWithId_cases o id h.table with ⟨p, hp, hr⟩ | ⟨hfree, hr⟩
    · left
      rcases hsame : p.same o with _ | _ <;>
        simp [Action.after, Action.binding?, Step.left, hr, hsame, has_iff.mpr ⟨p, hp⟩]
    · right; left
      refine ⟨o, id, hfree, ?_⟩
      simp [Action.after, Action.binding?, Step.left, hr, has_eq_false hfree, History.bound]
  | clear => exact Or.inr (Or.inr rfl)

lemma Sound.step (hs : h.Sound) (a : Action α) : (h.step a).Sound := by
  rcases hs.step_cases a with he | ⟨o, id, hfree, he⟩ | he
  · rw [he]; exact hs
  · rw [he]; exact hs.bound hfree
  · rw [he]; exact hs.clear

/-- **The run invariant**: after every run of calls the table says what its history says. -/
theorem run_sound (actions : List (Action α)) : (run actions).Sound := by
  induction actions using List.reverseRecOn with
  | nil => exact sound_init
  | append_singleton actions a ih => rw [run_concat]; exact ih.step a

lemma table_step (h : History α) (a : Action α) : (h.step a).table = a.after h.table := by
  cases a <;> rfl

end History

/-! ### Reachable tables -/

/-- The tables that the calls of a session can lead to. -/
def Reachable (s : Instances α) : Prop := ∃ actions, (History.run actions).table = s

lemma reachable_empty : Reachable (empty : Instances α) := ⟨[], rfl⟩

namespace Reachable

variable {s : Instances α}

lemma after (hs : s.Reachable) (a : Action α) : (a.after s).Reachable := by
  obtain ⟨actions, rfl⟩ := hs
  exact ⟨actions ++ [a], by rw [History.run_concat, History.table_step]⟩

lemma object_of_idOf (hs : s.Reachable) {o : Object α} {i : InstanceId}
    (hi : s.idOf? o = some i) : ∃ p, s.object? i = some p ∧ p.same o = true := by
  obtain ⟨actions, rfl⟩ := hs
  exact (History.run_sound actions).object_of_idOf hi

end Reachable

end HostBridge.Instances
