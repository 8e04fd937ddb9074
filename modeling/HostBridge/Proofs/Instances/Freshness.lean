import HostBridge.Proofs.Instances.Consistency
import Mathlib.Algebra.Group.Nat.Defs

/-!
The next id over a run of calls: it is one more than the largest id that was ever bound, no
matter by which call and whether it was dropped since, and it is gone for good once the greatest
id has been bound.
-/

namespace HostBridge.Instances

variable {α : Type}

/-- The largest of the ids as a number, and zero for no id. -/
def largest (ids : List InstanceId) : Nat := ids.foldr (fun id n => max id.toNat n) 0

lemma largest_concat (ids : List InstanceId) (id : InstanceId) :
    largest (ids ++ [id]) = max (largest ids) id.toNat := by
  induction ids with
  | nil => simp [largest]
  | cons i rest ih =>
    simp only [largest, List.cons_append, List.foldr_cons] at ih ⊢
    rw [ih]; omega

lemma toNat_le_largest {ids : List InstanceId} {id : InstanceId} (h : id ∈ ids) :
    id.toNat ≤ largest ids := by
  induction ids with
  | nil => simp at h
  | cons i rest ih =>
    simp only [largest, List.foldr_cons] at ih ⊢
    rcases List.mem_cons.mp h with rfl | h'
    · omega
    · have := ih h'; omega

lemma toNat_greatest : InstanceId.greatest.toNat = 2 ^ 64 - 1 := rfl

lemma toNat_lt_greatest {id : InstanceId} (h : id ≠ .greatest) : id.toNat < 2 ^ 64 - 1 := by
  have hlt := UInt64.toNat_lt id
  have hne : id.toNat ≠ InstanceId.greatest.toNat := fun he => h (UInt64.toNat_inj.mp he)
  rw [toNat_greatest] at hne
  omega

lemma next?_greatest : InstanceId.greatest.next? = none := if_pos rfl

/-- Below the greatest id the next one is larger by one. -/
lemma next?_of_ne {id : InstanceId} (h : id ≠ .greatest) :
    ∃ n, id.next? = some n ∧ n.toNat = id.toNat + 1 := by
  refine ⟨id + 1, if_neg h, ?_⟩
  have hlt := toNat_lt_greatest h
  rw [UInt64.toNat_add, UInt64.toNat_one, Nat.mod_eq_of_lt (by omega)]

/-- What is left to be issued once the given ids have been bound. -/
def Upcoming (ids : List InstanceId) (next : Option InstanceId) : Prop :=
  (InstanceId.greatest ∉ ids ∧ ∃ n, next = some n ∧ n.toNat = 1 + largest ids) ∨
  (InstanceId.greatest ∈ ids ∧ next = none)

lemma upcoming_nil : Upcoming [] (some 1) := Or.inl ⟨by simp, 1, rfl, rfl⟩

/-- One more binding, which moves the next id past the id that was bound. -/
lemma Upcoming.concat {ids : List InstanceId} {next : Option InstanceId}
    (h : Upcoming ids next) (id : InstanceId) : Upcoming (ids ++ [id]) (nextPast next id) := by
  rcases h with ⟨hno, n, rfl, hn⟩ | ⟨hyes, rfl⟩
  · by_cases hid : id = .greatest
    · subst hid
      have hle : n ≤ .greatest := by
        have hlt := UInt64.toNat_lt n
        rw [UInt64.le_iff_toNat_le, toNat_greatest]; omega
      right
      exact ⟨by simp, by rw [nextPast]; simp only [hle, if_true, next?_greatest]⟩
    · left
      refine ⟨by simp [hno, Ne.symm hid], ?_⟩
      rw [largest_concat]
      by_cases hle : n ≤ id
      · -- the id is the largest now
        obtain ⟨m, hm, hval⟩ := next?_of_ne hid
        have hnat := UInt64.le_iff_toNat_le.mp hle
        exact ⟨m, by rw [nextPast]; simp only [hle, if_true, hm], by omega⟩
      · have hnat : ¬ n.toNat ≤ id.toNat := fun hc => hle (UInt64.le_iff_toNat_le.mpr hc)
        exact ⟨n, by rw [nextPast]; simp only [hle, if_false], by omega⟩
  · exact Or.inr ⟨List.mem_append_left _ hyes, rfl⟩

lemma upcoming_foldl (ids : List InstanceId) : Upcoming ids (ids.foldl nextPast (some 1)) := by
  induction ids using List.reverseRecOn with
  | nil => exact upcoming_nil
  | append_singleton ids id ih =>
    rw [List.foldl_append]
    exact ih.concat id

namespace History

variable {h : History α}

lemma Sound.upcoming (hs : h.Sound) : Upcoming h.ids h.table.next := by
  rw [hs.next_eq]
  exact upcoming_foldl h.ids

/-- Every bound id is among the ids ever bound. -/
lemma Sound.mem_ids (hs : h.Sound) {i : InstanceId} {o : Object α}
    (ho : h.table.object? i = some o) : i ∈ h.ids := by
  have hmem := (hs.object_iff i o).mp ho
  exact List.mem_map.mpr ⟨(i, o), List.mem_append_right _ hmem, rfl⟩

/-- The next id is past every id ever bound. -/
lemma Sound.lt_next (hs : h.Sound) {i n : InstanceId} (hi : i ∈ h.ids)
    (hn : h.table.next = some n) : i < n := by
  have hle := toNat_le_largest hi
  rcases hs.upcoming with ⟨-, m, hm, hval⟩ | ⟨-, hnone⟩
  · rw [hn] at hm; cases hm
    rw [UInt64.lt_iff_toNat_lt]; omega
  · rw [hn] at hnone; cases hnone

/-- No object is bound to the next id. -/
lemma Sound.next_free (hs : h.Sound) {n : InstanceId} (hn : h.table.next = some n) :
    h.table.object? n = none := by
  rcases ho : h.table.object? n with _ | o
  · rfl
  · have hlt := hs.lt_next (hs.mem_ids ho) hn
    exact absurd hlt (UInt64.lt_irrefl n)

/-- An object without an id is given the next one, or ids are exhausted. -/
lemma Sound.register_of_idOf_none (hs : h.Sound) {o : Object α} (ho : h.table.idOf? o = none) :
    (InstanceId.greatest ∉ h.ids ∧ ∃ n, h.table.next = some n ∧
      register o h.table = .ok n (h.table.bind o n)) ∨
    (InstanceId.greatest ∈ h.ids ∧ register o h.table = .error .exhausted h.table) := by
  rcases hs.upcoming with ⟨hno, n, hn, -⟩ | ⟨hyes, hnone⟩
  · exact Or.inl ⟨hno, n, hn, register_new ho hn (hs.next_free hn)⟩
  · exact Or.inr ⟨hyes, register_exhausted ho hnone⟩

lemma mem_ids_step {i : InstanceId} (hs : h.Sound) (a : Action α) (hi : i ∈ h.ids) :
    i ∈ (h.step a).ids := by
  rcases hs.step_cases a with he | ⟨o, id, -, he⟩ | he
  · rw [he]; exact hi
  · rw [he, ids_bound]; exact List.mem_append_left _ hi
  · rw [he, ids, List.append_nil]; exact hi

/-- What was ever bound stays so as the run goes on. -/
lemma mem_ids_run {i : InstanceId} (actions more : List (Action α))
    (hi : i ∈ (run actions).ids) : i ∈ (run (actions ++ more)).ids := by
  induction more using List.reverseRecOn with
  | nil => rwa [List.append_nil]
  | append_singleton more a ih =>
    rw [← List.append_assoc, run_concat]
    exact mem_ids_step (run_sound _) a ih

end History

namespace Reachable

variable {s : Instances α}

/-- The next id is past every bound id. -/
lemma lt_next (hs : s.Reachable) {i n : InstanceId} {o : Object α} (ho : s.object? i = some o)
    (hn : s.next = some n) : i < n := by
  obtain ⟨actions, rfl⟩ := hs
  have h := History.run_sound actions
  exact h.lt_next (h.mem_ids ho) hn

/-- An object without an id is given the next one, or ids are exhausted. -/
lemma register_of_idOf_none (hs : s.Reachable) {o : Object α} (ho : s.idOf? o = none) :
    (∃ n, s.next = some n ∧ s.object? n = none ∧ register o s = .ok n (s.bind o n)) ∨
    (s.next = none ∧ register o s = .error .exhausted s) := by
  obtain ⟨actions, rfl⟩ := hs
  rcases hn : (History.run actions).table.next with _ | n
  · exact Or.inr ⟨rfl, register_exhausted ho hn⟩
  · have hfree := (History.run_sound actions).next_free hn
    exact Or.inl ⟨n, rfl, hfree, register_new ho hn hfree⟩

end Reachable

/--
**Freshness.** After every run of calls: as long as the greatest id has not been bound, the next
id is one more than the largest id that was ever bound; once it has been bound, there is no next
id any more. So an id that is issued to a new object is larger than every id bound before;
registering a new object fails exactly if the greatest id has been bound, and always because
ids are exhausted; and registering an object that has an id answers with that id.
-/
theorem ids_fresh (actions : List (Action α)) :
    let h := History.run actions
    (InstanceId.greatest ∉ h.ids → ∃ n, h.table.next = some n ∧ n.toNat = 1 + largest h.ids) ∧
    (InstanceId.greatest ∈ h.ids →
      ∀ more, (History.run (actions ++ more)).table.next = none) ∧
    (∀ o id s', h.table.idOf? o = none → register o h.table = .ok id s' →
      ∀ i ∈ h.ids, i < id) ∧
    (∀ o, h.table.idOf? o = none →
      ((∃ e s', register o h.table = .error e s') ↔ InstanceId.greatest ∈ h.ids)) ∧
    (∀ o e s', register o h.table = .error e s' → e = .exhausted) ∧
    (∀ o id, h.table.idOf? o = some id → register o h.table = .ok id h.table) := by
  intro h
  have hs : h.Sound := History.run_sound actions
  refine ⟨fun hno => ?_, fun hyes more => ?_, fun o id s' ho hr i hi => ?_, fun o ho => ?_,
    fun o e s' he => ?_, fun o id ho => register_cached ho⟩
  · rcases hs.upcoming with ⟨-, hn⟩ | ⟨hyes, -⟩
    · exact hn
    · exact absurd hyes hno
  · have hmem := History.mem_ids_run actions more hyes
    rcases (History.run_sound (actions ++ more)).upcoming with ⟨hno, -⟩ | ⟨-, hnone⟩
    · exact absurd hmem hno
    · exact hnone
  · rcases hs.register_of_idOf_none ho with ⟨-, n, hn, hok⟩ | ⟨-, herr⟩
    · rw [hok] at hr; cases hr
      exact hs.lt_next hi hn
    · rw [herr] at hr; cases hr
  · rcases hs.register_of_idOf_none ho with ⟨hno, n, -, hok⟩ | ⟨hyes, herr⟩
    · simp [hok, hno]
    · simp [herr, hyes]
  · rcases ho : h.table.idOf? o with _ | id
    · rcases hs.register_of_idOf_none ho with ⟨-, n, -, hok⟩ | ⟨-, herr⟩
      · rw [hok] at he; cases he
      · rw [herr] at he; cases he; rfl
    · rw [register_cached ho] at he; cases he

end HostBridge.Instances
