import HostBridge.Proofs.Instances.Freshness

/-!
Objects that are registered one after another.

Of a list of objects those without an id are bound, each where it first occurs, to the ids from
the next one onward without a gap, as long as there are ids left.
-/

namespace HostBridge.Instances

variable {α : Type} {s s' s₁ : Instances α} {o : Object α} {n : InstanceId}

/-- How many ids can still be issued. -/
def idsLeft (s : Instances α) : Nat :=
  match s.next with
  | some n => UInt64.size - n.toNat
  | none => 0

lemma idsLeft_of_next_none (hn : s.next = none) : s.idsLeft = 0 := by rw [idsLeft, hn]

lemma idsLeft_pos (hn : s.next = some n) : 0 < s.idsLeft := by
  have hlt := UInt64.toNat_lt_size n
  simp only [idsLeft, hn]
  omega

/-- The objects without an id, each where it first occurs. -/
def newcomers (s : Instances α) (objects : List (Object α)) : List (Object α) :=
  (objects.filter fun o => (s.idOf? o).isNone).eraseDupsBy Object.same

/-! ### Who is new -/

lemma newcomers_cons_cached {id : InstanceId} (h : s.idOf? o = some id)
    (objects : List (Object α)) : s.newcomers (o :: objects) = s.newcomers objects := by
  simp [newcomers, h]

/-- To whatever id a new object is bound, from then on it is no longer new. -/
lemma newcomers_cons_new (h : s.idOf? o = none) (id : InstanceId) (objects : List (Object α)) :
    s.newcomers (o :: objects) = o :: (s.bind o id).newcomers objects := by
  have hfilter : (objects.filter fun p => (s.idOf? p).isNone).filter
      (fun p => decide (p.same o = false)) =
        objects.filter fun p => ((s.bind o id).idOf? p).isNone := by
    rw [List.filter_filter]
    refine List.filter_congr fun p _ => ?_
    rw [idOf?_bind]
    cases p.same o <;> simp
  rw [newcomers, List.filter_cons_of_pos (by simp [h]), List.eraseDupsBy_cons, hfilter]
  rfl

lemma mem_of_mem_newcomers {objects : List (Object α)} (h : o ∈ s.newcomers objects) :
    o ∈ objects := by
  induction objects generalizing s with
  | nil => exact h
  | cons p rest ih =>
    rcases hp : s.idOf? p with _ | id
    · rw [newcomers_cons_new hp 0] at h
      rcases List.mem_cons.mp h with rfl | h
      · exact List.mem_cons_self
      · exact List.mem_cons_of_mem _ (ih h)
    · rw [newcomers_cons_cached hp] at h
      exact List.mem_cons_of_mem _ (ih h)

/-- Who comes later does not change who was new before. -/
lemma newcomers_prefix (s : Instances α) (objects more : List (Object α)) :
    s.newcomers objects <+: s.newcomers (objects ++ more) := by
  induction objects generalizing s with
  | nil => exact List.nil_prefix
  | cons p rest ih =>
    rw [List.cons_append]
    rcases hp : s.idOf? p with _ | id
    · rw [newcomers_cons_new hp 0, newcomers_cons_new hp 0]
      exact (List.prefix_cons_inj p).mpr (ih _)
    · rw [newcomers_cons_cached hp, newcomers_cons_cached hp]
      exact ih s

/-! ### One more binding -/

lemma next_bind (hn : s.next = some n) (o : Object α) : (s.bind o n).next = n.next? := by
  have hle : n ≤ n := UInt64.le_refl n
  simp only [bind, hn, nextPast, if_pos hle]

/-- The id after the next one is larger by one. -/
lemma toNat_next_bind {m : InstanceId} (hn : s.next = some n)
    (hm : (s.bind o n).next = some m) : m.toNat = n.toNat + 1 := by
  rw [next_bind hn] at hm
  have hne : n ≠ .greatest := by
    rintro rfl
    rw [next?_greatest] at hm; cases hm
  obtain ⟨m', hm', htoNat⟩ := next?_of_ne hne
  rw [hm'] at hm; cases hm
  exact htoNat

lemma idsLeft_bind (hn : s.next = some n) (o : Object α) :
    (s.bind o n).idsLeft + 1 = s.idsLeft := by
  have hlt := UInt64.toNat_lt_size n
  by_cases hg : n = .greatest
  · subst hg
    simp only [idsLeft, next_bind hn, hn, next?_greatest, toNat_greatest]
    rfl
  · obtain ⟨m, hm, htoNat⟩ := next?_of_ne hg
    have hmlt := UInt64.toNat_lt_size m
    simp only [idsLeft, next_bind hn, hn, hm]
    omega

/-! ### Enrolment -/

/--
The objects have been bound in the second table, one after another, to the ids from the next one
onward, and nothing else has been done to the first table.
-/
structure Enrols (s s' : Instances α) (objects : List (Object α)) : Prop where
  kept : s.Extends s'
  issued : ∀ {k o}, objects[k]? = some o → ∃ n i, s.next = some n ∧ i.toNat = n.toNat + k ∧
    s'.object? i = some o ∧ s'.idOf? o = some i
  object : ∀ {i o}, s'.object? i = some o → s.object? i = some o ∨
    ∃ n k, s.next = some n ∧ i.toNat = n.toNat + k ∧ objects[k]? = some o
  idOf : ∀ {o i}, s'.idOf? o = some i → s.idOf? o = some i ∨ ∃ p ∈ objects, p.same o = true
  left : s'.idsLeft + objects.length = s.idsLeft

lemma Enrols.refl (s : Instances α) : s.Enrols s [] :=
  ⟨Extends.refl s, nofun, Or.inl, Or.inl, rfl⟩

/-- **One step**: an object is bound to the next id before the others are. -/
lemma Enrols.cons {objects : List (Object α)} (hn : s.next = some n) (hfree : s.object? n = none)
    (hnew : s.idOf? o = none) (h : (s.bind o n).Enrols s' objects) :
    s.Enrols s' (o :: objects) := by
  have hobject : (s.bind o n).object? n = some o := by rw [object?_bind, if_pos rfl]
  have hidOf : (s.bind o n).idOf? o = some n := by
    rw [idOf?_bind, if_pos o.same_self, hnew, Option.getD_none]
  refine ⟨(Extends.bind s o hfree).trans h.kept, fun {k p} hp => ?_, fun {i p} hp => ?_,
    fun {p i} hp => ?_, ?_⟩
  · cases k with
    | zero =>
      cases hp
      exact ⟨n, n, hn, rfl, h.kept.object hobject, h.kept.idOf hidOf⟩
    | succ k =>
      obtain ⟨m, i, hm, hi, hbound⟩ := h.issued hp
      have hsucc := toNat_next_bind hn hm
      exact ⟨n, i, hn, by omega, hbound⟩
  · rcases h.object hp with hold | ⟨m, k, hm, hi, hk⟩
    · rw [object?_bind] at hold
      split at hold
      · rename_i heq
        cases hold
        exact Or.inr ⟨n, 0, hn, by rw [heq]; rfl, rfl⟩
      · exact Or.inl hold
    · have hsucc := toNat_next_bind hn hm
      exact Or.inr ⟨n, k + 1, hn, by omega, hk⟩
  · rcases h.idOf hp with hold | ⟨q, hq, hsame⟩
    · rw [idOf?_bind] at hold
      split at hold
      · rename_i hsame
        rw [Object.same_comm] at hsame
        exact Or.inr ⟨o, List.mem_cons_self, hsame⟩
      · exact Or.inl hold
    · exact Or.inr ⟨q, List.mem_cons_of_mem _ hq, hsame⟩
  · have hleft := idsLeft_bind hn o
    have hrest := h.left
    rw [List.length_cons]
    omega

end HostBridge.Instances
