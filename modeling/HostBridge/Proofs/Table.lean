import HostBridge.Table
import Mathlib.Data.List.Forall2
import Mathlib.Data.List.Induction
import Mathlib.Tactic.WLOG

/-!
Laws of tables: what a lookup finds after an entry has been added, that entries with distinct keys
can be added in any order, and that tables whose entries correspond one to one go on to do so when
corresponding entries are added to them.
-/

namespace HostBridge.Table

variable {κ ν μ : Type} [LT κ] [DecidableLT κ] [DecidableEq κ]

omit [LT κ] [DecidableLT κ] in
lemma lookup_cons (e : κ × ν) (rest : Table κ ν) (key : κ) :
    List.lookup key (e :: rest) = if e.1 = key then some e.2 else rest.lookup key := by
  obtain ⟨k, v⟩ := e
  by_cases h : k = key
  · subst h; simp
  · have hne : (key == k) = false := by simpa using Ne.symm h
    simp [List.lookup_cons, hne, h]

lemma lookup_insertNew (key other : κ) (value : ν) (table : Table κ ν) :
    (insertNew key value table).lookup other =
      if other = key then some ((table.lookup key).getD value) else table.lookup other := by
  unfold insertNew contains
  rcases hk : table.lookup key with _ | v
  · simp [lookup_insert]
  · by_cases h : other = key
    · subst h; simp [hk]
    · simp [h]

/-! ### The order of insertions -/

lemma contains_insert_of_ne {k l : κ} (hne : k ≠ l) (w : ν) (table : Table κ ν) :
    contains k (insert l w table) = contains k table := by
  rw [contains, lookup_insert_of_ne hne, contains]

section Order

variable [Std.Asymm fun k l : κ => k < l] [Std.Trichotomous fun k l : κ => k < l]
  [Trans (fun k l : κ => k < l) (fun k l : κ => k < l) fun k l : κ => k < l]

/-- Entries with distinct keys can be added in either order. -/
lemma insert_comm {k l : κ} (hne : k ≠ l) (v w : ν) (table : Table κ ν) :
    insert k v (insert l w table) = insert l w (insert k v table) := by
  -- the place of the smaller key is not after that of the larger one
  wlog hlt : k < l generalizing k l v w
  · have hgt : l < k := ((Std.lt_trichotomy k l).resolve_left hlt).resolve_left hne
    exact (this hne.symm w v hgt).symm
  have hnot : ¬ l < k := Std.Asymm.asymm k l hlt
  induction table with
  | nil => simp [insert, hlt, hnot, hne.symm]
  | cons e rest ih =>
    obtain ⟨m, x⟩ := e
    by_cases hlm : l < m
    · have hkm : k < m := Std.lt_trans hlt hlm
      simp [insert, hlm, hkm, hlt, hnot, hne.symm]
    by_cases heq : l = m
    · subst heq
      simp [insert, hlt, hnot, hne.symm, hlm]
    by_cases hkm : k < m
    · simp [insert, hlm, heq, hkm, hnot, hne.symm]
    by_cases hkeq : k = m
    · subst hkeq
      simp [insert, hlm, heq, hkm]
    · simp [insert, hlm, heq, hkm, hkeq, ih]

lemma insertNew_comm {k l : κ} (hne : k ≠ l) (v w : ν) (table : Table κ ν) :
    insertNew k v (insertNew l w table) = insertNew l w (insertNew k v table) := by
  unfold insertNew
  by_cases hk : contains k table = true <;> by_cases hl : contains l table = true <;>
    simp [hk, hl, contains_insert_of_ne hne, contains_insert_of_ne hne.symm,
      insert_comm hne v w table]

end Order

/-! ### What is kept -/

/-- An entry with a new key is added to all others. -/
lemma insert_perm {table : Table κ ν} {key : κ} (value : ν) (h : key ∉ keys table) :
    (insert key value table).Perm ((key, value) :: table) := by
  induction table with
  | nil => exact .refl _
  | cons e rest ih =>
    obtain ⟨k, v⟩ := e
    obtain ⟨hne, hrest⟩ := not_or.mp fun hor => h (List.mem_cons.mpr hor)
    by_cases hlt : key < k
    · rw [insert, if_pos hlt]
    · rw [insert, if_neg hlt, if_neg hne]
      exact ((ih hrest).cons _).trans (.swap _ _ _)

/-- Where no key occurs twice, the table holds every entry. -/
lemma ofList_perm {entries : List (κ × ν)} (h : (keys entries).Nodup) :
    (ofList entries).Perm entries := by
  induction entries using List.reverseRecOn with
  | nil => exact .refl _
  | append_singleton entries e ih =>
    have hcons : (keys (e :: entries)).Nodup :=
      ((List.perm_append_singleton e entries).map _).nodup_iff.mp h
    obtain ⟨hnew, hkeys⟩ := List.nodup_cons.mp hcons
    have hentries := ih hkeys
    have hfree : e.1 ∉ keys (ofList entries) := fun hmem => hnew ((hentries.map _).mem_iff.mp hmem)
    rw [ofList_concat]
    exact ((insert_perm e.2 hfree).trans (hentries.cons e)).trans
      (List.perm_append_singleton e entries).symm

/-! ### Corresponding entries -/

/-- Entries correspond when they have the same key and related values. -/
def Corresponds (R : ν → μ → Prop) (e : κ × ν) (f : κ × μ) : Prop := e.1 = f.1 ∧ R e.2 f.2

variable {R : ν → μ → Prop}

lemma forall₂_insert {table : Table κ ν} {table' : Table κ μ} {key : κ} {value : ν} {value' : μ}
    (h : List.Forall₂ (Corresponds R) table table') (hv : R value value') :
    List.Forall₂ (Corresponds R) (insert key value table) (insert key value' table') := by
  induction h with
  | nil => exact .cons ⟨rfl, hv⟩ .nil
  | @cons e f rest rest' he hrest ih =>
    obtain ⟨k, v⟩ := e
    obtain ⟨k', v'⟩ := f
    obtain ⟨hk, hvv⟩ := he
    simp only at hk hvv
    subst hk
    unfold insert
    by_cases hlt : key < k
    · rw [if_pos hlt, if_pos hlt]
      exact .cons ⟨rfl, hv⟩ (.cons ⟨rfl, hvv⟩ hrest)
    · rw [if_neg hlt, if_neg hlt]
      by_cases heq : key = k
      · rw [if_pos heq, if_pos heq]
        exact .cons ⟨rfl, hv⟩ hrest
      · rw [if_neg heq, if_neg heq]
        exact .cons ⟨rfl, hvv⟩ ih

omit [LT κ] [DecidableLT κ] in
/-- Under one key, tables with corresponding entries hold related values. -/
lemma option_rel_lookup {table : Table κ ν} {table' : Table κ μ}
    (h : List.Forall₂ (Corresponds R) table table') (key : κ) :
    Option.Rel R (table.lookup key) (table'.lookup key) := by
  induction h with
  | nil => exact .none
  | cons he _ ih =>
    rw [lookup_cons, lookup_cons, ← he.1]
    split
    · exact .some he.2
    · exact ih

omit [LT κ] [DecidableLT κ] [DecidableEq κ] in
/-- Tables with the same keys have corresponding entries. -/
lemma keys_eq_keys_iff {table : Table κ ν} {table' : Table κ μ} :
    keys table = keys table' ↔
      List.Forall₂ (Corresponds fun _ _ => True) table table' := by
  have hkey : (Corresponds fun _ _ => True : κ × ν → κ × μ → Prop) = fun e f => e.1 = f.1 := by
    funext e f
    simp [Corresponds]
  rw [hkey, keys, keys, ← List.forall₂_eq_eq_eq, List.forall₂_map_left_iff,
    List.forall₂_map_right_iff]

/-- Tables with the same keys go on to have the same keys. -/
lemma keys_insert {table : Table κ ν} {table' : Table κ μ} (h : keys table = keys table')
    (key : κ) (value : ν) (value' : μ) :
    keys (insert key value table) = keys (insert key value' table') :=
  keys_eq_keys_iff.mpr (forall₂_insert (keys_eq_keys_iff.mp h) trivial)

omit [LT κ] [DecidableLT κ] in
lemma contains_iff_mem_keys {table : Table κ ν} {key : κ} :
    contains key table = true ↔ key ∈ keys table := by
  unfold contains keys
  induction table with
  | nil => simp
  | cons e rest ih =>
    rw [lookup_cons, List.map_cons, List.mem_cons, ← ih]
    by_cases h : e.1 = key
    · simp [h]
    · simp [h, Ne.symm h]

lemma forall₂_ofList {entries : List (κ × ν)} {entries' : List (κ × μ)}
    (h : List.Forall₂ (Corresponds R) entries entries') :
    List.Forall₂ (Corresponds R) (ofList entries) (ofList entries') := by
  -- of two tables that correspond so far, one entry more on each side
  have hfold : ∀ (table : Table κ ν) (table' : Table κ μ),
      List.Forall₂ (Corresponds R) table table' →
      List.Forall₂ (Corresponds R)
        (entries.foldl (fun t e => insert e.1 e.2 t) table)
        (entries'.foldl (fun t e => insert e.1 e.2 t) table') := by
    induction h with
    | nil => intro table table' ht; exact ht
    | @cons e f rest rest' he _ ih =>
      intro table table' ht
      obtain ⟨hk, hv⟩ := he
      rw [List.foldl_cons, List.foldl_cons, ← hk]
      exact ih _ _ (forall₂_insert ht hv)
  exact hfold [] [] .nil

end HostBridge.Table
