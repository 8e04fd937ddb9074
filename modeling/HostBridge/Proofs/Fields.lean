import HostBridge.Proofs.Table
import Mathlib.Data.List.Induction
import Mathlib.Data.List.Nodup
import Mathlib.Tactic.Lemma

/-!
Tables keyed by text: their keys ascend.

An insertion keeps the order, so the table of any list of entries is ascending, and a table that is
ascending already is the table of its own entries. What such a table holds under a key is the last
entry of the list with that key.
-/

namespace HostBridge.Table

variable {ν : Type} {table : Fields ν}

lemma ascending_iff_keys : Ascending table ↔ (keys table).Pairwise (· < ·) :=
  List.pairwise_map.symm

lemma mem_insert {key : String} {value : ν} {e : String × ν} (h : e ∈ insert key value table) :
    e = (key, value) ∨ e ∈ table := by
  induction table with
  | nil => exact Or.inl (List.mem_singleton.mp h)
  | cons f rest ih =>
    obtain ⟨k, v⟩ := f
    unfold insert at h
    split at h
    · exact List.mem_cons.mp h
    split at h
    · exact (List.mem_cons.mp h).imp_right (List.mem_cons_of_mem _)
    · rcases List.mem_cons.mp h with rfl | h
      · exact Or.inr List.mem_cons_self
      · exact (ih h).imp_right (List.mem_cons_of_mem _)

lemma Ascending.insert (h : Ascending table) (key : String) (value : ν) :
    Ascending (insert key value table) := by
  induction table with
  | nil => exact List.pairwise_singleton _ _
  | cons f rest ih =>
    obtain ⟨k, v⟩ := f
    obtain ⟨hfirst, hrest⟩ := List.pairwise_cons.mp h
    unfold Table.insert
    split
    · rename_i hlt
      refine List.pairwise_cons.mpr ⟨fun e he => ?_, h⟩
      rcases List.mem_cons.mp he with rfl | he
      · exact hlt
      · exact String.lt_trans hlt (hfirst e he)
    split
    · rename_i heq
      subst heq
      exact List.pairwise_cons.mpr ⟨hfirst, hrest⟩
    · rename_i hlt hne
      have hkey : k < key := by
        by_contra hge
        exact hne (String.le_antisymm (String.not_lt.mp hge) (String.not_lt.mp hlt))
      refine List.pairwise_cons.mpr ⟨fun e he => ?_, ih hrest⟩
      rcases mem_insert he with rfl | he
      · exact hkey
      · exact hfirst e he

lemma ascending_ofList (entries : List (String × ν)) : Ascending (ofList entries) := by
  induction entries using List.reverseRecOn with
  | nil => exact List.Pairwise.nil
  | append_singleton entries e ih => rw [ofList_concat]; exact ih.insert e.1 e.2

lemma mem_of_mem_ofList {entries : List (String × ν)} {e : String × ν} (h : e ∈ ofList entries) :
    e ∈ entries := by
  induction entries using List.reverseRecOn with
  | nil => cases h
  | append_singleton entries f ih =>
    rw [ofList_concat] at h
    rcases mem_insert h with rfl | h
    · exact List.mem_append_right _ List.mem_cons_self
    · exact List.mem_append_left _ (ih h)

/-- The entry of a key beyond all others is put at the end. -/
lemma insert_of_forall_lt {key : String} {value : ν} (h : ∀ e ∈ table, e.1 < key) :
    insert key value table = table ++ [(key, value)] := by
  induction table with
  | nil => rfl
  | cons f rest ih =>
    obtain ⟨k, v⟩ := f
    have hk : k < key := h (k, v) List.mem_cons_self
    rw [insert, if_neg (String.lt_asymm hk), if_neg (String.ne_of_lt hk).symm,
      ih fun e he => h e (List.mem_cons_of_mem _ he), List.cons_append]

/-- An ascending table is the table of its entries. -/
lemma Ascending.ofList_eq (h : Ascending table) : ofList table = table := by
  induction table using List.reverseRecOn with
  | nil => rfl
  | append_singleton entries e ih =>
    obtain ⟨hentries, -, hlast⟩ := List.pairwise_append.mp h
    rw [ofList_concat, ih hentries]
    exact insert_of_forall_lt fun f hf => hlast f hf e List.mem_cons_self

/-- Of several entries under a key the last one counts. -/
lemma lookup_ofList (entries : List (String × ν)) (key : String) :
    (ofList entries).lookup key = entries.reverse.lookup key := by
  induction entries using List.reverseRecOn with
  | nil => rfl
  | append_singleton entries e ih =>
    obtain ⟨k, v⟩ := e
    rw [ofList_concat, lookup_insert, List.reverse_concat, List.lookup_cons, ih]
    by_cases h : key = k
    · subst h; simp
    · have hne : (key == k) = false := by simpa using h
      rw [if_neg h, hne]

/-- Where no key occurs twice, each entry is found under its key. -/
lemma lookup_of_mem {entries : List (String × ν)} {e : String × ν}
    (hkeys : (keys entries).Nodup) (he : e ∈ entries) : entries.lookup e.1 = some e.2 := by
  induction entries with
  | nil => cases he
  | cons f rest ih =>
    obtain ⟨hfirst, hrest⟩ := List.nodup_cons.mp hkeys
    rw [lookup_cons]
    rcases List.mem_cons.mp he with rfl | he
    · rw [if_pos rfl]
    · have hne : f.1 ≠ e.1 := by
        intro heq
        exact hfirst (List.mem_map.mpr ⟨e, he, heq.symm⟩)
      rw [if_neg hne, ih hrest he]

lemma lookup_ofList_of_mem {entries : List (String × ν)} {e : String × ν}
    (hkeys : (keys entries).Nodup) (he : e ∈ entries) :
    (ofList entries).lookup e.1 = some e.2 := by
  rw [lookup_ofList]
  refine lookup_of_mem ?_ (List.mem_reverse.mpr he)
  rwa [keys, List.map_reverse, List.nodup_reverse]

end HostBridge.Table
