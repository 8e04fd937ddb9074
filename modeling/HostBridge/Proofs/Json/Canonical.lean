import HostBridge.Proofs.Fields
import HostBridge.Proofs.Json.Depth
import Mathlib.Data.Option.Basic

/-!
Canonical trees.

A tree is made canonical by putting the members of each object in order, which adds nothing and so
nests nothing deeper, and has nothing to do a second time.
-/

namespace HostBridge.Json

/-! ### Induction -/

@[induction_eliminator]
theorem induction {motive : Json → Prop}
    (null : motive .null)
    (boolean : ∀ b, motive (.boolean b))
    (number : ∀ n, motive (.number n))
    (string : ∀ s, motive (.string s))
    (array : ∀ items, (∀ item ∈ items, motive item) → motive (.array items))
    (object : ∀ members, (∀ e ∈ members, motive e.2) → motive (.object members))
    (json : Json) : motive json := by
  induction hdepth : json.depth using Nat.strongRecOn generalizing json with
  | ind d ih =>
    subst hdepth
    cases json with
    | null => exact null
    | boolean b => exact boolean b
    | number n => exact number n
    | string s => exact string s
    | array items => exact array items fun item hi => ih _ (depth_lt_of_mem_array hi) item rfl
    | object members => exact object members fun e he => ih _ (depth_lt_of_mem_object he) e.2 rfl

/-! ### Depth -/

lemma itemsDepth_le_iff {items : List Json} {d : ℕ} :
    itemsDepth items ≤ d ↔ ∀ item ∈ items, item.depth ≤ d := by
  induction items with
  | nil => simp [itemsDepth]
  | cons item rest ih => rw [itemsDepth, Nat.max_le, ih, List.forall_mem_cons]

lemma membersDepth_le_iff {members : List (String × Json)} {d : ℕ} :
    membersDepth members ≤ d ↔ ∀ e ∈ members, e.2.depth ≤ d := by
  induction members with
  | nil => simp [membersDepth]
  | cons e rest ih =>
    obtain ⟨key, value⟩ := e
    rw [membersDepth, Nat.max_le, ih, List.forall_mem_cons]

lemma depth_object_pos (members : List (String × Json)) : 0 < (object members).depth := by
  rw [depth]; omega

/-- An object whose members could stand in another one is nested no deeper than that. -/
lemma depth_object_le {written members : List (String × Json)}
    (h : ∀ e ∈ written, e.2.depth < (object members).depth) :
    (object written).depth ≤ (object members).depth := by
  rw [depth] at h
  rw [depth, depth, Nat.succ_le_succ_iff, membersDepth_le_iff]
  exact fun e he => Nat.lt_succ_iff.mp (h e he)

lemma depth_only (key : String) (json : Json) : (object [(key, json)]).depth = json.depth + 1 := by
  rw [depth, membersDepth, membersDepth, Nat.max_zero]

/-! ### Canonical trees -/

lemma canonicalItems_eq_map (items : List Json) : canonicalItems items = items.map canonical := by
  induction items with
  | nil => rfl
  | cons item rest ih => rw [canonicalItems, ih, List.map_cons]

lemma canonicalMembers_eq_map (members : List (String × Json)) :
    canonicalMembers members = members.map fun e => (e.1, canonical e.2) := by
  induction members with
  | nil => rfl
  | cons e rest ih => rw [canonicalMembers, ih, List.map_cons]

lemma canonical_of_depth_eq_zero {json : Json} (h : json.depth = 0) : json.canonical = json := by
  cases json with
  | null | boolean | number | string => rfl
  | array | object => cases h

/-- What stands in a canonical object stood in the object, and has been made canonical. -/
lemma exists_of_mem_canonical {members : List (String × Json)} {e : String × Json}
    (h : e ∈ Table.ofList (canonicalMembers members)) :
    ∃ f ∈ members, e = (f.1, f.2.canonical) := by
  have hmem := Table.mem_of_mem_ofList h
  rw [canonicalMembers_eq_map] at hmem
  obtain ⟨f, hf, rfl⟩ := List.mem_map.mp hmem
  exact ⟨f, hf, rfl⟩

lemma depth_canonical_le (json : Json) : json.canonical.depth ≤ json.depth := by
  induction json with
  | null | boolean | number | string => exact Nat.le_refl _
  | array items ih =>
    rw [canonical, canonicalItems_eq_map, depth, depth, Nat.succ_le_succ_iff, itemsDepth_le_iff]
    intro item hi
    obtain ⟨item', hi', rfl⟩ := List.mem_map.mp hi
    exact Nat.le_trans (ih item' hi') (depth_le_itemsDepth hi')
  | object members ih =>
    rw [canonical, depth, depth, Nat.succ_le_succ_iff, membersDepth_le_iff]
    intro e he
    obtain ⟨f, hf, rfl⟩ := exists_of_mem_canonical he
    exact Nat.le_trans (ih f hf) (depth_le_membersDepth hf)

lemma map_eq_self_iff {β : Type} {f : β → β} {xs : List β} :
    xs.map f = xs ↔ ∀ x ∈ xs, f x = x := by
  simpa using List.map_inj_left (l := xs) (f := f) (g := id)

lemma canonical_array_iff {items : List Json} :
    (array items).canonical = array items ↔ ∀ item ∈ items, item.canonical = item := by
  rw [canonical, canonicalItems_eq_map, Json.array.injEq, map_eq_self_iff]

/-- An object is canonical if its keys ascend and what stands under them is canonical. -/
lemma canonical_object_iff {members : List (String × Json)} :
    (object members).canonical = object members ↔
      Table.Ascending members ∧ ∀ e ∈ members, e.2.canonical = e.2 := by
  have hentry : ∀ e : String × Json, (e.1, e.2.canonical) = e ↔ e.2.canonical = e.2 := by
    rintro ⟨key, value⟩; simp
  have hkeys : Table.Ascending (canonicalMembers members) ↔ Table.Ascending members := by
    rw [canonicalMembers_eq_map, Table.Ascending, List.pairwise_map, Table.Ascending]
  have hmap : canonicalMembers members = members ↔ ∀ e ∈ members, e.2.canonical = e.2 := by
    rw [canonicalMembers_eq_map, map_eq_self_iff]
    simp only [hentry]
  rw [canonical, Json.object.injEq]
  constructor
  · intro h
    have hascending : Table.Ascending members := h ▸ Table.ascending_ofList _
    rw [(hkeys.mpr hascending).ofList_eq] at h
    exact ⟨hascending, hmap.mp h⟩
  · rintro ⟨hascending, hvalues⟩
    rw [hmap.mpr hvalues, hascending.ofList_eq]

/-- An object whose keys are some of those in a list that ascends. -/
lemma canonical_object {members : List (String × Json)} (keys : List String)
    (hkeys : (Table.keys members).Sublist keys) (hascending : keys.Pairwise (· < ·))
    (hvalues : ∀ e ∈ members, e.2.canonical = e.2) :
    (object members).canonical = object members :=
  canonical_object_iff.mpr ⟨Table.ascending_iff_keys.mpr (hascending.sublist hkeys), hvalues⟩

/-- An object with one member, whatever its key. -/
lemma canonical_only {key : String} {json : Json} (h : json.canonical = json) :
    (object [(key, json)]).canonical = object [(key, json)] :=
  canonical_object [key] (List.Sublist.refl _) (List.pairwise_singleton _ _)
    (List.forall_mem_singleton.mpr h)

/-- What is found in a canonical object is canonical. -/
lemma canonical_of_lookup {members : List (String × Json)} {key : String} {json : Json}
    (h : (object members).canonical = object members)
    (hlookup : members.lookup key = some json) : json.canonical = json := by
  obtain ⟨before, after, rfl, -⟩ := List.lookup_eq_some_iff.mp hlookup
  exact (canonical_object_iff.mp h).2 (key, json) (by simp)

lemma canonical_canonical (json : Json) : json.canonical.canonical = json.canonical := by
  induction json with
  | null | boolean | number | string => rfl
  | array items ih =>
    rw [canonical, canonicalItems_eq_map, canonical_array_iff]
    intro item hi
    obtain ⟨item', hi', rfl⟩ := List.mem_map.mp hi
    exact ih item' hi'
  | object members ih =>
    rw [canonical, canonical_object_iff]
    refine ⟨Table.ascending_ofList _, fun e he => ?_⟩
    obtain ⟨f, hf, rfl⟩ := exists_of_mem_canonical he
    exact ih f hf

end HostBridge.Json
