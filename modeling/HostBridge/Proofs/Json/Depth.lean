import HostBridge.Json.Basic
import Mathlib.Tactic.Lemma

/-!
What stands in an array or an object is nested less deep than it.
-/

namespace HostBridge.Json

lemma depth_le_itemsDepth {items : List Json} {item : Json} (h : item ∈ items) :
    item.depth ≤ itemsDepth items := by
  induction items with
  | nil => cases h
  | cons first rest ih =>
    rw [itemsDepth]
    rcases List.mem_cons.mp h with rfl | hm
    · omega
    · have := ih hm; omega

lemma depth_le_membersDepth {members : List (String × Json)} {e : String × Json}
    (h : e ∈ members) : e.2.depth ≤ membersDepth members := by
  induction members with
  | nil => cases h
  | cons first rest ih =>
    obtain ⟨key, value⟩ := first
    rw [membersDepth]
    rcases List.mem_cons.mp h with rfl | hm
    · exact Nat.le_max_left _ _
    · have := ih hm; omega

lemma depth_lt_of_mem_array {items : List Json} {item : Json} (h : item ∈ items) :
    item.depth < (array items).depth := by
  have := depth_le_itemsDepth h
  rw [depth]; omega

lemma depth_lt_of_mem_object {members : List (String × Json)} {e : String × Json}
    (h : e ∈ members) : e.2.depth < (object members).depth := by
  have := depth_le_membersDepth h
  rw [depth]; omega

lemma depth_lt_of_lookup {members : List (String × Json)} {key : String} {json : Json}
    (h : members.lookup key = some json) : json.depth < (object members).depth := by
  obtain ⟨before, after, hsplit, -⟩ := List.lookup_eq_some_iff.mp h
  exact depth_lt_of_mem_object (e := (key, json)) (by rw [hsplit]; simp)

end HostBridge.Json
