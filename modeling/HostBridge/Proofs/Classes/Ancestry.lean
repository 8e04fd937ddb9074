import HostBridge.Classes
import HostBridge.Proofs.Step
import HostBridge.Proofs.Table

/-!
What a class table answers.

A class that is not registered has no ancestry, and neither subclasses nor is one. The chain of a
registered class is the one recorded for it, or its own name alone; it is valid when all the
names in it are registered, and once completed it stays as it is.
-/

namespace HostBridge.Classes

variable {α : Type} {t : Classes α} {name : String} {ancestors chain : List String}

lemma get_eq_ok {c : Class α} : t.get name = .ok c ↔ t.byName.lookup name = some c := by
  unfold get
  rcases t.byName.lookup name with _ | c' <;> simp

lemma contains_iff : t.contains name = true ↔ ∃ c, t.byName.lookup name = some c := by
  rw [contains, Table.contains, Option.isSome_iff_exists]

lemma contains_eq_false_iff : t.contains name = false ↔ t.byName.lookup name = none := by
  rw [contains, Table.contains, Option.isSome_eq_false_iff, Option.isNone_iff_eq_none]

/-! ### Registering -/

lemma register_new {c : Class α} (h : t.contains c.name = false) :
    register c t = .ok () (t.add c) := by
  simp [register, h]

lemma register_taken {c : Class α} (h : t.contains c.name = true) :
    register c t = .error (.nameTaken c.name) t := by
  simp [register, h]

lemma nameOf?_add (t : Classes α) (c : Class α) (typeName : String) :
    (t.add c).nameOf? typeName =
      if c.typeName = some typeName then some ((t.nameOf? typeName).getD c.name)
      else t.nameOf? typeName := by
  unfold add nameOf?
  rcases c.typeName with _ | own
  · simp
  · by_cases h : own = typeName
    · subst h; simp [Table.lookup_insertNew]
    · simp [Table.lookup_insertNew, h, Ne.symm h]

/-! ### Chains -/

lemma head?_chainOf (name : String) (ancestors : List String) :
    (chainOf name ancestors).head? = some name := by
  unfold chainOf
  split
  · assumption
  · rfl

lemma mem_chainOf {tag : String} : tag ∈ chainOf name ancestors ↔ tag = name ∨ tag ∈ ancestors := by
  unfold chainOf
  split
  · rename_i hhead
    have hname : name ∈ ancestors := List.mem_of_head? hhead
    constructor
    · exact Or.inr
    · rintro (rfl | htag)
      · exact hname
      · exact htag
  · exact List.mem_cons

/-- A chain is complete once it has been completed. -/
lemma chainOf_chainOf (name : String) (ancestors : List String) :
    chainOf name (chainOf name ancestors) = chainOf name ancestors := by
  rw [chainOf, if_pos (head?_chainOf name ancestors)]

lemma validateAncestry_eq_ok : t.validateAncestry name ancestors = .ok chain ↔
    chain = chainOf name ancestors ∧ ∀ tag ∈ chain, t.contains tag = true := by
  rcases hfind : (chainOf name ancestors).find? (!t.contains ·) with _ | unknown
  · have hall := List.find?_eq_none.mp hfind
    simp only [validateAncestry, hfind]
    constructor
    · intro h
      cases h
      exact ⟨rfl, fun tag htag => by simpa using hall tag htag⟩
    · rintro ⟨rfl, -⟩; rfl
  · simp only [validateAncestry, hfind]
    constructor
    · intro h; cases h
    · rintro ⟨rfl, hall⟩
      have hno := List.find?_some hfind
      simp [hall unknown (List.mem_of_find?_eq_some hfind)] at hno

/-- An ancestry is recorded if all names in its chain are registered, and else nothing is. -/
lemma registerAncestry_cases (name : String) (ancestors : List String) (t : Classes α) :
    (∃ e, registerAncestry name ancestors t = .error e t) ∨
    (∀ tag ∈ chainOf name ancestors, t.contains tag = true) ∧
      registerAncestry name ancestors t = .ok () { t with
        ancestries := Table.insert name (chainOf name ancestors) t.ancestries } := by
  rcases hvalid : t.validateAncestry name ancestors with e | chain
  · exact Or.inl ⟨e, by simp only [registerAncestry, hvalid]⟩
  · obtain ⟨rfl, hall⟩ := validateAncestry_eq_ok.mp hvalid
    exact Or.inr ⟨hall, by simp only [registerAncestry, hvalid]⟩

/-- A chain that was found valid is recorded as it is. -/
lemma registerAncestry_of_valid (h : t.validateAncestry name ancestors = .ok chain) :
    registerAncestry name chain t =
      .ok () { t with ancestries := Table.insert name chain t.ancestries } := by
  obtain ⟨rfl, hall⟩ := validateAncestry_eq_ok.mp h
  have hvalid : t.validateAncestry name (chainOf name ancestors) =
      .ok (chainOf name ancestors) :=
    validateAncestry_eq_ok.mpr ⟨(chainOf_chainOf name ancestors).symm, hall⟩
  simp only [registerAncestry, hvalid]

/-! ### Subclasses -/

lemma ancestry_eq_ok : t.ancestry name = .ok chain ↔
    t.contains name = true ∧ chain = (t.ancestries.lookup name).getD [name] := by
  unfold ancestry
  split
  · rename_i h; simp [h, eq_comm]
  · rename_i h; simp [h]

lemma isSubclass_eq_ok {left right : String} {b : Bool} : t.isSubclass left right = .ok b ↔
    t.contains left = true ∧ t.contains right = true ∧
      b = ((t.ancestries.lookup left).getD [left]).contains right := by
  rw [isSubclass, Result.bind_eq_ok]
  constructor
  · rintro ⟨chain, hchain, h⟩
    obtain ⟨hleft, rfl⟩ := ancestry_eq_ok.mp hchain
    split at h
    · rename_i hright
      cases h
      exact ⟨hleft, hright, rfl⟩
    · cases h
  · rintro ⟨hleft, hright, rfl⟩
    exact ⟨_, ancestry_eq_ok.mpr ⟨hleft, rfl⟩, by rw [if_pos hright]⟩

end HostBridge.Classes
