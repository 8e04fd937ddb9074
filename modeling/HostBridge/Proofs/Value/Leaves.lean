import HostBridge.Proofs.Forall2
import HostBridge.Proofs.Table
import HostBridge.Proofs.Value.Parts

/-!
The leaves of a value and the tree that they stand on.

Two values have the same shape if they differ in their leaves at most. Their leaves are then
equal in number, and a comparison of the values member by member is one of their leaves in
order.
-/

namespace HostBridge.Value

variable {α : Type}

/-- Nothing is inside the value. An empty container is no leaf. -/
def isLeaf : Value α → Bool
  | list _ | dictionary _ | map _ | predicate .. | expression .. | pattern .. => false
  | _ => true

mutual

/-- The tree of a value, with each leaf blanked out. -/
def shape : Value α → Value α
  | .list items => .list (listShape items)
  | .dictionary fields => .dictionary (fieldsShape fields)
  | .map pairs => .map (pairsShape pairs)
  | .predicate name args kwargs => .predicate name (listShape args) (kwargsShape kwargs)
  | .expression operator args => .expression operator (listShape args)
  | .pattern tag fields => .pattern tag (fieldsShape fields)
  | _ => .nil
termination_by structural v => v

def listShape : List (Value α) → List (Value α)
  | [] => []
  | v :: rest => shape v :: listShape rest
termination_by structural vs => vs

def fieldsShape : List (String × Value α) → List (String × Value α)
  | [] => []
  | (key, v) :: rest => (key, shape v) :: fieldsShape rest
termination_by structural vs => vs

def pairsShape : List (Value α × Value α) → List (Value α × Value α)
  | [] => []
  | (k, v) :: rest => (shape k, shape v) :: pairsShape rest
termination_by structural vs => vs

def kwargsShape : Option (List (String × Value α)) → Option (List (String × Value α))
  | none => none
  | some fields => some (fieldsShape fields)
termination_by structural vs => vs

end

mutual

/-- The leaves of a value in the order of a traversal. -/
def leaves : Value α → List (Value α)
  | .list items => listLeaves items
  | .dictionary fields => fieldsLeaves fields
  | .map pairs => pairsLeaves pairs
  | .predicate _ args kwargs => listLeaves args ++ kwargsLeaves kwargs
  | .expression _ args => listLeaves args
  | .pattern _ fields => fieldsLeaves fields
  | v => [v]
termination_by structural v => v

def listLeaves : List (Value α) → List (Value α)
  | [] => []
  | v :: rest => leaves v ++ listLeaves rest
termination_by structural vs => vs

def fieldsLeaves : List (String × Value α) → List (Value α)
  | [] => []
  | (_, v) :: rest => leaves v ++ fieldsLeaves rest
termination_by structural vs => vs

def pairsLeaves : List (Value α × Value α) → List (Value α)
  | [] => []
  | (k, v) :: rest => (leaves k ++ leaves v) ++ pairsLeaves rest
termination_by structural vs => vs

def kwargsLeaves : Option (List (String × Value α)) → List (Value α)
  | none => []
  | some fields => fieldsLeaves fields
termination_by structural vs => vs

end

/-! ### Members as lists -/

lemma listShape_eq_map (items : List (Value α)) : listShape items = items.map shape := by
  induction items with
  | nil => rfl
  | cons v rest ih => rw [listShape, ih, List.map_cons]

lemma fieldsShape_eq_map (fields : List (String × Value α)) :
    fieldsShape fields = fields.map fun e => (e.1, e.2.shape) := by
  induction fields with
  | nil => rfl
  | cons e rest ih => rw [fieldsShape, ih, List.map_cons]

lemma pairsShape_eq_map (pairs : List (Value α × Value α)) :
    pairsShape pairs = pairs.map fun e => (e.1.shape, e.2.shape) := by
  induction pairs with
  | nil => rfl
  | cons e rest ih => rw [pairsShape, ih, List.map_cons]

lemma listLeaves_eq_flatMap (items : List (Value α)) :
    listLeaves items = items.flatMap leaves := by
  induction items with
  | nil => rfl
  | cons v rest ih => rw [listLeaves, ih, List.flatMap_cons]

lemma fieldsLeaves_eq_flatMap (fields : List (String × Value α)) :
    fieldsLeaves fields = fields.flatMap fun e => e.2.leaves := by
  induction fields with
  | nil => rfl
  | cons e rest ih => rw [fieldsLeaves, ih, List.flatMap_cons]

lemma pairsLeaves_eq_flatMap (pairs : List (Value α × Value α)) :
    pairsLeaves pairs = pairs.flatMap fun e => e.1.leaves ++ e.2.leaves := by
  induction pairs with
  | nil => rfl
  | cons e rest ih => rw [pairsLeaves, ih, List.flatMap_cons]

/-! ### Leaves among the parts -/

lemma shape_of_isLeaf {v : Value α} (h : v.isLeaf = true) : v.shape = .nil := by
  cases v <;> first | rfl | cases h

lemma isLeaf_of_shape_eq_nil {v : Value α} (h : v.shape = .nil) : v.isLeaf = true := by
  cases v <;> first | rfl | cases h

/-- A leaf is its own only leaf, and any other value has the leaves of what is inside. -/
lemma leaves_eq (v : Value α) :
    v.leaves = if v.isLeaf then [v] else v.inside.flatMap leaves := by
  cases v with
  | nil | boolean | integer | float | string | reference | object | var => rfl
  | list items => exact listLeaves_eq_flatMap items
  | dictionary fields =>
    rw [leaves, fieldsLeaves_eq_flatMap, isLeaf, inside, List.flatMap_map]
    rfl
  | map pairs =>
    rw [leaves, pairsLeaves_eq_flatMap, isLeaf, inside, List.flatMap_assoc]
    simp
  | predicate name args kwargs =>
    rw [leaves, listLeaves_eq_flatMap, isLeaf, inside, List.flatMap_append, List.flatMap_map]
    rcases kwargs with _ | fields
    · rfl
    · rw [kwargsLeaves, fieldsLeaves_eq_flatMap]; rfl
  | expression operator args => exact listLeaves_eq_flatMap args
  | pattern tag fields =>
    rw [leaves, fieldsLeaves_eq_flatMap, isLeaf, inside, List.flatMap_map]
    rfl

lemma inside_of_isLeaf {v : Value α} (h : v.isLeaf = true) : v.inside = [] := by
  cases v <;> first | rfl | cases h

/-- The leaves are the parts that are leaves, in the same order. -/
lemma leaves_eq_filter (v : Value α) : v.leaves = v.parts.filter isLeaf := by
  induction v using induction_inside with
  | h v ih =>
    have hinside : v.inside.flatMap leaves = (v.inside.flatMap parts).filter isLeaf := by
      rw [List.filter_flatMap]
      exact List.flatMap_congr ih
    rw [leaves_eq, parts_eq, List.filter_cons]
    split
    · rename_i hleaf
      rw [inside_of_isLeaf hleaf]; rfl
    · exact hinside

lemma mem_leaves {v p : Value α} : p ∈ v.leaves ↔ p ∈ v.parts ∧ p.isLeaf = true := by
  rw [leaves_eq_filter, List.mem_filter]

/-! ### Shapes and leaves -/

lemma inside_shape (v : Value α) : v.shape.inside = v.inside.map shape := by
  cases v with
  | nil | boolean | integer | float | string | reference | object | var => rfl
  | list items => exact listShape_eq_map items
  | dictionary fields | pattern tag fields =>
    rw [shape, inside, inside, fieldsShape_eq_map]
    simp
  | map pairs =>
    rw [shape, inside, inside, pairsShape_eq_map, List.map_flatMap, List.flatMap_map]
    rfl
  | predicate name args kwargs =>
    rw [shape, inside, inside, listShape_eq_map, List.map_append]
    rcases kwargs with _ | fields
    · rfl
    · rw [kwargsShape, fieldsShape_eq_map]; simp
  | expression operator args => exact listShape_eq_map args

/-- The parts of the tree are the trees of the parts. -/
lemma parts_shape (v : Value α) : v.shape.parts = v.parts.map shape := by
  induction v using induction_inside with
  | h v ih =>
    rw [parts_eq, parts_eq v, inside_shape, List.map_cons, List.flatMap_map, List.map_flatMap]
    exact congrArg _ (List.flatMap_congr ih)

lemma isLeaf_shape (v : Value α) : v.shape.isLeaf = v.isLeaf := by
  cases v <;> rfl

lemma length_leaves_shape (v : Value α) : v.shape.leaves.length = v.leaves.length := by
  have hleaf : (isLeaf ∘ shape : Value α → Bool) = isLeaf := funext isLeaf_shape
  rw [leaves_eq_filter, leaves_eq_filter, parts_shape, List.filter_map, List.length_map, hleaf]

/-- The shape of a value says how many leaves it has. -/
lemma length_leaves_of_shape_eq {v w : Value α} (h : v.shape = w.shape) :
    v.leaves.length = w.leaves.length := by
  rw [← length_leaves_shape v, h, length_leaves_shape w]

/-! ### Comparing leaf by leaf -/

/-- Two values of one shape whose leaves are related in order. -/
def Leafwise (R : Value α → Value α → Prop) (v w : Value α) : Prop :=
  v.shape = w.shape ∧ List.Forall₂ R v.leaves w.leaves

variable {R : Value α → Value α → Prop}

lemma leafwise_items {xs ys : List (Value α)} :
    List.Forall₂ (Leafwise R) xs ys ↔
      listShape xs = listShape ys ∧ List.Forall₂ R (listLeaves xs) (listLeaves ys) := by
  simp only [listShape_eq_map, listLeaves_eq_flatMap]
  exact forall₂_flatMap_iff fun x _ y _ => length_leaves_of_shape_eq

lemma leafwise_fields {xs ys : List (String × Value α)} :
    List.Forall₂ (Table.Corresponds (Leafwise R)) xs ys ↔
      fieldsShape xs = fieldsShape ys ∧ List.Forall₂ R (fieldsLeaves xs) (fieldsLeaves ys) := by
  simp only [fieldsShape_eq_map, fieldsLeaves_eq_flatMap]
  rw [← forall₂_flatMap_iff fun x _ y _ h => length_leaves_of_shape_eq (Prod.mk.inj h).2]
  simp only [Prod.mk.injEq, and_assoc]
  exact Iff.rfl

lemma leafwise_pairs {xs ys : List (Value α × Value α)} :
    List.Forall₂ (fun x y => Leafwise R x.1 y.1 ∧ Leafwise R x.2 y.2) xs ys ↔
      pairsShape xs = pairsShape ys ∧ List.Forall₂ R (pairsLeaves xs) (pairsLeaves ys) := by
  have hkey : ∀ {x y : Value α × Value α}, (x.1.shape, x.2.shape) = (y.1.shape, y.2.shape) →
      x.1.leaves.length = y.1.leaves.length := fun h => length_leaves_of_shape_eq (Prod.mk.inj h).1
  simp only [pairsShape_eq_map, pairsLeaves_eq_flatMap]
  rw [← forall₂_flatMap_iff fun x _ y _ h => by
    rw [List.length_append, List.length_append, hkey h,
      length_leaves_of_shape_eq (Prod.mk.inj h).2]]
  have hpair : ∀ x y : Value α × Value α, (Leafwise R x.1 y.1 ∧ Leafwise R x.2 y.2) ↔
      (x.1.shape, x.2.shape) = (y.1.shape, y.2.shape) ∧
        List.Forall₂ R (x.1.leaves ++ x.2.leaves) (y.1.leaves ++ y.2.leaves) := by
    intro x y
    by_cases hs : (x.1.shape, x.2.shape) = (y.1.shape, y.2.shape)
    · obtain ⟨hk, hv⟩ := Prod.mk.inj hs
      rw [forall₂_append_iff (hkey hs)]
      simp [Leafwise, hk, hv]
    · simp only [hs, false_and, iff_false, Leafwise]
      rintro ⟨⟨hk, -⟩, hv, -⟩
      exact hs (Prod.ext hk hv)
  exact ⟨fun h => h.imp fun x y => (hpair x y).mp, fun h => h.imp fun x y => (hpair x y).mpr⟩

lemma leafwise_kwargs {xs ys : Option (List (String × Value α))} :
    Option.Rel (List.Forall₂ (Table.Corresponds (Leafwise R))) xs ys ↔
      kwargsShape xs = kwargsShape ys ∧ List.Forall₂ R (kwargsLeaves xs) (kwargsLeaves ys) := by
  cases xs <;> cases ys <;> simp [kwargsShape, kwargsLeaves, leafwise_fields]

/-- The leaves of arguments and of keyword arguments are compared one after the other. -/
lemma forall₂_argsLeaves {xs ys : List (Value α)} {xkw ykw : Option (List (String × Value α))}
    (h : listShape xs = listShape ys) :
    List.Forall₂ R (listLeaves xs ++ kwargsLeaves xkw) (listLeaves ys ++ kwargsLeaves ykw) ↔
      List.Forall₂ R (listLeaves xs) (listLeaves ys) ∧
        List.Forall₂ R (kwargsLeaves xkw) (kwargsLeaves ykw) := by
  have hlist : (list xs).shape = (list ys).shape := by rw [shape, shape, h]
  exact forall₂_append_iff (length_leaves_of_shape_eq hlist)

/-! ### What compares with a given value

A value that compares leaf by leaf with a container is such a container, member by member. -/

variable {w : Value α}

lemma leafwise_of_isLeaf {v : Value α} (h : v.isLeaf = true) :
    Leafwise R v w ↔ w.isLeaf = true ∧ R v w := by
  have hleaves : ∀ {u : Value α}, u.isLeaf = true → u.leaves = [u] := fun hu => by
    rw [leaves_eq, if_pos hu]
  rw [Leafwise, shape_of_isLeaf h, hleaves h]
  constructor
  · rintro ⟨hshape, hR⟩
    have hw := isLeaf_of_shape_eq_nil hshape.symm
    rw [hleaves hw] at hR
    exact ⟨hw, (List.forall₂_cons.mp hR).1⟩
  · rintro ⟨hw, hR⟩
    rw [shape_of_isLeaf hw, hleaves hw]
    exact ⟨rfl, .cons hR .nil⟩

lemma leafwise_list {xs : List (Value α)} :
    Leafwise R (.list xs) w ↔ ∃ ys, List.Forall₂ (Leafwise R) xs ys ∧ .list ys = w := by
  constructor
  · rintro ⟨hshape, hleaves⟩
    cases w with
    | list ys => exact ⟨ys, leafwise_items.mpr ⟨list.inj hshape, hleaves⟩, rfl⟩
    | _ => cases hshape
  · rintro ⟨ys, h, rfl⟩
    obtain ⟨hshape, hleaves⟩ := leafwise_items.mp h
    exact ⟨congrArg list hshape, hleaves⟩

lemma leafwise_dictionary {xs : List (String × Value α)} :
    Leafwise R (.dictionary xs) w ↔
      ∃ ys, List.Forall₂ (Table.Corresponds (Leafwise R)) xs ys ∧ .dictionary ys = w := by
  constructor
  · rintro ⟨hshape, hleaves⟩
    cases w with
    | dictionary ys => exact ⟨ys, leafwise_fields.mpr ⟨dictionary.inj hshape, hleaves⟩, rfl⟩
    | _ => cases hshape
  · rintro ⟨ys, h, rfl⟩
    obtain ⟨hshape, hleaves⟩ := leafwise_fields.mp h
    exact ⟨congrArg dictionary hshape, hleaves⟩

lemma leafwise_map {xs : List (Value α × Value α)} :
    Leafwise R (.map xs) w ↔
      ∃ ys, List.Forall₂ (fun x y => Leafwise R x.1 y.1 ∧ Leafwise R x.2 y.2) xs ys ∧
        .map ys = w := by
  constructor
  · rintro ⟨hshape, hleaves⟩
    cases w with
    | map ys => exact ⟨ys, leafwise_pairs.mpr ⟨map.inj hshape, hleaves⟩, rfl⟩
    | _ => cases hshape
  · rintro ⟨ys, h, rfl⟩
    obtain ⟨hshape, hleaves⟩ := leafwise_pairs.mp h
    exact ⟨congrArg map hshape, hleaves⟩

lemma leafwise_predicate {name : String} {xs : List (Value α)}
    {xkw : Option (List (String × Value α))} :
    Leafwise R (.predicate name xs xkw) w ↔
      ∃ ys, List.Forall₂ (Leafwise R) xs ys ∧ ∃ ykw,
        Option.Rel (List.Forall₂ (Table.Corresponds (Leafwise R))) xkw ykw ∧
        .predicate name ys ykw = w := by
  constructor
  · rintro ⟨hshape, hleaves⟩
    cases w with
    | predicate name' ys ykw =>
      obtain ⟨rfl, hargs, hkwargs⟩ := predicate.inj hshape
      obtain ⟨ha, hk⟩ := (forall₂_argsLeaves hargs).mp hleaves
      exact ⟨ys, leafwise_items.mpr ⟨hargs, ha⟩, ykw, leafwise_kwargs.mpr ⟨hkwargs, hk⟩, rfl⟩
    | _ => cases hshape
  · rintro ⟨ys, hys, ykw, hykw, rfl⟩
    obtain ⟨hargs, ha⟩ := leafwise_items.mp hys
    obtain ⟨hkwargs, hk⟩ := leafwise_kwargs.mp hykw
    exact ⟨congrArg₂ (predicate name) hargs hkwargs, (forall₂_argsLeaves hargs).mpr ⟨ha, hk⟩⟩

lemma leafwise_expression {operator : Operator} {xs : List (Value α)} :
    Leafwise R (.expression operator xs) w ↔
      ∃ ys, List.Forall₂ (Leafwise R) xs ys ∧ .expression operator ys = w := by
  constructor
  · rintro ⟨hshape, hleaves⟩
    cases w with
    | expression operator' ys =>
      obtain ⟨rfl, hargs⟩ := expression.inj hshape
      exact ⟨ys, leafwise_items.mpr ⟨hargs, hleaves⟩, rfl⟩
    | _ => cases hshape
  · rintro ⟨ys, h, rfl⟩
    obtain ⟨hshape, hleaves⟩ := leafwise_items.mp h
    exact ⟨congrArg (expression operator) hshape, hleaves⟩

lemma leafwise_pattern {tag : Option String} {xs : List (String × Value α)} :
    Leafwise R (.pattern tag xs) w ↔
      ∃ ys, List.Forall₂ (Table.Corresponds (Leafwise R)) xs ys ∧ .pattern tag ys = w := by
  constructor
  · rintro ⟨hshape, hleaves⟩
    cases w with
    | pattern tag' ys =>
      obtain ⟨rfl, hfields⟩ := pattern.inj hshape
      exact ⟨ys, leafwise_fields.mpr ⟨hfields, hleaves⟩, rfl⟩
    | _ => cases hshape
  · rintro ⟨ys, h, rfl⟩
    obtain ⟨hshape, hleaves⟩ := leafwise_fields.mp h
    exact ⟨congrArg (pattern tag) hshape, hleaves⟩

/-! ### Member by member -/

/-- A container is related to such a container, member by member, and to nothing else. -/
structure Memberwise (R : Value α → Value α → Prop) : Prop where
  list : ∀ {xs w}, R (.list xs) w ↔ ∃ ys, List.Forall₂ R xs ys ∧ .list ys = w
  dictionary : ∀ {xs w}, R (.dictionary xs) w ↔
    ∃ ys, List.Forall₂ (Table.Corresponds R) xs ys ∧ .dictionary ys = w
  map : ∀ {xs w}, R (.map xs) w ↔
    ∃ ys, List.Forall₂ (fun x y => R x.1 y.1 ∧ R x.2 y.2) xs ys ∧ .map ys = w
  predicate : ∀ {name xs xkw w}, R (.predicate name xs xkw) w ↔
    ∃ ys, List.Forall₂ R xs ys ∧ ∃ ykw,
      Option.Rel (List.Forall₂ (Table.Corresponds R)) xkw ykw ∧ .predicate name ys ykw = w
  expression : ∀ {operator xs w}, R (.expression operator xs) w ↔
    ∃ ys, List.Forall₂ R xs ys ∧ .expression operator ys = w
  pattern : ∀ {tag xs w}, R (.pattern tag xs) w ↔
    ∃ ys, List.Forall₂ (Table.Corresponds R) xs ys ∧ .pattern tag ys = w

section Memberwise

variable {S : Value α → Value α → Prop}

lemma forall₂_corresponds_congr {xs ys : List (String × Value α)}
    (h : ∀ x ∈ xs, ∀ y, R x.2 y ↔ S x.2 y) :
    List.Forall₂ (Table.Corresponds R) xs ys ↔ List.Forall₂ (Table.Corresponds S) xs ys :=
  forall₂_congr_left fun x hx y => and_congr_right fun _ => h x hx y.2

/-- A relation that goes member by member is what it is between leaves. -/
theorem Memberwise.iff_leafwise (hR : Memberwise R)
    (hleaf : ∀ {v w : Value α}, v.isLeaf = true → (R v w ↔ w.isLeaf = true ∧ S v w))
    (v w : Value α) : R v w ↔ Leafwise S v w := by
  induction v generalizing w with
  | nil | boolean | integer | float | string | reference | object | var =>
    rw [leafwise_of_isLeaf rfl]
    exact hleaf rfl
  | list items ih =>
    simp only [hR.list, leafwise_list, forall₂_congr_left ih]
  | dictionary fields ih =>
    simp only [hR.dictionary, leafwise_dictionary, forall₂_corresponds_congr ih]
  | map pairs hkeys hvalues =>
    have hpairs : ∀ x ∈ pairs, ∀ y : Value α × Value α,
        (R x.1 y.1 ∧ R x.2 y.2) ↔ (Leafwise S x.1 y.1 ∧ Leafwise S x.2 y.2) := fun x hx y =>
      and_congr (hkeys x hx y.1) (hvalues x hx y.2)
    simp only [hR.map, leafwise_map, forall₂_congr_left hpairs]
  | predicate name args kwargs hargs hkwargs =>
    have hkw : ∀ ykw, Option.Rel (List.Forall₂ (Table.Corresponds R)) kwargs ykw ↔
        Option.Rel (List.Forall₂ (Table.Corresponds (Leafwise S))) kwargs ykw := by
      intro ykw
      rcases kwargs with _ | fields
      · cases ykw <;> simp
      · cases ykw <;> simp [forall₂_corresponds_congr (hkwargs fields rfl)]
    simp only [hR.predicate, leafwise_predicate, forall₂_congr_left hargs, hkw]
  | expression operator args ih =>
    simp only [hR.expression, leafwise_expression, forall₂_congr_left ih]
  | pattern tag fields ih =>
    simp only [hR.pattern, leafwise_pattern, forall₂_corresponds_congr ih]

end Memberwise

end HostBridge.Value
