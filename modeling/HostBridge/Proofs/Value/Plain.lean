import HostBridge.Proofs.Value.Equivalence

/-!
Plain equality leaf by leaf.

Plain equality goes through containers in the same way as the equivalence, and differs from it
between leaves only.
-/

namespace HostBridge.Value

variable {α : Type}

/-- Plain equality as a relation. -/
def Equals (v w : Value α) : Prop := v.equals w = true

lemma itemsEqual_iff {xs ys : List (Value α)} :
    itemsEqual xs ys = true ↔ List.Forall₂ Equals xs ys := by
  induction xs generalizing ys with
  | nil => cases ys <;> simp [itemsEqual]
  | cons x xs ih => cases ys <;> simp [itemsEqual, ih, Equals]

lemma fieldsEqual_iff {xs ys : List (String × Value α)} :
    fieldsEqual xs ys = true ↔ List.Forall₂ (Table.Corresponds Equals) xs ys := by
  induction xs generalizing ys with
  | nil => cases ys <;> simp [fieldsEqual]
  | cons x xs ih => cases ys <;> simp [fieldsEqual, ih, Table.Corresponds, Equals]

lemma pairsEqual_iff {xs ys : List (Value α × Value α)} :
    pairsEqual xs ys = true ↔
      List.Forall₂ (fun x y => Equals x.1 y.1 ∧ Equals x.2 y.2) xs ys := by
  induction xs generalizing ys with
  | nil => cases ys <;> simp [pairsEqual]
  | cons x xs ih => cases ys <;> simp [pairsEqual, ih, Equals]

lemma kwargsEqual_iff {xs ys : Option (List (String × Value α))} :
    kwargsEqual xs ys = true ↔
      Option.Rel (List.Forall₂ (Table.Corresponds Equals)) xs ys := by
  cases xs <;> cases ys <;> simp [kwargsEqual, fieldsEqual_iff]

lemma memberwise_equals : Memberwise (@Equals α) where
  list {xs w} := by
    cases w with
    | list ys => simp [Equals, equals, itemsEqual_iff]
    | _ => simp [Equals, equals]
  dictionary {xs w} := by
    cases w with
    | dictionary ys => simp [Equals, equals, fieldsEqual_iff]
    | _ => simp [Equals, equals]
  map {xs w} := by
    cases w with
    | map ys => simp [Equals, equals, pairsEqual_iff]
    | _ => simp [Equals, equals]
  predicate {name xs xkw w} := by
    cases w with
    | predicate name' ys ykw =>
      simp only [Equals, equals, Bool.and_eq_true, beq_iff_eq, itemsEqual_iff, kwargsEqual_iff]
      constructor
      · rintro ⟨⟨rfl, ha⟩, hk⟩
        exact ⟨ys, ha, ykw, hk, rfl⟩
      · rintro ⟨_, ha, _, hk, h⟩
        cases h
        exact ⟨⟨rfl, ha⟩, hk⟩
    | _ => simp [Equals, equals]
  expression {operator xs w} := by
    cases w with
    | expression operator' ys => simp [Equals, equals, itemsEqual_iff, and_comm]
    | _ => simp [Equals, equals]
  pattern {tag xs w} := by
    cases w with
    | pattern tag' ys => simp [Equals, equals, fieldsEqual_iff, and_comm]
    | _ => simp [Equals, equals]

lemma isLeaf_of_equals {v w : Value α} (hv : v.isLeaf = true) (h : Equals v w) :
    w.isLeaf = true := by
  cases w with
  | list | dictionary | map | predicate | expression | pattern =>
    cases v <;> first | cases h | cases hv
  | _ => rfl

/-- Plain equality is comparing leaf by leaf. -/
theorem equals_iff_leafwise (v w : Value α) : Equals v w ↔ Leafwise Equals v w :=
  memberwise_equals.iff_leafwise
    (fun hleaf => ⟨fun h => ⟨isLeaf_of_equals hleaf h, h⟩, fun h => h.2⟩) v w

/-- A comparison that calls more leaves related calls more values related. -/
lemma Leafwise.mono {R S : Value α → Value α → Prop} {v w : Value α} (h : Leafwise R v w)
    (hleaf : ∀ p q, R p q → S p q) : Leafwise S v w :=
  ⟨h.1, h.2.imp hleaf⟩

end HostBridge.Value
