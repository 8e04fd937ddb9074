import HostBridge.Proofs.Double.Exact
import HostBridge.Proofs.Value.Leaves
import HostBridge.Value.Equality

/-!
The equivalence of values is one of leaves.

Two values are equivalent if they have one shape and their leaves are equivalent in order. So the
equivalence is reflexive, symmetric and transitive where it is on leaves, and there it rests on
three things: agreement of numbers, the relation that objects are compared by, and identity.
-/

namespace HostBridge

/-! ### Agreement of numbers -/

namespace Double

lemma equals_self {x : Double} (h : x.isNan = false) : x.equals x = true := by
  cases x <;> simp_all [equals, isNan]

lemma equals_iff {x y : Double} : x.equals y = true ↔
    (∃ s, x = .infinite s ∧ y = .infinite s) ∨
    ∃ a b, x = .finite a ∧ y = .finite b ∧ a.rank = b.rank ∧
      (a.negative = b.negative ∨ a.rank.val = 0) := by
  rcases x with _ | s | a <;> rcases y with _ | t | b
  case infinite.infinite => simp [equals, @eq_comm _ t]
  all_goals simp [equals]

lemma equals_symm {x y : Double} (h : x.equals y = true) : y.equals x = true := by
  rw [equals_iff] at h ⊢
  rcases h with ⟨s, rfl, rfl⟩ | ⟨a, b, rfl, rfl, hrank, hsign⟩
  · exact Or.inl ⟨s, rfl, rfl⟩
  · exact Or.inr ⟨b, a, rfl, rfl, hrank.symm, hsign.imp Eq.symm fun h => by rw [← hrank, h]⟩

lemma equals_trans {x y z : Double} (hxy : x.equals y = true) (hyz : y.equals z = true) :
    x.equals z = true := by
  rw [equals_iff] at hxy hyz ⊢
  rcases hxy with ⟨s, rfl, rfl⟩ | ⟨a, b, rfl, rfl, hrank, hsign⟩
  · simpa using hyz
  · obtain ⟨b', c, hb, rfl, hrank', hsign'⟩ : ∃ b' c, finite b = finite b' ∧ z = .finite c ∧
        b'.rank = c.rank ∧ (b'.negative = c.negative ∨ b'.rank.val = 0) := by simpa using hyz
    cases hb
    refine Or.inr ⟨a, c, rfl, rfl, hrank.trans hrank', ?_⟩
    rw [← hrank] at hsign'
    -- the signs may differ at rank zero only, and that is a rank of all three
    rcases hsign with hs | hzero
    · exact hsign'.imp_left hs.trans
    · exact Or.inr hzero

lemma isNan_of_equals {x y : Double} (h : x.equals y = true) :
    x.isNan = false ∧ y.isNan = false := by
  cases x <;> cases y <;> simp_all [equals, isNan]

end Double

namespace Value

variable {α : Type}

lemma numbersAgree_self (x : Double) : numbersAgree x x = true := by
  unfold numbersAgree
  rcases h : x.isNan with _ | _
  · simp [Double.equals_self h]
  · simp

lemma numbersAgree_symm {x y : Double} (h : numbersAgree x y = true) :
    numbersAgree y x = true := by
  unfold numbersAgree at h ⊢
  simp only [Bool.or_eq_true, Bool.and_eq_true] at h ⊢
  exact h.imp Double.equals_symm And.symm

lemma numbersAgree_trans {x y z : Double} (hxy : numbersAgree x y = true)
    (hyz : numbersAgree y z = true) : numbersAgree x z = true := by
  unfold numbersAgree at hxy hyz ⊢
  simp only [Bool.or_eq_true, Bool.and_eq_true] at hxy hyz ⊢
  rcases hxy with hxy | ⟨hx, hy⟩ <;> rcases hyz with hyz | ⟨hy', hz⟩
  · exact Or.inl (Double.equals_trans hxy hyz)
  · have hno := (Double.isNan_of_equals hxy).2
    rw [hy'] at hno; cases hno
  · have hno := (Double.isNan_of_equals hyz).1
    rw [hy] at hno; cases hno
  · exact Or.inr ⟨hx, hz⟩

lemma natAbs_toInt_lt (n : Int32) : n.toInt.natAbs < 2 ^ 53 := by
  have hlo := Int32.le_toInt n
  have hhi := Int32.toInt_lt n
  omega

/-- Integers are compared as such, and that is how the numbers they denote compare. -/
lemma numbersAgree_ofInt (m n : Int32) :
    numbersAgree (.ofInt m.toInt) (.ofInt n.toInt) = (m == n) := by
  rw [Bool.eq_iff_iff, beq_iff_eq, ← Int32.toInt_inj]
  constructor
  · intro h
    obtain ⟨r, hr, -⟩ := Double.ofInt_eq_finite (natAbs_toInt_lt m)
    have hfinite : (Double.ofInt m.toInt).isNan = false := by rw [hr]; rfl
    unfold numbersAgree at h
    rw [hfinite, Bool.false_and, Bool.or_false] at h
    exact Double.ofInt_injective (natAbs_toInt_lt m) (natAbs_toInt_lt n) h
  · intro h
    rw [h]
    exact numbersAgree_self _

/-! ### Leaf by leaf -/

section Leafwise

variable {alike : Object α → Object α → Bool}

variable (alike) in
/-- Equivalence as a relation. -/
def Equivalent (v w : Value α) : Prop := v.equivalent alike w = true

lemma itemsEquivalent_iff {xs ys : List (Value α)} :
    itemsEquivalent alike xs ys = true ↔ List.Forall₂ (Equivalent alike) xs ys := by
  induction xs generalizing ys with
  | nil => cases ys <;> simp [itemsEquivalent]
  | cons x xs ih => cases ys <;> simp [itemsEquivalent, ih, Equivalent]

lemma fieldsEquivalent_iff {xs ys : List (String × Value α)} :
    fieldsEquivalent alike xs ys = true ↔
      List.Forall₂ (Table.Corresponds (Equivalent alike)) xs ys := by
  induction xs generalizing ys with
  | nil => cases ys <;> simp [fieldsEquivalent]
  | cons x xs ih => cases ys <;> simp [fieldsEquivalent, ih, Table.Corresponds, Equivalent]

lemma pairsEquivalent_iff {xs ys : List (Value α × Value α)} :
    pairsEquivalent alike xs ys = true ↔
      List.Forall₂ (fun x y => Equivalent alike x.1 y.1 ∧ Equivalent alike x.2 y.2) xs ys := by
  induction xs generalizing ys with
  | nil => cases ys <;> simp [pairsEquivalent]
  | cons x xs ih => cases ys <;> simp [pairsEquivalent, ih, Equivalent]

lemma kwargsEquivalent_iff {xs ys : Option (List (String × Value α))} :
    kwargsEquivalent alike xs ys = true ↔
      Option.Rel (List.Forall₂ (Table.Corresponds (Equivalent alike))) xs ys := by
  cases xs <;> cases ys <;> simp [kwargsEquivalent, fieldsEquivalent_iff]

lemma isLeaf_of_equivalent {v w : Value α} (hv : v.isLeaf = true) (h : Equivalent alike v w) :
    w.isLeaf = true := by
  cases w with
  | list | dictionary | map | predicate | expression | pattern =>
    cases v <;> first | cases h | cases hv
  | _ => rfl

lemma memberwise_equivalent : Memberwise (Equivalent alike) where
  list {xs w} := by
    cases w with
    | list ys => simp [Equivalent, equivalent, itemsEquivalent_iff]
    | _ => simp [Equivalent, equivalent]
  dictionary {xs w} := by
    cases w with
    | dictionary ys => simp [Equivalent, equivalent, fieldsEquivalent_iff]
    | _ => simp [Equivalent, equivalent]
  map {xs w} := by
    cases w with
    | map ys => simp [Equivalent, equivalent, pairsEquivalent_iff]
    | _ => simp [Equivalent, equivalent]
  predicate {name xs xkw w} := by
    cases w with
    | predicate name' ys ykw =>
      simp only [Equivalent, equivalent, Bool.and_eq_true, beq_iff_eq, itemsEquivalent_iff,
        kwargsEquivalent_iff]
      constructor
      · rintro ⟨⟨rfl, ha⟩, hk⟩
        exact ⟨ys, ha, ykw, hk, rfl⟩
      · rintro ⟨_, ha, _, hk, h⟩
        cases h
        exact ⟨⟨rfl, ha⟩, hk⟩
    | _ => simp [Equivalent, equivalent]
  expression {operator xs w} := by
    cases w with
    | expression operator' ys =>
      simp [Equivalent, equivalent, itemsEquivalent_iff, and_comm]
    | _ => simp [Equivalent, equivalent]
  pattern {tag xs w} := by
    cases w with
    | pattern tag' ys => simp [Equivalent, equivalent, fieldsEquivalent_iff, and_comm]
    | _ => simp [Equivalent, equivalent]

/-- Equivalence is comparing leaf by leaf. -/
theorem equivalent_iff_leafwise (v w : Value α) :
    Equivalent alike v w ↔ Leafwise (Equivalent alike) v w :=
  memberwise_equivalent.iff_leafwise
    (fun hleaf => ⟨fun h => ⟨isLeaf_of_equivalent hleaf h, h⟩, fun h => h.2⟩) v w

end Leafwise

/-! ### The laws of an equivalence -/

/-- No reference is left in a value, and the objects in it are of the given ones. -/
structure Resolved (known : Object α → Prop) (v : Value α) : Prop where
  reference : ∀ handle, .reference handle ∉ v.parts
  object : ∀ o, .object o ∈ v.parts → known o

section Laws

variable {alike : Object α → Object α → Bool} {known : Object α → Prop} {u v w : Value α}

lemma Resolved.leaf {p : Value α} (h : v.Resolved known) (hp : p ∈ v.leaves) :
    p.isLeaf = true ∧ (∀ handle, p ≠ .reference handle) ∧ ∀ o, p = .object o → known o := by
  obtain ⟨hpart, hleaf⟩ := mem_leaves.mp hp
  refine ⟨hleaf, ?_, ?_⟩
  · rintro handle rfl; exact h.reference handle hpart
  · rintro o rfl; exact h.object o hpart

/-- What a leaf is equivalent to. -/
lemma leaf_cases {p q : Value α} (hp : p.isLeaf = true) (h : Equivalent alike p q) :
    (∃ x y, p.number? = some x ∧ q.number? = some y ∧ numbersAgree x y = true) ∨
    (∃ o o', p = .object o ∧ q = .object o' ∧ alike o o' = true) ∨
    (∃ k, p = .reference k) ∨ p = q := by
  cases p <;> cases q <;>
    simp_all [isLeaf, Equivalent, equivalent, number?, numbersAgree_ofInt]

lemma equivalent_of_numbersAgree {p q : Value α} {x y : Double} (hp : p.number? = some x)
    (hq : q.number? = some y) (h : numbersAgree x y = true) : Equivalent alike p q := by
  cases p with
  | integer m =>
    cases q with
    | integer n =>
      cases hp; cases hq
      rwa [numbersAgree_ofInt] at h
    | float => cases hp; cases hq; exact h
    | _ => cases hq
  | float =>
    cases q with
    | integer | float => cases hp; cases hq; exact h
    | _ => cases hq
  | _ => cases hp

theorem equivalent_refl (hv : v.Resolved known) (halike : ∀ o, known o → alike o o = true) :
    v.equivalent alike v = true := by
  have hleaf : ∀ p ∈ v.leaves, Equivalent alike p p := by
    intro p hp
    obtain ⟨hleaf, hreference, hobject⟩ := hv.leaf hp
    cases p with
    | float x => exact numbersAgree_self x
    | object o => exact halike o (hobject o rfl)
    | reference handle => exact absurd rfl (hreference handle)
    | _ => simp_all [isLeaf, Equivalent, equivalent]
  exact (equivalent_iff_leafwise v v).mpr ⟨rfl, List.forall₂_same.mpr hleaf⟩

theorem equivalent_symm (hv : v.Resolved known)
    (halike : ∀ o p, alike o p = true → alike p o = true) (h : v.equivalent alike w = true) :
    w.equivalent alike v = true := by
  obtain ⟨hshape, hleaves⟩ := (equivalent_iff_leafwise v w).mp h
  refine (equivalent_iff_leafwise w v).mpr ⟨hshape.symm, List.Forall₂.flip ?_⟩
  refine forall₂_imp_left (fun p hp q hpq => ?_) hleaves
  obtain ⟨hleaf, hreference, -⟩ := hv.leaf hp
  rcases leaf_cases hleaf hpq with ⟨x, y, hx, hy, hxy⟩ | ⟨o, o', rfl, rfl, ho⟩ | ⟨k, rfl⟩ | rfl
  · exact equivalent_of_numbersAgree hy hx (numbersAgree_symm hxy)
  · exact halike o o' ho
  · exact absurd rfl (hreference k)
  · exact hpq

theorem equivalent_trans (hu : u.Resolved known) (hv : v.Resolved known) (hw : w.Resolved known)
    (halike : ∀ o p q, known o → known p → known q →
      alike o p = true → alike p q = true → alike o q = true)
    (huv : u.equivalent alike v = true) (hvw : v.equivalent alike w = true) :
    u.equivalent alike w = true := by
  obtain ⟨hshape, hleaves⟩ := (equivalent_iff_leafwise u v).mp huv
  obtain ⟨hshape', hleaves'⟩ := (equivalent_iff_leafwise v w).mp hvw
  refine (equivalent_iff_leafwise u w).mpr ⟨hshape.trans hshape', ?_⟩
  refine forall₂_trans (fun p hp q hq r hr hpq hqr => ?_) hleaves hleaves'
  obtain ⟨hleafp, hreference, hp⟩ := hu.leaf hp
  obtain ⟨hleafq, hreference', hq⟩ := hv.leaf hq
  have hr := (hw.leaf hr).2.2
  rcases leaf_cases hleafp hpq with ⟨x, y, hx, hy, hxy⟩ | ⟨o, o', rfl, rfl, ho⟩ | ⟨k, rfl⟩ | rfl
  · rcases leaf_cases hleafq hqr with
      ⟨y', z, hy', hz, hyz⟩ | ⟨o, o', rfl, rfl, -⟩ | ⟨k, rfl⟩ | rfl
    · rw [hy] at hy'; cases hy'
      exact equivalent_of_numbersAgree hx hz (numbersAgree_trans hxy hyz)
    · cases hy
    · cases hy
    · exact hpq
  · rcases leaf_cases hleafq hqr with
      ⟨y', z, hy', hz, hyz⟩ | ⟨p, p', hp', rfl, ho'⟩ | ⟨k, hk⟩ | rfl
    · cases hy'
    · cases hp'
      exact halike o o' p' (hp o rfl) (hq o' rfl) (hr p' rfl) ho ho'
    · cases hk
    · exact hpq
  · exact absurd rfl (hreference k)
  · exact hqr

end Laws

end Value

end HostBridge
