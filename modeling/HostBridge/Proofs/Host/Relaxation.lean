import HostBridge.Proofs.Double.Value
import HostBridge.Proofs.Host.Equality
import HostBridge.Proofs.Value.Plain

/-!
How much a host's equality relaxes plain equality.

Both equalities go through containers in the same way, so they differ between leaves only, and
there the host's equality allows three things more: not-a-numbers are equal, a number may be
written as an integer here and as a float there, and a hook of their class may call two objects
equal.
-/

namespace HostBridge

variable {α : Type}

namespace Value

lemma numbersAgree_iff {x y : Double} :
    numbersAgree x y = true ↔ x.equals y = true ∨ (x = .nan ∧ y = .nan) := by
  have hnan : ∀ z : Double, z.isNan = true ↔ z = .nan := by
    intro z; cases z <;> simp [Double.isNan]
  rw [numbersAgree, Bool.or_eq_true, Bool.and_eq_true, hnan, hnan]

/-- A 32-bit integer agrees with the doubles that denote it. -/
lemma numbersAgree_ofInt_iff {n : Int32} {x : Double} :
    numbersAgree (.ofInt n.toInt) x = true ↔ x.value? = some (n.toInt : ℚ) := by
  have hbound := natAbs_toInt_lt n
  obtain ⟨r, hr, -⟩ := Double.ofInt_eq_finite hbound
  have hfinite : Double.ofInt n.toInt ≠ .nan := by rw [hr]; nofun
  rw [numbersAgree_iff, ← Double.ofInt_equals_iff hbound, or_iff_left fun h => hfinite h.1]

end Value

namespace Host

/-- What two leaves have in common that a host calls equal. -/
inductive LeavesAgree (t : Classes α) : Value α → Value α → Prop
  | equal {v w} (h : v.equals w = true) : LeavesAgree t v w
  | nan : LeavesAgree t (.float .nan) (.float .nan)
  | integerFloat {n x} (h : x.value? = some (n.toInt : ℚ)) :
    LeavesAgree t (.integer n) (.float x)
  | floatInteger {n x} (h : x.value? = some (n.toInt : ℚ)) :
    LeavesAgree t (.float x) (.integer n)
  | hooked {o p hook} (htype : o.typeName = p.typeName) (hhook : t.hook? o.typeName = some hook)
    (h : hook o.content p.content = true) : LeavesAgree t (.object o) (.object p)

variable {t : Classes α} {v w : Value α}

/-- Equal leaves agree, and so do those that are equivalent in another way. -/
lemma leavesAgree_of_equivalent (hv : v.isLeaf = true) (h : Value.Equivalent t.alike v w) :
    LeavesAgree t v w := by
  cases v with
  | list | dictionary | map | predicate | expression | pattern => cases hv
  | integer n =>
    cases w with
    | float x => exact .integerFloat (Value.numbersAgree_ofInt_iff.mp h)
    | integer => exact .equal h
    | _ => cases h
  | float x =>
    cases w with
    | integer n =>
      exact .floatInteger (Value.numbersAgree_ofInt_iff.mp (Value.numbersAgree_symm h))
    | float y =>
      rcases Value.numbersAgree_iff.mp h with hequal | ⟨rfl, rfl⟩
      · exact .equal hequal
      · exact .nan
    | _ => cases h
  | object o =>
    cases w with
    | object p =>
      rcases Classes.alike_iff.mp h with hsame | ⟨htype, hook, hhook, hequal⟩
      · exact .equal hsame
      · exact .hooked htype hhook hequal
    | _ => cases h
  | nil | boolean | string | reference | var => cases w <;> exact .equal h

/-- Leaves that agree are equivalent. -/
lemma equivalent_of_leavesAgree (hv : v.isLeaf = true) (h : LeavesAgree t v w) :
    Value.Equivalent t.alike v w := by
  cases h with
  | nan => exact Value.numbersAgree_self _
  | integerFloat h => exact Value.numbersAgree_ofInt_iff.mpr h
  | floatInteger h => exact Value.numbersAgree_symm (Value.numbersAgree_ofInt_iff.mpr h)
  | hooked htype hhook h => exact Classes.alike_iff.mpr (Or.inr ⟨htype, _, hhook, h⟩)
  | equal h =>
    cases v with
    | list | dictionary | map | predicate | expression | pattern => cases hv
    | float x =>
      cases w with
      | float y => exact Value.numbersAgree_iff.mpr (Or.inl h)
      | _ => cases h
    | object o =>
      cases w with
      | object p => exact Classes.alike_iff.mpr (Or.inl h)
      | _ => cases h
    | nil | boolean | integer | string | reference | var => cases w <;> first | exact h | cases h

/-- Equivalence is agreement leaf by leaf. -/
theorem equivalent_iff_leavesAgree (t : Classes α) (v w : Value α) :
    Value.Equivalent t.alike v w ↔ Value.Leafwise (LeavesAgree t) v w :=
  Value.memberwise_equivalent.iff_leafwise
    (fun hleaf => ⟨fun h => ⟨Value.isLeaf_of_equivalent hleaf h, leavesAgree_of_equivalent hleaf h⟩,
      fun h => equivalent_of_leavesAgree hleaf h.2⟩) v w

/--
**A host's equality relaxes plain equality at leaves only.** Plain equality is having one shape and
leaves that are equal in order. A host's equality is having one shape and leaves that agree in
order: they are equal, or both are no number, or they denote one number as an integer and as a
float, or they are objects of one type which the hook of their class calls equal. So values that
are plainly equal are equal for every host.
-/
theorem valuesEqual_relaxes_equals (h : Host α) :
    (∀ v w : Value α, v.equals w = true → h.valuesEqual v w = true) ∧
    (∀ v w : Value α, v.equals w = true ↔ Value.Leafwise Value.Equals v w) ∧
    (∀ v w : Value α, h.valuesEqual v w = true ↔
      Value.Leafwise (LeavesAgree h.classes) v w) := by
  have hequals := Value.equals_iff_leafwise (α := α)
  have hvaluesEqual := equivalent_iff_leavesAgree h.classes
  refine ⟨fun v w heq => ?_, hequals, hvaluesEqual⟩
  exact (hvaluesEqual v w).mpr (((hequals v w).mp heq).mono fun _ _ => .equal)

end Host

end HostBridge
