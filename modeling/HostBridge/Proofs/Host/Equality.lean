import HostBridge.Proofs.Classes.Ancestry
import HostBridge.Proofs.Codec.Parts
import HostBridge.Proofs.Host.Session

/-!
Equality as the engine asks for it.

The operands are terms, and the host compares what they stand for in the session. References are
gone by then, and with them the one kind of value that may differ from itself. Objects are
compared by identity or by a hook of their class, which need not hold of an object and itself.
-/

namespace HostBridge

variable {α : Type}

/-! ### Objects -/

namespace Classes

variable {t : Classes α} {o p q : Object α}

/-- The hook by which the objects of a type are compared. -/
def hook? (t : Classes α) (typeName : String) : Option (Content α → Content α → Bool) := do
  let name ← t.nameOf? typeName
  let c ← t.byName.lookup name
  c.equality

/-- The equality hook of every registered class is symmetric and transitive. -/
structure LawfulHooks (t : Classes α) : Prop where
  symm : ∀ {name c hook}, t.get name = .ok c → c.equality = some hook →
    ∀ {x y}, hook x y = true → hook y x = true
  trans : ∀ {name c hook}, t.get name = .ok c → c.equality = some hook →
    ∀ {x y z}, hook x y = true → hook y z = true → hook x z = true

lemma hook?_eq_some {typeName : String} {hook : Content α → Content α → Bool}
    (h : t.hook? typeName = some hook) :
    ∃ name c, t.get name = .ok c ∧ c.equality = some hook := by
  unfold hook? at h
  obtain ⟨name, -, h⟩ := Option.bind_eq_some_iff.mp h
  obtain ⟨c, hc, hhook⟩ := Option.bind_eq_some_iff.mp h
  exact ⟨name, c, get_eq_ok.mpr hc, hhook⟩

lemma alike_iff : t.alike o p = true ↔ o.same p = true ∨
    (o.typeName = p.typeName ∧
      ∃ hook, t.hook? o.typeName = some hook ∧ hook o.content p.content = true) := by
  have hequal : (t.equal? o p).getD false = true ↔ o.typeName = p.typeName ∧
      ∃ hook, t.hook? o.typeName = some hook ∧ hook o.content p.content = true := by
    unfold equal? hook? classOf?
    by_cases htype : o.typeName = p.typeName
    · rcases t.nameOf? o.typeName with _ | name
      · simp
      · rcases hc : t.byName.lookup name with _ | c
        · simp [hc]
        · rcases hh : c.equality with _ | hook <;> simp [hc, hh, htype]
    · simp [htype]
  rw [alike, Bool.or_eq_true, hequal]

lemma alike_self (o : Object α) : t.alike o o = true :=
  alike_iff.mpr (Or.inl o.same_self)

lemma alike_symm (ht : t.LawfulHooks) (h : t.alike o p = true) : t.alike p o = true := by
  rw [alike_iff] at h ⊢
  rcases h with hsame | ⟨htype, hook, hhook, h⟩
  · exact Or.inl (by rwa [Object.same_comm])
  · obtain ⟨name, c, hc, heq⟩ := hook?_eq_some hhook
    exact Or.inr ⟨htype.symm, hook, htype ▸ hhook, ht.symm hc heq h⟩

/-- Where the same objects hold the same, likeness can be passed on. -/
lemma alike_trans (ht : t.LawfulHooks) (hop : o.same p = true → o = p)
    (hpq : p.same q = true → p = q) (h : t.alike o p = true) (h' : t.alike p q = true) :
    t.alike o q = true := by
  have hleft := alike_iff.mp h
  have hright := alike_iff.mp h'
  rcases hleft with hsame | ⟨htype, hook, hhook, hcontent⟩
  · rwa [hop hsame]
  · rcases hright with hsame | ⟨htype', hook', hhook', hcontent'⟩
    · rwa [← hpq hsame]
    · obtain ⟨name, c, hc, heq⟩ := hook?_eq_some hhook
      -- objects of one type are compared by one hook
      rw [← htype, hhook] at hhook'
      cases hhook'
      exact alike_iff.mpr (Or.inr ⟨htype.trans htype', hook, hhook,
        ht.trans hc heq hcontent hcontent'⟩)

end Classes

/-! ### Operands -/

namespace Host

/-- The session can tell what the term stands for. -/
def Reads (h : Host α) (t : Term) : Prop := ∃ v, h.toResolved t = .ok v

lemma evaluate_eq (h : Host α) (id offset : UInt64) (x y : Term) :
    h.evaluate "Eq" ⟨id, offset, .list [x, y]⟩ = (do
      let v ← h.toResolved x
      let w ← h.toResolved y
      .ok (h.valuesEqual v w)) := by
  have hname : Operator.ofName? "Eq" = some .eq := by decide
  rw [evaluate, if_pos hname]
  rfl

lemma evaluate_eq_ok {h : Host α} {id offset : UInt64} {x y : Term} {b : Bool} :
    h.evaluate "Eq" ⟨id, offset, .list [x, y]⟩ = .ok b ↔
      ∃ v w, h.toResolved x = .ok v ∧ h.toResolved y = .ok w ∧ h.valuesEqual v w = b := by
  rw [evaluate_eq, Result.bind_eq_ok]
  constructor
  · rintro ⟨v, hv, hw⟩
    obtain ⟨w, hw, hb⟩ := Result.bind_eq_ok.mp hw
    exact ⟨v, w, hv, hw, Except.ok.inj hb⟩
  · rintro ⟨v, w, hv, hw, rfl⟩
    exact ⟨v, hv, Result.bind_eq_ok.mpr ⟨w, hw, rfl⟩⟩

/--
**Equality is an equivalence.** In a session in which the same objects hold the same, as they do
in every session (`Reachable.sound`), and the equality hooks of whose classes are symmetric and
transitive: a term that the session can read equals itself; two such terms are equal in the one
order exactly if they are in the other; and equality of terms can be passed on.
-/
theorem evaluate_eq_equivalence (h : Host α) (hcoherent : h.instances.Coherent)
    (hhooks : h.classes.LawfulHooks) (id offset : UInt64) :
    let equal := fun x y => h.evaluate "Eq" ⟨id, offset, .list [x, y]⟩
    (∀ x, h.Reads x → equal x x = .ok true) ∧
    (∀ x y, h.Reads x → h.Reads y → ∃ b, equal x y = .ok b ∧ equal y x = .ok b) ∧
    (∀ x y z, equal x y = .ok true → equal y z = .ok true → equal x z = .ok true) := by
  intro equal
  have hresolved : ∀ {t v}, h.toResolved t = .ok v →
      v.Resolved fun o => ∃ i, h.instances.object? i = some o :=
    fun hv => Codec.resolved_of_decodeResolved hv
  have hsymm : ∀ {x v w}, h.toResolved x = .ok v →
      h.valuesEqual v w = true → h.valuesEqual w v = true := fun hv =>
    Value.equivalent_symm (hresolved hv) fun _ _ => Classes.alike_symm hhooks
  refine ⟨fun x ⟨v, hv⟩ => ?_, fun x y ⟨v, hv⟩ ⟨w, hw⟩ => ?_, fun x y z hxy hyz => ?_⟩
  · refine evaluate_eq_ok.mpr ⟨v, v, hv, hv, ?_⟩
    exact Value.equivalent_refl (hresolved hv) fun o _ => Classes.alike_self o
  · refine ⟨h.valuesEqual v w, evaluate_eq_ok.mpr ⟨v, w, hv, hw, rfl⟩,
      evaluate_eq_ok.mpr ⟨w, v, hw, hv, ?_⟩⟩
    rw [Bool.eq_iff_iff]
    exact ⟨hsymm hw, hsymm hv⟩
  · obtain ⟨u, v, hu, hv, huv⟩ := evaluate_eq_ok.mp hxy
    obtain ⟨v', w, hv', hw, hvw⟩ := evaluate_eq_ok.mp hyz
    cases hv.symm.trans hv'
    refine evaluate_eq_ok.mpr ⟨u, w, hu, hw, ?_⟩
    refine Value.equivalent_trans (hresolved hu) (hresolved hv) (hresolved hw) ?_ huv hvw
    intro o p q ⟨i, hi⟩ ⟨j, hj⟩ ⟨k, hk⟩
    exact Classes.alike_trans hhooks (hcoherent i j o p hi hj) (hcoherent j k p q hj hk)

/-- A hook that compares whole numbers and finds zero different from everything. -/
def nonzeroEqual : Content Nat → Content Nat → Bool
  | .foreign _ _ m, .foreign _ _ n => m == n && m != 0
  | _, _ => false

/-- A class whose hook is not reflexive. -/
def countClass : Class Nat := ⟨"Count", some "Count", [], some nonzeroEqual⟩

/-- A session that holds three numbers. -/
def countHost : Host Nat :=
  [.cacheNew (.foreign "Count" "" 7), .cacheNew (.foreign "Count" "" 7),
    .cacheNew (.foreign "Count" "" 0)].foldl Call.after
      (withClasses {} (Step.left (Classes.register countClass) .empty))

lemma countHost_reachable : countHost.Reachable := by
  have hgiven : ∀ (h : Host Nat) n, (Call.cacheNew (.foreign "Count" "" n)).Admitted h :=
    fun _ _ => Call.admitted_of_gives_nothing fun _ => not_false
  have hstart := Reachable.start {} (.register countClass .empty)
  exact ((hstart.call (hgiven _ 7)).call (hgiven _ 7)).call (hgiven _ 0)

lemma countHost_lawfulHooks : countHost.classes.LawfulHooks := by
  have honly : ∀ {name c hook}, countHost.classes.get name = .ok c →
      c.equality = some hook → hook = nonzeroEqual := by
    intro name c hook hc hhook
    have hlookup := Classes.get_eq_ok.mp hc
    have htable : countHost.classes.byName = [("Count", countClass)] := rfl
    rw [htable, Table.lookup_cons] at hlookup
    split at hlookup
    · cases hlookup; cases hhook; rfl
    · cases hlookup
  refine ⟨fun hc hhook => ?_, fun hc hhook => ?_⟩
  · obtain rfl := honly hc hhook
    intro x y h
    cases x <;> cases y <;> simp_all [nonzeroEqual]
    omega
  · obtain rfl := honly hc hhook
    intro x y z h h'
    cases x <;> cases y <;> cases z <;> simp_all [nonzeroEqual]

/-- Two of the numbers are equal, and the third equals itself, which the hook denies. -/
theorem evaluate_eq_equivalence_counts :
    let handle := fun id : UInt64 => Term.ofHost (.external ⟨id, none, none, none, none⟩)
    let equal := fun x y => countHost.evaluate "Eq" ⟨0, 0, .list [x, y]⟩
    countHost.instances.Coherent ∧ countHost.classes.LawfulHooks ∧
    equal (handle 1) (handle 2) = .ok true ∧ equal (handle 2) (handle 1) = .ok true ∧
    nonzeroEqual (.foreign "Count" "" 0) (.foreign "Count" "" 0) = false ∧
    equal (handle 3) (handle 3) = .ok true := by
  intro handle equal
  have hcoherent := countHost_reachable.sound.table.coherent
  have hlaws := evaluate_eq_equivalence countHost hcoherent countHost_lawfulHooks 0 0
  have hequal : equal (handle 1) (handle 2) = .ok true := rfl
  obtain ⟨b, hb, hb'⟩ := hlaws.2.1 (handle 1) (handle 2)
    ⟨.object ⟨1, .foreign "Count" "" 7⟩, rfl⟩ ⟨.object ⟨2, .foreign "Count" "" 7⟩, rfl⟩
  have htrue : b = true := Except.ok.inj (hb.symm.trans hequal)
  subst htrue
  exact ⟨hcoherent, countHost_lawfulHooks, hequal, hb', rfl,
    hlaws.1 (handle 3) ⟨.object ⟨3, .foreign "Count" "" 0⟩, rfl⟩⟩

end Host

end HostBridge
