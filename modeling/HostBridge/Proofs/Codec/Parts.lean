import HostBridge.Proofs.Codec.Resolution
import HostBridge.Proofs.Term.Induction
import HostBridge.Proofs.Value.Equivalence

/-!
Where the parts of what a term is read as come from.

Decoding keeps the tree of the term: a part of its value is itself the value of a term. So there is
no object in the value, and those that are there once it is resolved are objects of the table. Nor
is there an expression where none are accepted, and resolving, which keeps the tree, brings none in.
-/

namespace HostBridge

variable {α : Type}

namespace Codec

/-! ### Decoding -/

section Decode

variable {acceptExpression : Bool}

/-- The value is what some term decodes to. -/
def Decoded (acceptExpression : Bool) (v : Value α) : Prop :=
  ∃ t, decodeTerm acceptExpression t = .ok v

variable (acceptExpression) in
/-- Every part of the value of the term is itself decoded. -/
def DecodesParts (α : Type) (t : Term) : Prop :=
  ∀ v : Value α, decodeTerm acceptExpression t = .ok v → ∀ p ∈ v.parts, Decoded acceptExpression p

lemma decoded_listParts {ts : List Term} {vs : List (Value α)}
    (ih : ∀ t ∈ ts, DecodesParts acceptExpression α t)
    (h : decodeList acceptExpression ts = .ok vs) {p : Value α} (hp : p ∈ Value.listParts vs) :
    Decoded acceptExpression p := by
  obtain ⟨v, hv, hp⟩ := Value.mem_listParts.mp hp
  rw [decodeList_eq_mapM, Result.mapM_eq_ok] at h
  obtain ⟨t, ht, htv⟩ := forall₂_exists_left h hv
  exact ih t ht v htv p hp

lemma decoded_fieldsParts {ts : List (String × Term)} {vs : List (String × Value α)}
    (ih : ∀ e ∈ ts, DecodesParts acceptExpression α e.2)
    (h : decodeFields acceptExpression ts = .ok vs) {p : Value α}
    (hp : p ∈ Value.fieldsParts vs) : Decoded acceptExpression p := by
  obtain ⟨f, hf, hp⟩ := Value.mem_fieldsParts.mp hp
  rw [decodeFields_eq_mapM, Result.mapM_eq_ok] at h
  obtain ⟨e, he, hef⟩ := forall₂_exists_left h hf
  exact ih e he f.2 (Result.onValue_eq_ok.mp hef).2 p hp

lemma decoded_kwargsParts {ts : Option (List (String × Term))}
    {vs : Option (List (String × Value α))}
    (ih : ∀ fields ∈ ts, ∀ e ∈ fields, DecodesParts acceptExpression α e.2)
    (h : decodeKwargs acceptExpression ts = .ok vs) {p : Value α}
    (hp : p ∈ Value.kwargsParts vs) : Decoded acceptExpression p := by
  cases ts with
  | none => cases h; cases hp
  | some fields =>
    obtain ⟨fvs, hfvs, rfl⟩ := Result.map_eq_ok.mp h
    exact decoded_fieldsParts (ih fields rfl) hfvs hp

/-- The parts of a value are the value itself and what is inside it. -/
lemma decoded_of_inside {v p : Value α} {inner : List (Value α)} (hv : v.parts = v :: inner)
    (hroot : Decoded acceptExpression v) (hinside : p ∈ inner → Decoded acceptExpression p)
    (hp : p ∈ v.parts) : Decoded acceptExpression p := by
  rw [hv] at hp
  rcases List.mem_cons.mp hp with rfl | hp
  · exact hroot
  · exact hinside hp

lemma decodesParts (t : Term) : DecodesParts acceptExpression α t := by
  induction t with
  | string | boolean | external | var =>
    intro v h p hp
    refine decoded_of_inside ?_ ⟨_, h⟩ (fun hp => (List.not_mem_nil hp).elim) hp
    cases h; rfl
  | number id offset n =>
    intro v h p hp
    refine decoded_of_inside ?_ ⟨_, h⟩ (fun hp => (List.not_mem_nil hp).elim) hp
    cases n <;> cases h <;> rfl
  | list id offset items ih =>
    intro v h p hp
    obtain ⟨vs, hvs, rfl⟩ := Result.map_eq_ok.mp h
    exact decoded_of_inside rfl ⟨_, h⟩ (decoded_listParts ih hvs) hp
  | dictionary id offset fields ih =>
    intro v h p hp
    obtain ⟨vs, hvs, rfl⟩ := Result.map_eq_ok.mp h
    exact decoded_of_inside rfl ⟨_, h⟩ (decoded_fieldsParts ih hvs) hp
  | call id offset name args kwargs hargs hkwargs =>
    intro v h p hp
    obtain ⟨vs, hvs, h'⟩ := Result.bind_eq_ok.mp h
    obtain ⟨kvs, hkvs, h'⟩ := Result.bind_eq_ok.mp h'
    cases h'
    refine decoded_of_inside rfl ⟨_, h⟩ (fun hp => ?_) hp
    rcases List.mem_append.mp hp with hp | hp
    · exact decoded_listParts hargs hvs hp
    · exact decoded_kwargsParts hkwargs hkvs hp
  | expression id offset operator args ih =>
    intro v h p hp
    have hroot : Decoded acceptExpression v := ⟨_, h⟩
    rw [decodeTerm] at h
    split at h
    · obtain ⟨vs, hvs, rfl⟩ := Result.map_eq_ok.mp h
      exact decoded_of_inside rfl hroot (decoded_listParts ih hvs) hp
    · cases h
  | pattern id offset tag fields ih =>
    intro v h p hp
    obtain ⟨vs, hvs, rfl⟩ := Result.map_eq_ok.mp h
    exact decoded_of_inside rfl ⟨_, h⟩ (decoded_fieldsParts ih hvs) hp

/-- The values whose root a term can say: the engine refers to objects, and has no maps. -/
def sayable (acceptExpression : Bool) : Value α → Bool
  | .nil | .map _ | .object _ => false
  | .expression .. => acceptExpression
  | _ => true

lemma Decoded.sayable {v : Value α} (h : Decoded acceptExpression v) :
    sayable acceptExpression v = true := by
  obtain ⟨t, h⟩ := h
  cases t using Term.induction with
  | string | boolean | external | var => cases h; rfl
  | number id offset n => cases n <;> cases h <;> rfl
  | list | dictionary | pattern => obtain ⟨vs, -, rfl⟩ := Result.map_eq_ok.mp h; rfl
  | call =>
    obtain ⟨vs, -, h⟩ := Result.bind_eq_ok.mp h
    obtain ⟨kvs, -, h⟩ := Result.bind_eq_ok.mp h
    cases h; rfl
  | expression =>
    rw [decodeTerm] at h
    split at h
    · rename_i haccept
      obtain ⟨vs, -, rfl⟩ := Result.map_eq_ok.mp h
      exact haccept
    · cases h

end Decode

/-! ### Reading a term -/

/-- What a term is read as holds no reference, and no object but those of the table. -/
theorem resolved_of_decodeResolved {c : Codec α} {instances : Instances α} {t : Term}
    {w : Value α} (h : c.decodeResolved instances t = .ok w) :
    w.Resolved fun o => ∃ i, instances.object? i = some o := by
  obtain ⟨v, hv, hw⟩ := c.decodeResolved_eq_ok.mp h
  refine ⟨not_reference_of_resolveValue hw, fun o hp => ?_⟩
  have hleaf : .object o ∈ w.leaves := Value.mem_leaves.mpr ⟨hp, rfl⟩
  obtain ⟨u, hu, hstands⟩ := forall₂_exists_left (resolveValue_eq_ok_iff_leafwise.mp hw).2 hleaf
  rcases hstands.object with rfl | ⟨i, hi⟩
  · exact absurd (decodesParts t v hv _ (Value.mem_leaves.mp hu).1).sayable Bool.false_ne_true
  · exact ⟨i, hi⟩

end Codec

/-! ### Expressions -/

namespace Value

/-- There is an expression in the value, at whatever depth. -/
def HasExpression (v : Value α) : Prop := ∃ operator args, .expression operator args ∈ v.parts

/-- Expressions are part of the tree. -/
lemma HasExpression.of_shape_eq {v w : Value α} (hshape : v.shape = w.shape)
    (hw : w.HasExpression) : v.HasExpression := by
  obtain ⟨operator, args, hmem⟩ := hw
  have htree : (expression operator args).shape ∈ v.parts.map shape := by
    rw [← parts_shape, hshape, parts_shape]
    exact List.mem_map_of_mem hmem
  obtain ⟨p, hp, hpshape⟩ := List.mem_map.mp htree
  cases p with
  | expression operator' args' => exact ⟨operator', args', hp⟩
  | _ => cases hpshape

end Value

namespace Codec

lemma not_hasExpression_of_decodeTerm {t : Term} {v : Value α}
    (h : decodeTerm false t = .ok v) : ¬ v.HasExpression := by
  rintro ⟨operator, args, hmem⟩
  exact absurd (decodesParts t v h _ hmem).sayable Bool.false_ne_true

/-- Nor does resolving bring an expression in. -/
lemma not_hasExpression_of_decodeResolved {c : Codec α} (hc : c.acceptExpression = false)
    {instances : Instances α} {t : Term} {w : Value α}
    (h : c.decodeResolved instances t = .ok w) : ¬ w.HasExpression := by
  obtain ⟨v, hv, hw⟩ := c.decodeResolved_eq_ok.mp h
  rw [hc] at hv
  intro hexpression
  exact not_hasExpression_of_decodeTerm hv
    (hexpression.of_shape_eq (resolveValue_eq_ok_iff_leafwise.mp hw).1)

end Codec

end HostBridge
