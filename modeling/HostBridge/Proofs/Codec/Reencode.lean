import HostBridge.Proofs.Codec.Traversal
import HostBridge.Proofs.Term.Bare
import HostBridge.Proofs.Term.Induction

/-!
What becomes of a term that is decoded and encoded again.

Decoding leaves references as they stand, so that what it yields holds no object and no absent
value, nor a table with any keys. Encoding it asks nothing of the table of instances and cannot
fail, and the term comes back without its provenance.
-/

namespace HostBridge.Codec

variable {α : Type} {c : Codec α}

variable (c) in
/-- Whatever the term decodes to is encoded as the bare term, and the table stays as it is. -/
def Reencodes (t : Term) : Prop :=
  ∀ v, decodeTerm c.acceptExpression t = .ok v → ∀ s, c.encode v s = .ok t.bare s

/-! ### Lists and tables of terms -/

lemma encodeList_of_reencodes {ts : List Term} {vs : List (Value α)}
    (ih : ∀ t ∈ ts, c.Reencodes t) (h : decodeList c.acceptExpression ts = .ok vs)
    (s : Instances α) : encodeList c vs s = .ok (Term.bareList ts) s := by
  rw [decodeList_eq_mapM, Result.mapM_eq_ok] at h
  rw [encodeList_eq_mapM, Term.bareList_eq_map]
  refine Step.mapM_eq_ok_of_stays ?_
  rw [List.forall₂_map_right_iff]
  exact (forall₂_imp_left (fun t ht v htv => ih t ht v htv s) h).flip

lemma encodeFields_of_reencodes {ts : List (String × Term)} {vs : List (String × Value α)}
    (ih : ∀ e ∈ ts, c.Reencodes e.2) (h : decodeFields c.acceptExpression ts = .ok vs)
    (s : Instances α) : encodeFields c vs s = .ok (Term.bareFields ts) s := by
  rw [decodeFields_eq_mapM, Result.mapM_eq_ok] at h
  rw [encodeFields_eq_mapM, Term.bareFields_eq_map]
  refine Step.mapM_eq_ok_of_stays ?_
  rw [List.forall₂_map_right_iff]
  refine (forall₂_imp_left (fun e he f hef => ?_) h).flip
  obtain ⟨hkey, hvalue⟩ := Result.onValue_eq_ok.mp hef
  exact Step.onValue_eq_ok.mpr ⟨hkey.symm, ih e he f.2 hvalue s⟩

lemma encodeKwargs_of_reencodes {ts : Option (List (String × Term))}
    {vs : Option (List (String × Value α))} (ih : ∀ fields ∈ ts, ∀ e ∈ fields, c.Reencodes e.2)
    (h : decodeKwargs c.acceptExpression ts = .ok vs) (s : Instances α) :
    encodeKwargs c vs s = .ok (Term.bareKwargs ts) s := by
  rcases ts with _ | fields
  · cases h; rfl
  · obtain ⟨fvs, hfvs, rfl⟩ := Result.map_eq_ok.mp h
    exact Step.bind_pure_eq_ok.mpr ⟨_, encodeFields_of_reencodes (ih fields rfl) hfvs s, rfl⟩

/-! ### Terms -/

lemma reencodes (t : Term) : c.Reencodes t := by
  induction t with
  | string | boolean | external | var => intro v h s; cases h; rfl
  | number id offset n => intro v h s; cases n <;> cases h <;> rfl
  | list id offset items ih =>
    intro v h s
    obtain ⟨vs, hvs, rfl⟩ := Result.map_eq_ok.mp h
    exact Step.bind_pure_eq_ok.mpr ⟨_, encodeList_of_reencodes ih hvs s, rfl⟩
  | dictionary id offset fields ih =>
    intro v h s
    obtain ⟨vs, hvs, rfl⟩ := Result.map_eq_ok.mp h
    exact Step.bind_pure_eq_ok.mpr ⟨_, encodeFields_of_reencodes ih hvs s, rfl⟩
  | call id offset name args kwargs hargs hkwargs =>
    intro v h s
    obtain ⟨vs, hvs, h⟩ := Result.bind_eq_ok.mp h
    obtain ⟨kvs, hkvs, h⟩ := Result.bind_eq_ok.mp h
    cases h
    refine Step.bind_eq_ok.mpr ⟨_, s, encodeList_of_reencodes hargs hvs s, ?_⟩
    exact Step.bind_pure_eq_ok.mpr ⟨_, encodeKwargs_of_reencodes hkwargs hkvs s, rfl⟩
  | expression id offset operator args ih =>
    intro v h s
    rw [decodeTerm] at h
    -- an expression that was decoded was allowed, and none is refused on the way back
    rcases haccept : c.acceptExpression with _ | _
    · simp only [haccept] at h; cases h
    · rw [if_pos haccept] at h
      obtain ⟨vs, hvs, rfl⟩ := Result.map_eq_ok.mp h
      exact Step.bind_pure_eq_ok.mpr ⟨_, encodeList_of_reencodes ih hvs s, rfl⟩
  | pattern id offset tag fields ih =>
    intro v h s
    obtain ⟨vs, hvs, rfl⟩ := Result.map_eq_ok.mp h
    exact Step.bind_pure_eq_ok.mpr ⟨_, encodeFields_of_reencodes ih hvs s, rfl⟩

/--
**Re-encoding.** Let a term be decoded, with whatever classes and settings. The value is encoded
at every table of instances, which is left as it was, and the answer is the term without its
provenance, the handles in it unchanged.
-/
theorem encode_decode {t : Term} {v : Value α} (h : c.decode t = .ok v) (s : Instances α) :
    c.encode v s = .ok t.bare s :=
  reencodes t v (Result.mapError_eq_ok.mp h) s

/-- A numbered list with a handle whose object was made by a numbered call. -/
theorem encode_decode_numbered :
    let c : Codec Unit := ⟨.empty, ⟨0, .nil⟩, false, true⟩
    let made : Term := ⟨5, 6, .call "Post" [⟨7, 8, .var "x"⟩] none⟩
    let handle : Handle Term := ⟨9, some made, none, some "Post", none⟩
    let t : Term := ⟨1, 2, .list [⟨3, 4, .external handle⟩, ⟨10, 11, .pattern none []⟩]⟩
    c.decode t = .ok (.list [.reference handle, .pattern none []]) ∧
    ∀ s, c.encode (.list [.reference handle, .pattern none []]) s =
      .ok ⟨0, 0, .list [⟨0, 0, .external handle⟩, ⟨0, 0, .pattern none []⟩]⟩ s := by
  intro c made handle t
  exact ⟨rfl, fun s => encode_decode (t := t) rfl s⟩

end HostBridge.Codec
