import HostBridge.Proofs.Codec.Traversal
import HostBridge.Proofs.Silent
import HostBridge.Proofs.Term.Induction
import HostBridge.Proofs.Value.Places

/-!
What decoding refuses.

Decoding fails for one reason only: it has met an expression, and expressions are not accepted. It
meets all that stands in the term at whatever depth, and not what a handle says of its
constructor. So it reads every term where expressions are accepted, and every term without one.
-/

namespace HostBridge

/-! ### Expressions in a term -/

namespace Term

/-- The terms one level down. What a handle says of its constructor is not among them. -/
def inside (t : Term) : List Term := t.items ++ t.entries.map (·.2)

/-- Induction one level at a time, where the kind of the term does not matter. -/
lemma induction_inside {motive : Term → Prop}
    (h : ∀ t, (∀ u ∈ t.inside, motive u) → motive t) (t : Term) : motive t := by
  have hentries : ∀ fields : Fields Term, (∀ e ∈ fields, motive e.2) →
      ∀ u ∈ fields.map (·.2), motive u := by
    intro fields hfields u hu
    obtain ⟨e, he, rfl⟩ := List.mem_map.mp hu
    exact hfields e he
  induction t with
  | string | boolean | number | external | var => exact h _ fun u hu => nomatch hu
  | list id offset items ih | expression id offset operator items ih =>
    exact h _ fun u hu => ih u (by simpa [inside, Term.items, Term.entries] using hu)
  | dictionary id offset fields ih | pattern id offset tag fields ih =>
    exact h _ (hentries fields ih)
  | call id offset name args kwargs hargs hkwargs =>
    refine h _ fun u hu => ?_
    rcases List.mem_append.mp hu with hu | hu
    · exact hargs u hu
    · rcases kwargs with _ | fields
      · cases hu
      · exact hentries fields (hkwargs fields rfl) u hu

def isExpression (t : Term) : Bool :=
  match t.value with
  | .expression .. => true
  | _ => false

/-- There is an expression in the term, at whatever depth. -/
inductive HasExpression : Term → Prop
  | here {t : Term} (ht : t.isExpression = true) : HasExpression t
  | inside {t u : Term} (hu : u ∈ t.inside) (h : HasExpression u) : HasExpression t

lemma hasExpression_iff {t : Term} :
    t.HasExpression ↔ t.isExpression = true ∨ ∃ u ∈ t.inside, u.HasExpression := by
  constructor
  · rintro (ht | ⟨hu, h⟩)
    · exact Or.inl ht
    · exact Or.inr ⟨_, hu, h⟩
  · rintro (ht | ⟨u, hu, h⟩)
    · exact .here ht
    · exact .inside hu h

end Term

/-! ### Loops that fail -/

namespace Result

variable {ε β : Type}

/-- A loop whose items fail in one way only fails in this way, if any item does. -/
lemma forM_eq_error_iff {f : β → Except ε Unit} {xs : List β} {failure : ε}
    (h : ∀ x ∈ xs, ∀ e, f x = .error e → e = failure) {e : ε} :
    forM xs f = .error e ↔ (∃ x ∈ xs, f x = .error failure) ∧ e = failure := by
  induction xs with
  | nil => simp [pure, Except.pure]
  | cons x rest ih =>
    have hrest := ih fun x' hx' => h x' (List.mem_cons_of_mem _ hx')
    rw [List.forM_cons, bind_eq_error, hrest, List.exists_mem_cons_iff]
    rcases hx : f x with e' | b
    · obtain rfl := h x List.mem_cons_self e' hx
      simp [eq_comm]
    · simp

end Result

/-! ### Where decoding stops -/

namespace Codec

variable {α : Type} {acceptExpression : Bool} {e : TermError}

variable (α) (acceptExpression) in
/-- To decode a term, for the sake of a failure only. -/
def readThrough (t : Term) : Except TermError Unit :=
  silent (decodeTerm (α := α) acceptExpression t)

lemma silent_decodeList (items : List Term) :
    silent (decodeList (α := α) acceptExpression items) =
      forM items (readThrough α acceptExpression) := by
  rw [decodeList_eq_mapM]
  exact silent_mapM_self _ items

lemma silent_decodeFields (fields : List (String × Term)) :
    silent (decodeFields (α := α) acceptExpression fields) =
      forM (fields.map (·.2)) (readThrough α acceptExpression) := by
  rw [decodeFields_eq_mapM, List.forM_map, silent_mapM_self]
  exact congrArg (forM fields) (funext fun e => silent_onValue _ e)

lemma silent_decodeKwargs (kwargs : Option (List (String × Term))) :
    silent (decodeKwargs (α := α) acceptExpression kwargs) =
      forM ((kwargs.getD []).map (·.2)) (readThrough α acceptExpression) := by
  rcases kwargs with _ | fields
  · rfl
  · exact (silent_map some _).trans (silent_decodeFields fields)

/-- But for its answer, decoding goes through the terms one level down, unless it stops at once. -/
lemma readThrough_eq (t : Term) :
    readThrough α acceptExpression t =
      if t.isExpression = true ∧ acceptExpression = false then .error .expressionNotAllowed
      else forM t.inside (readThrough α acceptExpression) := by
  obtain ⟨id, offset, payload⟩ := t
  cases payload with
  | string | boolean | external | var => rfl
  | number n => cases n <;> rfl
  | list items =>
    rw [Term.inside, List.forM_append, ← silent_decodeList]
    exact (silent_map _ _).trans (bind_pure _).symm
  | dictionary fields | pattern tag fields =>
    exact (silent_map _ _).trans (silent_decodeFields fields)
  | call name args kwargs =>
    rw [Term.inside, List.forM_append]
    exact (silent_bind_bind_pure _ _ _).trans
      (congrArg₂ _ (silent_decodeList args) (funext fun _ => silent_decodeKwargs kwargs))
  | expression operator args =>
    cases acceptExpression with
    | false => rfl
    | true =>
      rw [Term.inside, List.forM_append]
      exact (silent_map _ _).trans ((silent_decodeList args).trans (bind_pure _).symm)

/--
**Nothing but an expression is refused**: decoding fails if expressions are not accepted and there
is one in the term, and this is what it says.
-/
lemma decodeTerm_eq_error_iff {t : Term} :
    decodeTerm (α := α) acceptExpression t = .error e ↔
      (acceptExpression = false ∧ t.HasExpression) ∧ e = .expressionNotAllowed := by
  rw [← Result.silent_eq_error]
  change readThrough α acceptExpression t = .error e ↔ _
  induction t using Term.induction_inside generalizing e with
  | h t ih =>
    rw [readThrough_eq, Term.hasExpression_iff]
    split
    · rename_i hstop
      simp [hstop, eq_comm]
    · rename_i hgo
      rw [Result.forM_eq_error_iff fun u hu e he => ((ih u hu).mp he).2]
      refine and_congr_left fun _ => ?_
      constructor
      · rintro ⟨u, hu, hfail⟩
        obtain ⟨⟨haccept, hexpression⟩, -⟩ := (ih u hu).mp hfail
        exact ⟨haccept, Or.inr ⟨u, hu, hexpression⟩⟩
      · rintro ⟨haccept, hexpression | ⟨u, hu, hexpression⟩⟩
        · exact absurd ⟨hexpression, haccept⟩ hgo
        · exact ⟨u, hu, (ih u hu).mpr ⟨⟨haccept, hexpression⟩, rfl⟩⟩

lemma decode_eq_error_iff {c : Codec α} {t : Term} {e : Error} :
    c.decode t = .error e ↔
      (c.acceptExpression = false ∧ t.HasExpression) ∧ e = .term .expressionNotAllowed := by
  simp only [decode, Result.mapError_eq_error, decodeTerm_eq_error_iff]
  constructor
  · rintro ⟨_, ⟨hgate, rfl⟩, rfl⟩; exact ⟨hgate, rfl⟩
  · rintro ⟨hgate, rfl⟩; exact ⟨_, ⟨hgate, rfl⟩, rfl⟩

end Codec

end HostBridge
