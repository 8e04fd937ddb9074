import HostBridge.Proofs.Step

/-!
What a computation does, apart from its answer.

A traversal goes from item to item and stops where one of them fails. Once the answers are
forgotten, nothing of the tree is left but the things met on the way: the traversal is a plain
loop over them.
-/

namespace HostBridge

variable {m : Type → Type} [Monad m] {β γ δ κ : Type}

/-- A computation whose answer is forgotten. -/
def silent (x : m β) : m Unit := (fun _ => ()) <$> x

section Lawful

variable [LawfulMonad m]

@[simp] lemma silent_pure (b : β) : silent (pure b : m β) = pure () := map_pure _ b

lemma silent_map (f : β → γ) (x : m β) : silent (f <$> x) = silent x := by
  rw [silent, silent, Functor.map_map]

lemma silent_bind (x : m β) (f : β → m γ) : silent (x >>= f) = x >>= fun b => silent (f b) := by
  simp only [silent, map_bind]

/-- The last part of a computation only changes its answer. -/
lemma silent_bind_pure (x : m β) (f : β → γ) : silent (x >>= fun b => pure (f b)) = silent x := by
  rw [bind_pure_comp, silent_map]

/-- Two computations in a row, of which the second does not look at the first one's answer. -/
lemma silent_bind_bind_pure (x : m β) (y : m γ) (f : β → γ → δ) :
    silent (x >>= fun b => y >>= fun c => pure (f b c)) = silent x >>= fun _ => silent y := by
  have hsecond : ∀ b, silent (y >>= fun c => pure (f b c)) = silent y := fun b =>
    silent_bind_pure y (f b)
  rw [silent_bind, funext hsecond]
  simp only [silent, bind_map_left]

lemma silent_onValue (f : β → m γ) (e : κ × β) : silent (onValue f e) = silent (f e.2) :=
  silent_map _ _

/-- A traversal meets what its items meet, one after another. -/
lemma silent_mapM {f : β → m γ} {met : β → List δ} {visit : δ → m Unit} {xs : List β}
    (h : ∀ x ∈ xs, silent (f x) = forM (met x) visit) :
    silent (xs.mapM f) = forM (xs.flatMap met) visit := by
  induction xs with
  | nil => rw [List.mapM_nil, silent_pure]; rfl
  | cons x rest ih =>
    have hx := h x List.mem_cons_self
    have hrest := ih fun x' hx' => h x' (List.mem_cons_of_mem _ hx')
    rw [List.mapM_cons, silent_bind_bind_pure, hx, hrest, List.flatMap_cons, List.forM_append]

/-- A traversal is a loop over its items. -/
lemma silent_mapM_self (f : β → m γ) (xs : List β) :
    silent (xs.mapM f) = forM xs fun x => silent (f x) := by
  have hitems : ∀ x ∈ xs, silent (f x) = forM [x] fun x => silent (f x) := fun x _ =>
    (bind_pure (silent (f x))).symm
  rw [silent_mapM hitems, List.flatMap_singleton']

end Lawful

/-! ### Results -/

namespace Result

variable {ε : Type}

lemma silent_eq_ok {x : Except ε β} : silent x = .ok () ↔ ∃ b, x = .ok b := by
  cases x <;> simp [silent, Functor.map, Except.map]

lemma silent_eq_error {x : Except ε β} {e : ε} : silent x = .error e ↔ x = .error e := by
  cases x <;> simp [silent, Functor.map, Except.map]

/-- A loop stops at the first item that does not pass. -/
lemma forM_eq_find? {f : β → Except ε Unit} {passes : β → Bool} {failure : β → ε}
    (h : ∀ x, f x = if passes x then .ok () else .error (failure x)) (xs : List β) :
    forM xs f =
      (xs.find? fun x => !passes x).elim (.ok ()) fun x => .error (failure x) := by
  induction xs with
  | nil => rfl
  | cons x rest ih =>
    rw [List.forM_cons, h, List.find?_cons]
    cases passes x with
    | false => rfl
    | true => exact ih

end Result

/-! ### Steps -/

namespace Step

variable {ε σ : Type} {x : EStateM ε σ β} {s s' : σ}

lemma silent_eq_ok : silent x s = .ok () s' ↔ ∃ b, x s = .ok b s' := by
  rw [silent, map_eq_pure_bind, bind_pure_eq_ok]
  simp

lemma silent_eq_error {e : ε} : silent x s = .error e s' ↔ x s = .error e s' := by
  simp only [silent, Functor.map, EStateM.map]
  rcases x s with ⟨b, s₁⟩ | ⟨e', s₁⟩ <;> simp

end Step

end HostBridge
