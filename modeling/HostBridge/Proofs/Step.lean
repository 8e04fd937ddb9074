import HostBridge.Proofs.Forall2
import HostBridge.Step
import Mathlib.Logic.Relation

/-!
Results and steps taken apart.

A sequence succeeds when each of its parts does, and a traversal of a list when it succeeds at
every item. A step also leaves a state, and moves there from the state it started in.
-/

namespace HostBridge

variable {ε σ β γ κ : Type}

/-- An effect on the value of an entry, which keeps its key. -/
def onValue {m : Type → Type} [Functor m] (f : β → m γ) (entry : κ × β) : m (κ × γ) :=
  (fun c => (entry.1, c)) <$> f entry.2

/-! ### Results -/

namespace Result

lemma bind_eq_ok {x : Except ε β} {f : β → Except ε γ} {c : γ} :
    (x >>= f) = .ok c ↔ ∃ b, x = .ok b ∧ f b = .ok c := by
  cases x <;> simp [bind, Except.bind]

lemma bind_eq_error {x : Except ε β} {f : β → Except ε γ} {e : ε} :
    (x >>= f) = .error e ↔ x = .error e ∨ ∃ b, x = .ok b ∧ f b = .error e := by
  cases x <;> simp [bind, Except.bind]

lemma mapError_eq_ok {ε' : Type} {x : Except ε β} {f : ε → ε'} {b : β} :
    x.mapError f = .ok b ↔ x = .ok b := by
  cases x <;> simp [Except.mapError]

lemma mapError_eq_error {ε' : Type} {x : Except ε β} {f : ε → ε'} {e : ε'} :
    x.mapError f = .error e ↔ ∃ e', x = .error e' ∧ f e' = e := by
  cases x <;> simp [Except.mapError]

lemma map_eq_ok {x : Except ε β} {f : β → γ} {c : γ} :
    x.map f = .ok c ↔ ∃ b, x = .ok b ∧ f b = c := by
  cases x <;> simp [Except.map]

lemma onValue_eq_ok {f : β → Except ε γ} {e : κ × β} {e' : κ × γ} :
    onValue f e = .ok e' ↔ e.1 = e'.1 ∧ f e.2 = .ok e'.2 := by
  obtain ⟨key, b⟩ := e
  obtain ⟨key', c⟩ := e'
  rw [onValue]
  rcases f b with _ | c' <;> simp [Functor.map, Except.map]

/-- A traversal succeeds with the results of its items. -/
lemma mapM_eq_ok {f : β → Except ε γ} {xs : List β} {ys : List γ} :
    xs.mapM f = .ok ys ↔ List.Forall₂ (fun x y => f x = .ok y) xs ys := by
  induction xs generalizing ys with
  | nil => simp [pure, Except.pure, eq_comm]
  | cons x rest ih =>
    rw [List.mapM_cons, bind_eq_ok, List.forall₂_cons_left_iff]
    constructor
    · rintro ⟨y, hy, h⟩
      obtain ⟨ys', hys, he⟩ := bind_eq_ok.mp h
      cases he
      exact ⟨y, ys', hy, ih.mp hys, rfl⟩
    · rintro ⟨y, ys', hy, hys, rfl⟩
      exact ⟨y, hy, bind_eq_ok.mpr ⟨ys', ih.mpr hys, rfl⟩⟩

/-- A traversal stops at the first item that fails. -/
lemma mapM_eq_error {f : β → Except ε γ} {xs : List β} {e : ε} :
    xs.mapM f = .error e ↔ ∃ front x back ys, xs = front ++ x :: back ∧
      List.Forall₂ (fun x y => f x = .ok y) front ys ∧ f x = .error e := by
  induction xs with
  | nil => simp [pure, Except.pure]
  | cons x rest ih =>
    rw [List.mapM_cons, bind_eq_error]
    constructor
    · rintro (he | ⟨y, hy, h⟩)
      · exact ⟨[], x, rest, [], rfl, .nil, he⟩
      · rcases bind_eq_error.mp h with hrest | ⟨ys, -, hpure⟩
        · obtain ⟨front, x', back, ys, rfl, hfront, he⟩ := ih.mp hrest
          exact ⟨x :: front, x', back, y :: ys, rfl, .cons hy hfront, he⟩
        · cases hpure
    · rintro ⟨front, x', back, ys, hsplit, hfront, he⟩
      cases hfront with
      | nil =>
        cases hsplit
        exact Or.inl he
      | @cons _ y front ys hy hfront =>
        cases hsplit
        have hrest := ih.mpr ⟨front, x', back, ys, rfl, hfront, he⟩
        exact Or.inr ⟨y, hy, bind_eq_error.mpr (Or.inl hrest)⟩

/-- A traversal whose items answer as a relation says. -/
lemma mapM_eq_ok_of {f : β → Except ε γ} {R : β → γ → Prop} {xs : List β} {ys : List γ}
    (h : ∀ x ∈ xs, ∀ y, f x = .ok y ↔ R x y) : xs.mapM f = .ok ys ↔ List.Forall₂ R xs ys := by
  rw [mapM_eq_ok]
  exact forall₂_congr_left h

end Result

/-! ### Steps -/

namespace Step

/-- The state that a step leaves, whether it succeeds or fails. -/
def left (step : EStateM ε σ β) (s : σ) : σ :=
  match step s with
  | .ok _ s' => s'
  | .error _ s' => s'

lemma left_of_ok {step : EStateM ε σ β} {s s' : σ} {b : β} (h : step s = .ok b s') :
    left step s = s' := by
  rw [left, h]

lemma left_of_error {step : EStateM ε σ β} {s s' : σ} {e : ε} (h : step s = .error e s') :
    left step s = s' := by
  rw [left, h]

lemma pure_eq_ok {b c : β} {s s' : σ} :
    (pure b : EStateM ε σ β) s = .ok c s' ↔ b = c ∧ s = s' := by
  constructor
  · intro h; cases h; exact ⟨rfl, rfl⟩
  · rintro ⟨rfl, rfl⟩; rfl

lemma bind_eq_ok {x : EStateM ε σ β} {f : β → EStateM ε σ γ} {s s' : σ} {c : γ} :
    (x >>= f) s = .ok c s' ↔ ∃ b s₁, x s = .ok b s₁ ∧ f b s₁ = .ok c s' := by
  simp only [bind, EStateM.bind]
  rcases hx : x s with ⟨b, s₁⟩ | ⟨e, s₁⟩
  · constructor
    · intro h; exact ⟨b, s₁, rfl, h⟩
    · rintro ⟨b', s₁', he, h⟩; cases he; exact h
  · simp

lemma bind_of_ok {x : EStateM ε σ β} {f : β → EStateM ε σ γ} {s s₁ : σ} {b : β}
    (h : x s = .ok b s₁) : (x >>= f) s = f b s₁ := by
  simp only [bind, EStateM.bind, h]

lemma bind_of_error {x : EStateM ε σ β} {f : β → EStateM ε σ γ} {s s₁ : σ} {e : ε}
    (h : x s = .error e s₁) : (x >>= f) s = .error e s₁ := by
  simp only [bind, EStateM.bind, h]

/-- The last part of a step only changes its answer. -/
lemma bind_pure_eq_ok {x : EStateM ε σ β} {f : β → γ} {s s' : σ} {c : γ} :
    (x >>= fun b => pure (f b)) s = .ok c s' ↔ ∃ b, x s = .ok b s' ∧ f b = c := by
  rw [bind_eq_ok]
  constructor
  · rintro ⟨b, s₁, hx, h⟩
    obtain ⟨hc, rfl⟩ := pure_eq_ok.mp h
    exact ⟨b, hx, hc⟩
  · rintro ⟨b, hx, rfl⟩
    exact ⟨b, s', hx, rfl⟩

lemma widen_eq_ok [Coe ε Error] {step : EStateM ε σ β} {s s' : σ} {b : β} :
    widen step s = .ok b s' ↔ step s = .ok b s' := by
  unfold widen
  rcases step s with ⟨b', s₁⟩ | ⟨e, s₁⟩ <;> simp

lemma widen_of_error [Coe ε Error] {step : EStateM ε σ β} {s s' : σ} {e : ε}
    (h : step s = .error e s') : widen step s = .error (e : Error) s' := by
  simp only [widen, h]

lemma left_widen [Coe ε Error] (step : EStateM ε σ β) (s : σ) :
    left (widen step) s = left step s := by
  unfold left widen
  rcases step s with ⟨b, s₁⟩ | ⟨e, s₁⟩ <;> rfl

lemma onPart_of_ok {τ : Type} {part : τ → σ} {replace : τ → σ → τ} {step : Step σ β} {t : τ}
    {s : σ} {b : β} (h : step (part t) = .ok b s) :
    onPart part replace step t = .ok b (replace t s) := by
  simp only [onPart, h]

lemma onPart_of_error {τ : Type} {part : τ → σ} {replace : τ → σ → τ} {step : Step σ β} {t : τ}
    {s : σ} {e : Error} (h : step (part t) = .error e s) :
    onPart part replace step t = .error e (replace t s) := by
  simp only [onPart, h]

lemma left_onPart {τ : Type} (part : τ → σ) (replace : τ → σ → τ) (step : Step σ β) (t : τ) :
    left (onPart part replace step) t = replace t (left step (part t)) := by
  unfold left onPart
  rcases step (part t) with ⟨b, s⟩ | ⟨e, s⟩ <;> rfl

lemma onValue_eq_ok {f : β → EStateM ε σ γ} {e : κ × β} {e' : κ × γ} {s s' : σ} :
    onValue f e s = .ok e' s' ↔ e.1 = e'.1 ∧ f e.2 s = .ok e'.2 s' := by
  obtain ⟨key, b⟩ := e
  obtain ⟨key', c⟩ := e'
  rw [onValue, map_eq_pure_bind, bind_pure_eq_ok]
  constructor
  · rintro ⟨c', hc, he⟩; cases he; exact ⟨rfl, hc⟩
  · rintro ⟨hk, hc⟩; cases hk; exact ⟨c, hc, rfl⟩

/-- A traversal leaves a state as it is if each of its items does. -/
lemma mapM_eq_ok_of_stays {f : β → EStateM ε σ γ} {xs : List β} {ys : List γ} {s : σ}
    (h : List.Forall₂ (fun x y => f x s = .ok y s) xs ys) : xs.mapM f s = .ok ys s := by
  induction h with
  | nil => rfl
  | cons hy _ ih =>
    rw [List.mapM_cons]
    exact bind_eq_ok.mpr ⟨_, s, hy, bind_pure_eq_ok.mpr ⟨_, ih, rfl⟩⟩

/-! ### Properties of sequences -/

/-- A property of steps that a sequence has if its parts do, and that doing nothing has. -/
structure Closed (P : ∀ β : Type, EStateM ε σ β → Prop) : Prop where
  pure : ∀ {β : Type} (b : β), P β (pure b)
  throw : ∀ {β : Type} (e : ε), P β (throw e)
  bind : ∀ {β γ : Type} {x : EStateM ε σ β} {f : β → EStateM ε σ γ}, P β x → (∀ b, P γ (f b)) →
    P γ (x >>= f)

section Closed

variable {P : ∀ β : Type, EStateM ε σ β → Prop}

lemma Closed.onValue (hP : Closed P) {f : β → EStateM ε σ γ} {e : κ × β} (h : P γ (f e.2)) :
    P (κ × γ) (onValue f e) := by
  rw [HostBridge.onValue, map_eq_pure_bind]
  exact hP.bind h fun _ => hP.pure _

lemma Closed.mapM (hP : Closed P) {f : β → EStateM ε σ γ} {xs : List β}
    (h : ∀ x ∈ xs, P γ (f x)) : P (List γ) (xs.mapM f) := by
  induction xs with
  | nil => exact hP.pure []
  | cons x rest ih =>
    have hx := h x List.mem_cons_self
    have hrest := ih fun x' hx' => h x' (List.mem_cons_of_mem _ hx')
    rw [List.mapM_cons]
    exact hP.bind hx fun _ => hP.bind hrest fun _ => hP.pure _

end Closed

/-! ### Steps that keep a state -/

/-- The step leaves the state as it is, whether it succeeds or fails. -/
def Keeps (s : σ) (step : EStateM ε σ β) : Prop := left step s = s

lemma Keeps.eq_of_ok {step : EStateM ε σ β} {s s' : σ} {b : β} (h : Keeps s step)
    (hok : step s = .ok b s') : s' = s := by
  rw [← left_of_ok hok]
  exact h

lemma Keeps.bind {x : EStateM ε σ β} {f : β → EStateM ε σ γ} {s : σ} (hx : Keeps s x)
    (hf : ∀ b, Keeps s (f b)) : Keeps s (x >>= f) := by
  rcases h : x s with ⟨b, s₁⟩ | ⟨e, s₁⟩
  · obtain rfl := hx.eq_of_ok h
    rw [Keeps, left, bind_of_ok h]
    exact hf b
  · have hs : s₁ = s := (left_of_error h).symm.trans hx
    rw [Keeps, left_of_error (bind_of_error h), hs]

lemma closed_keeps (s : σ) : Closed fun β => Keeps (ε := ε) (β := β) s :=
  ⟨fun _ => rfl, fun _ => rfl, Keeps.bind⟩

/-- A traversal whose items keep a state answers there with what they answer there. -/
lemma mapM_eq_ok_of_keeps {f : β → EStateM ε σ γ} {xs : List β} {ys : List γ} {s s' : σ}
    (hkeeps : ∀ x ∈ xs, Keeps s (f x)) :
    xs.mapM f s = .ok ys s' ↔ s' = s ∧ List.Forall₂ (fun x y => f x s = .ok y s) xs ys := by
  constructor
  · intro h
    refine ⟨((closed_keeps s).mapM hkeeps).eq_of_ok h, ?_⟩
    induction xs generalizing ys with
    | nil =>
      obtain ⟨rfl, -⟩ := pure_eq_ok.mp h
      exact .nil
    | cons x rest ih =>
      rw [List.mapM_cons] at h
      obtain ⟨y, s₁, hy, h⟩ := bind_eq_ok.mp h
      obtain ⟨ys', hys, rfl⟩ := bind_pure_eq_ok.mp h
      obtain rfl := (hkeeps x List.mem_cons_self).eq_of_ok hy
      exact .cons hy (ih (fun x' hx' => hkeeps x' (List.mem_cons_of_mem _ hx')) hys)
  · rintro ⟨rfl, h⟩
    exact mapM_eq_ok_of_stays h

/-! ### Moves -/

variable {r : σ → σ → Prop}

/-- A step moves along a relation, in any number of stages, whatever its outcome. -/
def Moves (r : σ → σ → Prop) (step : EStateM ε σ β) : Prop :=
  ∀ s, Relation.ReflTransGen r s (left step s)

lemma Moves.of_ok {step : EStateM ε σ β} (h : Moves r step) {s s' : σ} {b : β}
    (hok : step s = .ok b s') : Relation.ReflTransGen r s s' := by
  have hs := h s
  rwa [left_of_ok hok] at hs

lemma Moves.mono {r' : σ → σ → Prop} {step : EStateM ε σ β} (hr : ∀ s s', r s s' → r' s s')
    (h : Moves r step) : Moves r' step := fun s => Relation.ReflTransGen.mono hr _ _ (h s)

lemma Moves.bind {x : EStateM ε σ β} {f : β → EStateM ε σ γ} (hx : Moves r x)
    (hf : ∀ b, Moves r (f b)) : Moves r (x >>= f) := by
  intro s
  have hxs := hx s
  rcases h : x s with ⟨b, s₁⟩ | ⟨e, s₁⟩
  · rw [left_of_ok h] at hxs
    have hleft : left (x >>= f) s = left (f b) s₁ := by
      simp only [left, Bind.bind, EStateM.bind, h]
    rw [hleft]
    exact hxs.trans (hf b s₁)
  · rw [left_of_error h] at hxs
    have hleft : left (x >>= f) s = s₁ := by
      simp only [left, Bind.bind, EStateM.bind, h]
    rw [hleft]
    exact hxs

lemma closed_moves (r : σ → σ → Prop) : Closed fun β => Moves (ε := ε) (β := β) r :=
  ⟨fun _ _ => .refl, fun _ _ => .refl, Moves.bind⟩

lemma Moves.widen [Coe ε Error] {step : EStateM ε σ β} (h : Moves r step) :
    Moves r (Step.widen step) := by
  intro s
  rw [left_widen]
  exact h s

/-- In a successful traversal each item succeeds, at some state on the way. -/
lemma forall₂_of_mapM_eq_ok {f : β → EStateM ε σ γ} {xs : List β} {ys : List γ} {s s' : σ}
    (hmoves : ∀ x ∈ xs, Moves r (f x)) (h : xs.mapM f s = .ok ys s') :
    List.Forall₂ (fun x y => ∃ s₁ s₂, Relation.ReflTransGen r s s₁ ∧ f x s₁ = .ok y s₂ ∧
      Relation.ReflTransGen r s₂ s') xs ys := by
  induction xs generalizing ys s with
  | nil =>
    rw [List.mapM_nil] at h
    obtain ⟨rfl, -⟩ := pure_eq_ok.mp h
    exact .nil
  | cons x rest ih =>
    have hrest : ∀ x' ∈ rest, Moves r (f x') := fun x' hx' => hmoves x' (by simp [hx'])
    rw [List.mapM_cons] at h
    obtain ⟨y, s₁, hy, h⟩ := bind_eq_ok.mp h
    obtain ⟨ys', hys, rfl⟩ := bind_pure_eq_ok.mp h
    have hhead : Relation.ReflTransGen r s s₁ := (hmoves x (by simp)).of_ok hy
    have htail : Relation.ReflTransGen r s₁ s' := ((closed_moves r).mapM hrest).of_ok hys
    refine .cons ⟨s, s₁, .refl, hy, htail⟩ ?_
    refine (ih hrest hys).imp fun x' y' hxy => ?_
    obtain ⟨t₁, t₂, h₁, hf, h₂⟩ := hxy
    exact ⟨t₁, t₂, hhead.trans h₁, hf, h₂⟩

end Step

end HostBridge
