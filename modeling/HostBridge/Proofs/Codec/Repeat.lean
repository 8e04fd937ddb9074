import HostBridge.Proofs.Codec.RoundTrip

/-!
A value that is encoded again.

Encoding is not undone where it fails: the objects met before the failure keep their ids. Encoded
again, the value finds all that it needs in the table up to the place where it failed before, and
fails there in the same way.
-/

namespace HostBridge.Codec

variable {α β γ : Type} {c : Codec α}

/--
What the step has answered it answers again, at every table that has grown from the one that it
left; and where it has failed, it fails again at the table that it left. Neither changes the table.
-/
structure Repeats (step : Step (Instances α) β) : Prop where
  grows : ∀ s : Instances α, s.Extends (Step.left step s)
  ok : ∀ {s b s' later}, step s = .ok b s' → s'.Extends later → step later = .ok b later
  error : ∀ {s e s'}, step s = .error e s' → step s' = .error e s'

lemma Repeats.extends_of_ok {step : Step (Instances α) β} (h : Repeats step) {s s' : Instances α}
    {b : β} (hok : step s = .ok b s') : s.Extends s' := by
  have hs := h.grows s
  rwa [Step.left_of_ok hok] at hs

lemma Repeats.extends_of_error {step : Step (Instances α) β} (h : Repeats step)
    {s s' : Instances α} {e : Error} (herror : step s = .error e s') : s.Extends s' := by
  have hs := h.grows s
  rwa [Step.left_of_error herror] at hs

lemma repeats_pure (b : β) : Repeats (pure b : Step (Instances α) β) where
  grows s := Instances.Extends.refl s
  ok h _ := by
    obtain ⟨rfl, -⟩ := Step.pure_eq_ok.mp h
    rfl
  error h := nomatch h

lemma repeats_throw (e : Error) : Repeats (throw e : Step (Instances α) β) where
  grows s := Instances.Extends.refl s
  ok h _ := nomatch h
  error h := by cases h; rfl

/-- **One step after another.** What the first has answered it answers again, since the second has
only added to the table. -/
lemma Repeats.bind {x : Step (Instances α) β} {f : β → Step (Instances α) γ} (hx : Repeats x)
    (hf : ∀ b, Repeats (f b)) : Repeats (x >>= f) where
  grows s := by
    rcases h : x s with ⟨b, s₁⟩ | ⟨e, s₁⟩
    · have hfirst : s.Extends s₁ := hx.extends_of_ok h
      have hsecond : s₁.Extends (Step.left (f b) s₁) := (hf b).grows s₁
      rw [Step.left, Step.bind_of_ok h]
      exact hfirst.trans hsecond
    · rw [Step.left_of_error (Step.bind_of_error h)]
      exact hx.extends_of_error h
  ok {s a s' later} h hlater := by
    obtain ⟨b, s₁, hb, ha⟩ := Step.bind_eq_ok.mp h
    have hafter : s₁.Extends later := ((hf b).extends_of_ok ha).trans hlater
    exact Step.bind_eq_ok.mpr ⟨b, later, hx.ok hb hafter, (hf b).ok ha hlater⟩
  error {s e s'} h := by
    rcases hfirst : x s with ⟨b, s₁⟩ | ⟨e₁, s₁⟩
    · -- the first step has succeeded, and does so again where the second has failed
      rw [Step.bind_of_ok hfirst] at h
      have hagain : x s' = .ok b s' := hx.ok hfirst ((hf b).extends_of_error h)
      rw [Step.bind_of_ok hagain]
      exact (hf b).error h
    · rw [Step.bind_of_error hfirst] at h
      cases h
      exact Step.bind_of_error (hx.error hfirst)

lemma closed_repeats : Step.Closed fun _ => Repeats (α := α) :=
  ⟨repeats_pure, repeats_throw, Repeats.bind⟩

/-- An object that has been registered has an id, and keeps it. -/
lemma repeats_register (o : Object α) : Repeats (Step.widen (Instances.register o)) where
  grows s := by
    rw [Step.left_widen]
    exact Instances.Extends.register s o
  ok h hlater := by
    have hid := Instances.idOf_of_register (Step.widen_eq_ok.mp h)
    exact Step.widen_eq_ok.mpr (Instances.register_cached (hlater.idOf hid))
  error {s e s'} h := by
    have hsame : s' = s := by
      rw [Step.widen] at h
      split at h
      · cases h
      · rename_i herror
        cases h
        exact Instances.register_error herror
    rwa [hsame] at h ⊢

lemma repeats_encode (v : Value α) : Repeats (encode c v) :=
  closed_encode c closed_repeats (fun o (_ : True) => repeats_register o) v
    (fun _ => trivial) fun _ _ => trivial

/--
**Encoding is repeatable.** The term of a value is its term again at the table that encoding has
left, and however that grows from then on; and where encoding has failed, it fails in the same way
at the table that it has left. The table stays as it is.
-/
theorem encode_repeats (c : Codec α) (s : Instances α) (v : Value α) :
    (∀ t s', c.encode v s = .ok t s' → ∀ later, Relation.ReflTransGen Grows s' later →
      c.encode v later = .ok t later) ∧
    ∀ e s', c.encode v s = .error e s' → c.encode v s' = .error e s' :=
  ⟨fun _ _ h _ hlater => (repeats_encode v).ok h (extends_of_grows hlater),
    fun _ _ h => (repeats_encode v).error h⟩

/-- A key that is no text, after an object that has been given an id. -/
theorem encode_repeats_failing :
    let c : Codec Unit := ⟨.empty, ⟨0, .nil⟩, false, false⟩
    let o : Object Unit := ⟨1, .classHandle "Post"⟩
    let v : Value Unit := .list [.object o, .map [(.integer 7, .nil)]]
    ∃ e s', c.encode v .empty = .error e s' ∧ s'.object? 1 = some o ∧
      c.encode v s' = .error e s' := by
  intro c o v
  exact ⟨_, _, rfl, rfl, (encode_repeats c .empty v).2 _ _ rfl⟩

end HostBridge.Codec
