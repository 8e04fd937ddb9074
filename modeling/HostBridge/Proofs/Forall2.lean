import Mathlib.Data.List.Forall2
import Mathlib.Tactic.Tauto

/-!
Lists whose items are related one to one, and optional items that are related.
-/

namespace HostBridge

variable {β γ δ ι σ : Type} {R S : β → γ → Prop}

/-- One correspondence gives another that follows from it for the items on the left. -/
lemma forall₂_imp_left {xs : List β} {ys : List γ} (h : ∀ x ∈ xs, ∀ y, R x y → S x y)
    (hys : List.Forall₂ R xs ys) : List.Forall₂ S xs ys :=
  ((List.forall₂_and_left _ _).mpr ⟨h, hys⟩).imp fun _ y hxy => hxy.1 y hxy.2

lemma forall₂_congr_left {xs : List β} {ys : List γ} (h : ∀ x ∈ xs, ∀ y, R x y ↔ S x y) :
    List.Forall₂ R xs ys ↔ List.Forall₂ S xs ys :=
  ⟨forall₂_imp_left fun x hx y => (h x hx y).mp, forall₂_imp_left fun x hx y => (h x hx y).mpr⟩

/-- Each item on the right is related to one on the left. -/
lemma forall₂_exists_left {xs : List β} {ys : List γ} (h : List.Forall₂ R xs ys) {y : γ}
    (hy : y ∈ ys) : ∃ x ∈ xs, R x y := by
  induction h with
  | nil => cases hy
  | cons hxy _ ih =>
    rcases List.mem_cons.mp hy with rfl | hy
    · exact ⟨_, List.mem_cons_self, hxy⟩
    · obtain ⟨x, hx, hR⟩ := ih hy
      exact ⟨x, List.mem_cons_of_mem _ hx, hR⟩

lemma forall₂_append_iff {as bs : List β} {cs ds : List γ} (h : as.length = cs.length) :
    List.Forall₂ R (as ++ bs) (cs ++ ds) ↔ List.Forall₂ R as cs ∧ List.Forall₂ R bs ds := by
  induction as generalizing cs with
  | nil =>
    obtain rfl := List.length_eq_zero_iff.mp h.symm
    simp
  | cons a as ih =>
    obtain ⟨c, cs, rfl⟩ := List.exists_cons_of_length_eq_add_one h.symm
    simp [ih (Nat.succ.inj h), and_assoc]

/--
Items of any kind, each with a shape that says how long its list is: the items agree in shape
and their lists are related if the shapes agree and all the lists in a row are related.
-/
lemma forall₂_flatMap_iff {R : β → β → Prop} {s : ι → σ} {l : ι → List β} {xs ys : List ι}
    (hlength : ∀ x ∈ xs, ∀ y ∈ ys, s x = s y → (l x).length = (l y).length) :
    List.Forall₂ (fun x y => s x = s y ∧ List.Forall₂ R (l x) (l y)) xs ys ↔
      xs.map s = ys.map s ∧ List.Forall₂ R (xs.flatMap l) (ys.flatMap l) := by
  induction xs generalizing ys with
  | nil => cases ys <;> simp
  | cons x xs ih =>
    cases ys with
    | nil => simp
    | cons y ys =>
      have htail := ih fun x' hx' y' hy' =>
        hlength x' (List.mem_cons_of_mem _ hx') y' (List.mem_cons_of_mem _ hy')
      rw [List.forall₂_cons, htail, List.map_cons, List.map_cons, List.cons.injEq,
        List.flatMap_cons, List.flatMap_cons]
      by_cases hs : s x = s y
      · rw [forall₂_append_iff (hlength x List.mem_cons_self y List.mem_cons_self hs)]
        tauto
      · simp [hs]

/-- Items that are all related to something make a list of what they are related to. -/
lemma exists_forall₂ {xs : List β} (h : ∀ x ∈ xs, ∃ y, R x y) : ∃ ys, List.Forall₂ R xs ys := by
  induction xs with
  | nil => exact ⟨[], .nil⟩
  | cons x xs ih =>
    obtain ⟨y, hy⟩ := h x List.mem_cons_self
    obtain ⟨ys, hys⟩ := ih fun x' hx' => h x' (List.mem_cons_of_mem _ hx')
    exact ⟨y :: ys, .cons hy hys⟩

/-- Two correspondences in a row have a list in between. -/
lemma exists_forall₂_comp {S : γ → δ → Prop} {xs : List β} {zs : List δ}
    (h : List.Forall₂ (fun x z => ∃ y, R x y ∧ S y z) xs zs) :
    ∃ ys, List.Forall₂ R xs ys ∧ List.Forall₂ S ys zs := by
  induction h with
  | nil => exact ⟨[], .nil, .nil⟩
  | cons hxz _ ih =>
    obtain ⟨y, hx, hz⟩ := hxz
    obtain ⟨ys, hxs, hzs⟩ := ih
    exact ⟨y :: ys, .cons hx hxs, .cons hz hzs⟩

lemma option_rel_imp (h : ∀ x y, R x y → S x y) {a : Option β} {b : Option γ}
    (hab : Option.Rel R a b) : Option.Rel S a b := by
  cases hab with
  | some hR => exact .some (h _ _ hR)
  | none => exact .none

lemma option_rel_some_left {b : β} {c : Option γ} :
    Option.Rel R (some b) c ↔ ∃ c', c = some c' ∧ R b c' := by
  rcases c with _ | c' <;> simp

lemma option_rel_some_right {b : Option β} {c : γ} :
    Option.Rel R b (some c) ↔ ∃ b', b = some b' ∧ R b' c := by
  rcases b with _ | b' <;> simp

lemma option_rel_bind {R' : δ → ι → Prop} {a : Option β} {b : Option γ} {f : β → Option δ}
    {g : γ → Option ι} (hab : Option.Rel R a b) (h : ∀ {x y}, R x y → Option.Rel R' (f x) (g y)) :
    Option.Rel R' (a.bind f) (b.bind g) := by
  cases hab with
  | some hR => exact h hR
  | none => exact .none

lemma option_rel_getElem? {xs : List β} {ys : List γ} (h : List.Forall₂ R xs ys) (i : Nat) :
    Option.Rel R xs[i]? ys[i]? := by
  induction h generalizing i with
  | nil => exact .none
  | cons hxy _ ih =>
    cases i with
    | zero => exact .some hxy
    | succ i => exact ih i

/-- Relatedness of the items of three lists, two by two, as far as it is given for them. -/
lemma forall₂_trans {S : γ → δ → Prop} {T : β → δ → Prop} {xs : List β} {ys : List γ}
    {zs : List δ} (h : ∀ x ∈ xs, ∀ y ∈ ys, ∀ z ∈ zs, R x y → S y z → T x z)
    (hxy : List.Forall₂ R xs ys) (hyz : List.Forall₂ S ys zs) : List.Forall₂ T xs zs := by
  induction hxy generalizing zs with
  | nil => cases hyz; exact .nil
  | cons hR _ ih =>
    cases hyz with
    | cons hS hyz =>
      refine .cons (h _ List.mem_cons_self _ List.mem_cons_self _ List.mem_cons_self hR hS) ?_
      exact ih (fun x hx y hy z hz => h x (List.mem_cons_of_mem _ hx) y
        (List.mem_cons_of_mem _ hy) z (List.mem_cons_of_mem _ hz)) hyz

end HostBridge
