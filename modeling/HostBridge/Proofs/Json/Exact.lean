import HostBridge.Json.Exact
import HostBridge.Proofs.Json.Canonical
import HostBridge.Proofs.Json.RoundTrip

/-!
The exact library is lawful, and keeps every finite double.

Its reader recurses on the depth that it allows and so answers with nothing deeper. That it reads
back what it wrote is shown for its reader and its printer; of a double on its own this says that
the double is kept.
-/

namespace HostBridge.Json

/-! ### What is read -/

section Read

variable {β γ : Type} {item : Reader β} {P : β → Prop}

lemma forall_of_readItems (hitem : ∀ {cs x rest}, item cs = some (x, rest) → P x) {close : Char}
    {limit : ℕ} {cs rest : List Char} {xs : List β}
    (h : readItems item close limit cs = some (xs, rest)) : ∀ x ∈ xs, P x := by
  induction limit generalizing cs xs with
  | zero => cases h
  | succ limit ih =>
    obtain ⟨⟨x, rest'⟩, hx, h⟩ := Option.bind_eq_some_iff.mp h
    dsimp only at h
    split at h
    · cases h
    split at h
    · obtain ⟨⟨ys, rest''⟩, hys, h⟩ := Option.bind_eq_some_iff.mp h
      cases h
      exact List.forall_mem_cons.mpr ⟨hitem hx, ih hys⟩
    · split at h
      · cases h
        exact List.forall_mem_singleton.mpr (hitem hx)
      · cases h

lemma forall_of_readSequence (hitem : ∀ {cs x rest}, item cs = some (x, rest) → P x)
    {close : Char} {limit : ℕ} {cs rest : List Char} {xs : List β}
    (h : readSequence limit item close cs = some (xs, rest)) : ∀ x ∈ xs, P x := by
  unfold readSequence at h
  split at h
  · cases h
  split at h
  · cases h
    exact List.forall_mem_nil _
  · exact forall_of_readItems hitem h

lemma of_readMember {key : Reader γ} {value : γ → Reader β}
    (hvalue : ∀ {k cs x rest}, value k cs = some (x, rest) → P x) {cs rest : List Char}
    {member : γ × β} (h : readMember key value cs = some (member, rest)) : P member.2 := by
  unfold readMember at h
  split at h
  · obtain ⟨⟨k, rest'⟩, hk, h⟩ := Option.bind_eq_some_iff.mp h
    dsimp only at h
    split at h
    · obtain ⟨⟨x, rest''⟩, hx, h⟩ := Option.bind_eq_some_iff.mp h
      cases h
      exact hvalue hx
    · cases h
  · cases h

end Read

lemma depth_of_readScalar {limit : ℕ} {cs rest : List Char} {json : Json}
    (h : readScalar limit cs = some (json, rest)) : json.depth = 0 := by
  unfold readScalar at h
  split at h
  · obtain ⟨_, -, h⟩ := Option.map_eq_some_iff.mp h
    cases h; rfl
  · rw [Option.orElse_eq_orElse, Option.orElse_eq_or] at h
    rcases Option.or_eq_some_iff.mp h with h | ⟨-, h⟩
    · unfold readNamed at h
      split at h <;> cases h <;> rfl
    · obtain ⟨_, -, h⟩ := Option.map_eq_some_iff.mp h
      cases h; rfl

/-- What is read is no deeper than the reader allows. -/
lemma depth_le_of_readValue {limit d : ℕ} {cs rest : List Char} {json : Json}
    (h : readValue limit d cs = some (json, rest)) : json.depth ≤ d := by
  induction d generalizing cs json rest with
  | zero => exact Nat.le_of_eq (depth_of_readScalar h)
  | succ d ih =>
    unfold readValue at h
    split at h
    · obtain ⟨⟨items, rest'⟩, hitems, h⟩ := Option.map_eq_some_iff.mp h
      cases h
      rw [depth, Nat.succ_le_succ_iff, itemsDepth_le_iff]
      exact forall_of_readSequence ih hitems
    · obtain ⟨⟨members, rest'⟩, hmembers, h⟩ := Option.map_eq_some_iff.mp h
      cases h
      rw [depth, Nat.succ_le_succ_iff, membersDepth_le_iff]
      exact forall_of_readSequence (P := fun member => member.2.depth ≤ d)
        (of_readMember (P := fun json : Json => json.depth ≤ d) ih) hmembers
    · rw [depth_of_readScalar h]
      exact Nat.zero_le _

lemma parse?_eq_some {text : String} {json : Json} :
    parse? text = some json ↔
      ∃ tree, readAll? (readValue · maxDepth) text = some tree ∧ tree.canonical = json := by
  rw [parse?, Option.map_eq_some_iff]

/-- A text is read as a tree of limited depth. -/
lemma depth_le_of_readAll? {text : String} {tree : Json}
    (h : readAll? (readValue · maxDepth) text = some tree) : tree.depth ≤ maxDepth := by
  unfold readAll? at h
  dsimp only at h
  split at h
  · rename_i hread
    split at h
    · cases h
      exact depth_le_of_readValue hread
    · cases h
  · cases h

/-! ### The laws -/

lemma exact_read_eq_ok {text : String} {json : Json} :
    Library.read text = .ok json ↔ parse? text = some json := by
  simp only [Library.read]
  cases parse? text <;> simp

/-- **The exact library is lawful.** -/
instance : LawfulLibrary where
  read_write hdepth _ blanks hblanks := exact_read_eq_ok.mpr (parse?_print hdepth blanks hblanks)
  canonical_of_read h := by
    obtain ⟨tree, -, rfl⟩ := parse?_eq_some.mp (exact_read_eq_ok.mp h)
    exact canonical_canonical tree
  depth_of_read h := by
    obtain ⟨tree, hread, rfl⟩ := parse?_eq_some.mp (exact_read_eq_ok.mp h)
    exact Nat.le_trans (depth_canonical_le tree) (depth_le_of_readAll? hread)

/-- **Every finite double is kept** by the exact library. -/
lemma exact_keeps (x : FiniteDouble) : Library.Keeps x := by
  have hdepth : (Json.number (.float x)).depth ≤ maxDepth := Nat.zero_le _
  have hread := parse?_print hdepth "" rfl
  rw [String.append_empty] at hread
  exact exact_read_eq_ok.mpr hread

lemma exact_kept (json : Json) : json.Kept := fun x _ => exact_keeps x

end HostBridge.Json
