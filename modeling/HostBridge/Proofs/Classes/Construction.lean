import HostBridge.Class
import Mathlib.Data.List.Basic

/-!
What a class constructs.

A class tries those of its constructors that take as many arguments as there are, in the order in
which they were added, and the first that succeeds decides. If all of them refuse, the last one to
do so gives the reason; if there is none, that is the reason.
-/

namespace HostBridge

variable {α : Type}

namespace Constructor

/-- The constructor takes any number of arguments, or this one. -/
def Takes (k : Constructor α) (count : Nat) : Prop := k.arity = none ∨ k.arity = some count

/-- If the constructor is tried on the arguments at all, it fails. -/
def Refuses (k : Constructor α) (args : List (Value α)) : Prop :=
  k.Takes args.length → ∃ message, k.build args = .error message

lemma accepts_iff {k : Constructor α} {count : Nat} : k.accepts count = true ↔ k.Takes count := by
  unfold accepts Takes
  rcases k.arity with _ | n <;> simp

end Constructor

namespace Class

variable {c : Class α} {args : List (Value α)} {content : Content α} {message : String}

/-- The first constructor that takes the arguments and succeeds on them builds the content. -/
def Yields (c : Class α) (args : List (Value α)) (content : Content α) : Prop :=
  ∃ front k back, c.constructors = front ++ k :: back ∧ (∀ k' ∈ front, k'.Refuses args) ∧
    k.Takes args.length ∧ k.build args = .ok content

/-- Why the class builds nothing from the arguments. -/
inductive Rejects (c : Class α) (args : List (Value α)) : String → Prop
  | noConstructor (hnone : c.constructors = []) :
    Rejects c args "class has no registered constructor"
  | noneTakes (hsome : c.constructors ≠ []) (hnone : ∀ k ∈ c.constructors, ¬ k.Takes args.length) :
    Rejects c args s!"no constructor takes {args.length} argument(s)"
  | lastRefusal {front back : List (Constructor α)} {k : Constructor α} {message : String}
    (hks : c.constructors = front ++ k :: back) (hfront : ∀ k' ∈ front, k'.Refuses args)
    (htakes : k.Takes args.length) (hbuild : k.build args = .error message)
    (hback : ∀ k' ∈ back, ¬ k'.Takes args.length) : Rejects c args message

/-! ### One constructor after another -/

/-- The constructors that are tried on the arguments. -/
def tried (args : List (Value α)) (ks : List (Constructor α)) : List (Constructor α) :=
  ks.filter (·.accepts args.length)

lemma tried_cons_of_takes {k : Constructor α} (hk : k.Takes args.length)
    (ks : List (Constructor α)) : tried args (k :: ks) = k :: tried args ks :=
  List.filter_cons_of_pos (Constructor.accepts_iff.mpr hk)

lemma tried_eq_nil {ks : List (Constructor α)} (hks : ∀ k ∈ ks, ¬ k.Takes args.length) :
    tried args ks = [] :=
  List.filter_eq_nil_iff.mpr fun k hk => mt Constructor.accepts_iff.mp (hks k hk)

/-- Constructors that refuse leave nothing but the message of the last of them. -/
lemma firstBuilt_append {front : List (Constructor α)} (hfront : ∀ k ∈ front, k.Refuses args)
    (ks : List (Constructor α)) (failure : Option String) :
    ∃ failure', firstBuilt args (tried args (front ++ ks)) failure =
      firstBuilt args (tried args ks) failure' := by
  induction front generalizing failure with
  | nil => exact ⟨failure, rfl⟩
  | cons k rest ih =>
    have hrest := ih fun k' hk' => hfront k' (List.mem_cons_of_mem _ hk')
    by_cases hk : k.Takes args.length
    · obtain ⟨message, hbuild⟩ := hfront k List.mem_cons_self hk
      rw [List.cons_append, tried_cons_of_takes hk, firstBuilt, hbuild]
      exact hrest (some message)
    · have hskip : tried args (k :: (rest ++ ks)) = tried args (rest ++ ks) :=
        List.filter_cons_of_neg (mt Constructor.accepts_iff.mp hk)
      rw [List.cons_append, hskip]
      exact hrest failure

/-- Either some constructor is the first to succeed, or all that are tried refuse. -/
lemma exists_first_success (args : List (Value α)) (ks : List (Constructor α)) :
    (∃ front k back content, ks = front ++ k :: back ∧ (∀ k' ∈ front, k'.Refuses args) ∧
      k.Takes args.length ∧ k.build args = .ok content) ∨ ∀ k ∈ ks, k.Refuses args := by
  induction ks with
  | nil => exact Or.inr nofun
  | cons k rest ih =>
    by_cases hk : k.Takes args.length ∧ ∃ content, k.build args = .ok content
    · obtain ⟨htakes, content, hbuild⟩ := hk
      exact Or.inl ⟨[], k, rest, content, rfl, nofun, htakes, hbuild⟩
    · have hrefuses : k.Refuses args := by
        intro htakes
        rcases hbuild : k.build args with message | content
        · exact ⟨message, rfl⟩
        · exact absurd ⟨htakes, content, hbuild⟩ hk
      rcases ih with ⟨front, k', back, content, rfl, hfront, hk'⟩ | hrest
      · exact Or.inl ⟨k :: front, k', back, content, rfl,
          List.forall_mem_cons.mpr ⟨hrefuses, hfront⟩, hk'⟩
      · exact Or.inr (List.forall_mem_cons.mpr ⟨hrefuses, hrest⟩)

/-- Either some constructor is the last to take that many arguments, or none does. -/
lemma exists_last_taker (count : Nat) (ks : List (Constructor α)) :
    (∃ front k back, ks = front ++ k :: back ∧ k.Takes count ∧ ∀ k' ∈ back, ¬ k'.Takes count) ∨
      ∀ k ∈ ks, ¬ k.Takes count := by
  induction ks with
  | nil => exact Or.inr nofun
  | cons k rest ih =>
    rcases ih with ⟨front, k', back, rfl, hk'⟩ | hrest
    · exact Or.inl ⟨k :: front, k', back, rfl, hk'⟩
    · by_cases hk : k.Takes count
      · exact Or.inl ⟨[], k, rest, rfl, hk, hrest⟩
      · exact Or.inr (List.forall_mem_cons.mpr ⟨hk, hrest⟩)

/-! ### The outcome -/

/-- A class with constructors reports what became of those that it tried. -/
lemma construct_eq (hsome : c.constructors ≠ []) (args : List (Value α)) :
    c.construct args =
      match firstBuilt args (tried args c.constructors) none with
      | .ok content => .ok content
      | .error failure => .error (.notConstructed c.name
          (failure.getD s!"no constructor takes {args.length} argument(s)")) := by
  rw [construct, if_neg (mt List.isEmpty_iff.mp hsome)]
  rfl

lemma construct_of_yields (h : c.Yields args content) : c.construct args = .ok content := by
  obtain ⟨front, k, back, hks, hfront, htakes, hbuild⟩ := h
  obtain ⟨failure, hfirst⟩ := firstBuilt_append hfront (k :: back) none
  rw [tried_cons_of_takes htakes, firstBuilt, hbuild, ← hks] at hfirst
  have hsome : c.constructors ≠ [] := by simp [hks]
  rw [construct_eq hsome, hfirst]

lemma construct_of_rejects (h : c.Rejects args message) :
    c.construct args = .error (.notConstructed c.name message) := by
  cases h with
  | noConstructor hnone => rw [construct, hnone]; rfl
  | noneTakes hsome hnone => rw [construct_eq hsome, tried_eq_nil hnone]; rfl
  | @lastRefusal front back k _ hks hfront htakes hbuild hback =>
    obtain ⟨failure, hfirst⟩ := firstBuilt_append hfront (k :: back) none
    rw [tried_cons_of_takes htakes, tried_eq_nil hback, firstBuilt, hbuild, ← hks] at hfirst
    have hsome : c.constructors ≠ [] := by simp [hks]
    rw [construct_eq hsome, hfirst]
    rfl

/-- A class builds something from the arguments, or there is a reason why not. -/
lemma yields_or_rejects (c : Class α) (args : List (Value α)) :
    (∃ content, c.Yields args content) ∨ ∃ message, c.Rejects args message := by
  rcases exists_first_success args c.constructors with
    ⟨front, k, back, content, hks, hfirst⟩ | hrefuse
  · exact Or.inl ⟨content, front, k, back, hks, hfirst⟩
  right
  rcases exists_last_taker args.length c.constructors with
    ⟨front, k, back, hks, htakes, hback⟩ | hnone
  · rw [hks] at hrefuse
    obtain ⟨message, hbuild⟩ := hrefuse k (by simp) htakes
    exact ⟨message, .lastRefusal hks (fun k' hk' => hrefuse k' (by simp [hk'])) htakes hbuild hback⟩
  · by_cases hempty : c.constructors = []
    · exact ⟨_, .noConstructor hempty⟩
    · exact ⟨_, .noneTakes hempty hnone⟩

/-- **What a class constructs** is what the first success among its constructors has built. -/
theorem construct_eq_ok_iff : c.construct args = .ok content ↔ c.Yields args content := by
  refine ⟨fun h => ?_, construct_of_yields⟩
  rcases c.yields_or_rejects args with ⟨content', hyields⟩ | ⟨message, hrejects⟩
  · rw [construct_of_yields hyields] at h; cases h
    exact hyields
  · rw [construct_of_rejects hrejects] at h; cases h

end Class

end HostBridge
