import HostBridge.Proofs.Host.Membership

/-!
What is more specific for an instance.

The chain of the instance's class is walked from the class outward, and of two names the one that
is met first is the more specific. A chain may come back to a name: the first place of a name is
what counts. A name that is not on the chain at all comes after all those that are. So names are
ranked by the place where the walk first meets them, which makes the relation an order.
-/

namespace HostBridge

variable {α : Type}

/-! ### Walking a chain -/

/-- A walk along the chain meets the one name, and has not met the other one by then. -/
def Ahead (chain : List String) (left right : String) : Prop :=
  ∃ front back, chain = front ++ left :: back ∧ left ∉ front ∧ right ∉ front

section Ahead

variable {chain : List String} {left right : String}

lemma find?_eq_some_left_iff :
    chain.find? (fun name => name == left || name == right) = some left ↔
      Ahead chain left right := by
  have hfront : ∀ front : List String,
      (∀ name ∈ front, !(name == left || name == right)) ↔ left ∉ front ∧ right ∉ front := by
    intro front
    simp only [Bool.not_eq_true', Bool.or_eq_false_iff, beq_eq_false_iff_ne, forall₂_and,
      ne_eq, List.forall_mem_ne']
  rw [List.find?_eq_some_iff_append, Ahead]
  simp only [beq_self_eq_true, Bool.true_or, true_and, hfront, exists_and_right]

/-- Names are ranked by their first places; a name that is not met comes after the last place. -/
lemma ahead_iff_idxOf_lt (hne : left ≠ right) :
    Ahead chain left right ↔ chain.idxOf left < chain.idxOf right := by
  constructor
  · rintro ⟨front, back, rfl, hleft, hright⟩
    rw [List.idxOf_append_of_notMem hleft, List.idxOf_append_of_notMem hright,
      List.idxOf_cons_self, List.idxOf_cons_ne _ hne]
    omega
  · intro hlt
    have hmem : left ∈ chain :=
      List.idxOf_lt_length_iff.mp (Nat.lt_of_lt_of_le hlt List.idxOf_le_length)
    obtain ⟨front, back, rfl, hleft⟩ := List.eq_append_cons_of_mem hmem
    refine ⟨front, back, rfl, hleft, fun hright => ?_⟩
    rw [List.idxOf_append_of_notMem hleft, List.idxOf_append_of_mem hright] at hlt
    have hfront := List.idxOf_lt_length_of_mem hright
    omega

end Ahead

/-- A strict order by rank: not to be before a name is transitive, as it is to be before it. -/
structure StrictlyRanked (before : String → String → Prop) : Prop where
  irrefl : ∀ l, ¬ before l l
  asymm : ∀ l r, before l r → ¬ before r l
  trans : ∀ l m r, before l m → before m r → before l r
  negTrans : ∀ l m r, ¬ before l m → ¬ before m r → ¬ before l r

lemma strictlyRanked_of_iff_lt {before : String → String → Prop} (place : String → Nat)
    (h : ∀ l r, before l r ↔ place l < place r) : StrictlyRanked before := by
  constructor <;> simp only [h] <;> omega

namespace Host

variable {h : Host α} {id : InstanceId} {o : Object α}

/-! ### Instances -/

/-- For the instance of an id, one name is more specific than another. -/
def MoreSpecific (h : Host α) (id : InstanceId) (left right : String) : Prop :=
  h.isSubspecializer id left right = .ok true

/-- The names on the chain of an object's class; none if no class stands for the object's type. -/
inductive Specializers (h : Host α) (o : Object α) : List String → Prop
  | unregistered (hown : h.classes.classOf? o = none) : Specializers h o []
  | chain {own : String} {chain : List String} (hown : h.classes.classOf? o = some own)
    (hchain : h.classes.ancestry own = .ok chain) : Specializers h o chain

lemma exists_specializers (ht : h.classes.Reachable) (o : Object α) :
    ∃ chain, h.Specializers o chain := by
  rcases hown : h.classes.classOf? o with _ | own
  · exact ⟨[], .unregistered hown⟩
  · obtain ⟨chain, hchain⟩ := ht.exists_ancestry hown
    exact ⟨chain, .chain hown hchain⟩

/-- The answer compares the first places of the two names. -/
lemma isSubspecializer_eq (ho : h.instances.object? id = some o) {chain : List String}
    (hchain : h.Specializers o chain) (left right : String) :
    h.isSubspecializer id left right =
      .ok (decide (chain.idxOf left < chain.idxOf right)) := by
  rw [isSubspecializer, getInstance_eq_ok.mpr ho]
  by_cases heq : left = right
  · simp only [heq, Nat.lt_irrefl, decide_false, if_true, bind, Except.bind]
  cases hchain with
  | unregistered hown =>
    simp only [heq, hown, if_false, bind, Except.bind, List.idxOf_nil, Nat.lt_irrefl, decide_false]
  | chain hown hchain =>
    have hanswer : (chain.find? (fun name => name == left || name == right) == some left) =
        decide (chain.idxOf left < chain.idxOf right) := by
      rw [Bool.eq_iff_iff, beq_iff_eq, decide_eq_true_iff, find?_eq_some_left_iff,
        ahead_iff_idxOf_lt heq]
    simp only [heq, hown, hchain, hanswer, if_false, bind, Except.bind, Except.mapError]

lemma moreSpecific_iff (ho : h.instances.object? id = some o) {chain : List String}
    (hchain : h.Specializers o chain) (left right : String) :
    h.MoreSpecific id left right ↔ chain.idxOf left < chain.idxOf right := by
  rw [MoreSpecific, isSubspecializer_eq ho hchain, Except.ok.injEq, decide_eq_true_iff]

/-- So it is a matter of the chain of the instance's own class. -/
lemma moreSpecific_iff_ahead (ht : h.classes.Reachable) (ho : h.instances.object? id = some o)
    (left right : String) : h.MoreSpecific id left right ↔
      left ≠ right ∧ ∃ own chain, h.classes.classOf? o = some own ∧
        h.classes.ancestry own = .ok chain ∧ Ahead chain left right := by
  constructor
  · intro hmore
    obtain ⟨chain, hchain⟩ := exists_specializers ht o
    have hlt := (moreSpecific_iff ho hchain left right).mp hmore
    have hne : left ≠ right := by rintro rfl; exact absurd hlt (Nat.lt_irrefl _)
    cases hchain with
    | unregistered => exact absurd hlt (Nat.lt_irrefl _)
    | chain hown hchain => exact ⟨hne, _, _, hown, hchain, (ahead_iff_idxOf_lt hne).mpr hlt⟩
  · rintro ⟨hne, own, chain, hown, hchain, hahead⟩
    exact (moreSpecific_iff ho (.chain hown hchain) left right).mpr
      ((ahead_iff_idxOf_lt hne).mp hahead)

/-- An instance belongs to every class that is more specific for it than some name. -/
lemma isa_of_moreSpecific (ht : h.classes.Reachable) (ho : h.instances.object? id = some o)
    {left right : String} (hmore : h.MoreSpecific id left right) {t : Term} {handle : Handle Term}
    (hvalue : t.value = .external handle) (hid : handle.id = id) : h.isa t left = .ok true := by
  obtain ⟨-, own, chain, hown, hchain, front, back, rfl, -⟩ :=
    (moreSpecific_iff_ahead ht ho left right).mp hmore
  have hmem : left ∈ front ++ left :: back := List.mem_append_right _ List.mem_cons_self
  rw [isa_of_classOf hvalue (hid ▸ ho) hown hchain (ht.contains_of_mem_ancestry hchain hmem),
    List.contains_iff_mem.mpr hmem]

/--
**Specificity is a strict order.** In every state of a session, to ask which of two names is more
specific for a bound instance is answered, whatever the names. The relation is a strict order in
ranks. One name is more specific than another exactly if they differ and the chain of the
instance's class meets the one and has not met the other by then; so of any two names on the chain
one is more specific, also when the chain comes back to them, and an instance for whose type no
class stands has no order of names. And an instance belongs to what is more specific than any name.
-/
theorem moreSpecific_strictlyRanked (hh : h.Reachable) (ho : h.instances.object? id = some o) :
    (∀ l r, ∃ b, h.isSubspecializer id l r = .ok b) ∧
    StrictlyRanked (h.MoreSpecific id) ∧
    (∀ l r, h.MoreSpecific id l r ↔ l ≠ r ∧ ∃ own chain, h.classes.classOf? o = some own ∧
      h.classes.ancestry own = .ok chain ∧ Ahead chain l r) ∧
    (∀ own chain, h.classes.classOf? o = some own → h.classes.ancestry own = .ok chain →
      ∀ l ∈ chain, ∀ r ∈ chain, l ≠ r → h.MoreSpecific id l r ∨ h.MoreSpecific id r l) ∧
    (h.classes.classOf? o = none → ∀ l r, h.isSubspecializer id l r = .ok false) ∧
    ∀ l r, h.MoreSpecific id l r →
      ∀ t handle, t.value = .external handle → handle.id = id → h.isa t l = .ok true := by
  have ht := hh.classes
  obtain ⟨places, hplaces⟩ := exists_specializers ht o
  refine ⟨fun l r => ⟨_, isSubspecializer_eq ho hplaces l r⟩,
    strictlyRanked_of_iff_lt places.idxOf fun l r => moreSpecific_iff ho hplaces l r,
    moreSpecific_iff_ahead ht ho, fun own chain hown hchain l hl r hr hne => ?_,
    fun hown l r => ?_, fun l r hmore t handle => isa_of_moreSpecific ht ho hmore⟩
  · have hfirst : chain.idxOf l ≠ chain.idxOf r := fun heq => hne ((List.idxOf_inj hl).mp heq)
    simp only [moreSpecific_iff ho (.chain hown hchain)]
    omega
  · rw [isSubspecializer_eq ho (.unregistered hown)]
    rfl

/-- A session with a dog, whose chain comes back to its class. -/
def pedigree : Host Unit :=
  (Call.makeInstance "Dog" (.ofHost (.list [])) 5).after
    (Step.left (registerAncestry "Dog" ["Hound", "Dog", "Hound"]) kennel)

lemma pedigree_reachable : pedigree.Reachable :=
  .call (kennel_reachable.registerAncestry _ _)
    (Call.admitted_of_gives_nothing fun _ => not_false)

/-- A name that is met again later is as specific as its first place says. -/
theorem moreSpecific_strictlyRanked_pedigree :
    pedigree.Reachable ∧ pedigree.instances.object? 5 = some ⟨1, .foreign "Dog" "Dog" ()⟩ ∧
    pedigree.classes.ancestry "Dog" = .ok ["Dog", "Hound", "Dog", "Hound"] ∧
    pedigree.MoreSpecific 5 "Dog" "Hound" ∧ pedigree.MoreSpecific 5 "Hound" "Cat" ∧
    pedigree.MoreSpecific 5 "Dog" "Cat" ∧ ¬ pedigree.MoreSpecific 5 "Hound" "Dog" ∧
    pedigree.isa (handleOf 5) "Hound" = .ok true := by
  have ho : pedigree.instances.object? 5 = some ⟨1, .foreign "Dog" "Dog" ()⟩ := rfl
  have hchain : pedigree.classes.ancestry "Dog" = .ok ["Dog", "Hound", "Dog", "Hound"] := rfl
  obtain ⟨-, hranked, hiff, -, -, hisa⟩ := moreSpecific_strictlyRanked pedigree_reachable ho
  have hdog : pedigree.MoreSpecific 5 "Dog" "Hound" :=
    (hiff "Dog" "Hound").mpr ⟨by decide, "Dog", _, rfl, hchain, [], _, rfl, by decide, by decide⟩
  have hhound : pedigree.MoreSpecific 5 "Hound" "Cat" :=
    (hiff "Hound" "Cat").mpr
      ⟨by decide, "Dog", _, rfl, hchain, ["Dog"], _, rfl, by decide, by decide⟩
  exact ⟨pedigree_reachable, ho, hchain, hdog, hhound, hranked.trans _ _ _ hdog hhound,
    hranked.asymm _ _ hdog, hisa _ _ hhound (handleOf 5) _ rfl rfl⟩

end Host

end HostBridge
