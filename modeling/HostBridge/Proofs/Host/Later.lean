import HostBridge.Proofs.Classes.History
import HostBridge.Proofs.Host.Session

/-!
A session until it ends.

Between two ends of a session the tables only grow: what an id is bound to stays bound to it, a
registered class stays registered, and a type goes on to stand for the same class. Ancestries
alone can be replaced. What is said here of the later states of a session is said of all of them
until the instances are dropped.
-/

namespace HostBridge

variable {α : Type}

/-! ### Class tables -/

namespace Classes

/-- The classes of the one table are in the other, and stand for the same types. -/
structure Extends (t t' : Classes α) : Prop where
  byName : ∀ {name c}, t.get name = .ok c → t'.get name = .ok c
  nameOf : ∀ {typeName name}, t.nameOf? typeName = some name → t'.nameOf? typeName = some name

namespace Extends

variable {t t' t'' : Classes α}

lemma refl (t : Classes α) : t.Extends t := ⟨id, id⟩

lemma trans (h : t.Extends t') (h' : t'.Extends t'') : t.Extends t'' :=
  ⟨fun hc => h'.byName (h.byName hc), fun hn => h'.nameOf (h.nameOf hn)⟩

lemma add (t : Classes α) {c : Class α} (hnew : t.contains c.name = false) :
    t.Extends (t.add c) := by
  refine ⟨fun {name d} hd => ?_, fun {typeName name} hname => ?_⟩
  · rw [get_eq_ok] at hd ⊢
    have hne : name ≠ c.name := by
      rintro rfl
      rw [contains_eq_false_iff.mp hnew] at hd; cases hd
    exact (Table.lookup_insert_of_ne hne c t.byName).trans hd
  · rw [nameOf?_add, hname, Option.getD_some]
    split <;> rfl

lemma register (c : Class α) (t : Classes α) : t.Extends (Step.left (Classes.register c) t) := by
  rcases hname : t.contains c.name with _ | _
  · rw [Step.left_of_ok (register_new hname)]; exact add t hname
  · rw [Step.left_of_error (register_taken hname)]; exact refl t

lemma registerAncestry (name : String) (ancestors : List String) (t : Classes α) :
    t.Extends (Step.left (Classes.registerAncestry name ancestors) t) := by
  rcases registerAncestry_cases name ancestors t with ⟨e, he⟩ | ⟨-, hok⟩
  · rw [Step.left_of_error he]; exact refl t
  · -- only the ancestries differ, and neither lookup reads them
    rw [Step.left_of_ok hok]; exact ⟨id, id⟩

end Extends

/-- Every class table that can be reached is the table of some run of registrations. -/
lemma Reachable.exists_history {t : Classes α} (ht : t.Reachable) :
    ∃ actions, (History.run actions).table = t := by
  induction ht with
  | empty => exact ⟨[], rfl⟩
  | @register c t _ ih =>
    obtain ⟨actions, rfl⟩ := ih
    refine ⟨actions ++ [.register c], ?_⟩
    rw [History.run_append, List.foldl_cons, List.foldl_nil, History.step, Step.left]
    rcases Classes.register c (History.run actions).table with _ | _ <;> rfl
  | @registerAncestry name ancestors t _ ih =>
    obtain ⟨actions, rfl⟩ := ih
    refine ⟨actions ++ [.registerAncestry name ancestors], ?_⟩
    rw [History.run_append, List.foldl_cons, List.foldl_nil, History.step, Step.left]
    rcases Classes.registerAncestry name ancestors (History.run actions).table with _ | _ <;> rfl

namespace Reachable

variable {t : Classes α} {name tag : String} {chain : List String}

/-- A class is registered under its own name. -/
lemma name_eq (ht : t.Reachable) {c : Class α} (hget : t.get name = .ok c) : c.name = name := by
  obtain ⟨actions, rfl⟩ := ht.exists_history
  rw [get_eq_ok, (History.run_sound actions).lookup_eq] at hget
  simpa using List.find?_some hget

/-- A class stands on its own chain. -/
lemma mem_ancestry (ht : t.Reachable) (hchain : t.ancestry name = .ok chain) : name ∈ chain := by
  obtain ⟨actions, rfl⟩ := ht.exists_history
  obtain ⟨-, rfl⟩ := ancestry_eq_ok.mp hchain
  exact (History.run_sound actions).mem_chain_iff.mpr (Or.inl rfl)

/-- All names on a chain are registered. -/
lemma contains_of_mem_ancestry (ht : t.Reachable) (hchain : t.ancestry name = .ok chain)
    (htag : tag ∈ chain) : t.contains tag = true := by
  obtain ⟨actions, rfl⟩ := ht.exists_history
  obtain ⟨hname, rfl⟩ := ancestry_eq_ok.mp hchain
  rcases hrecorded : (History.run actions).table.ancestries.lookup name with _ | recorded
  · rw [hrecorded, Option.getD_none, List.mem_singleton] at htag
    rwa [htag]
  · rw [hrecorded, Option.getD_some] at htag
    exact ((History.run_sound actions).chain_valid hrecorded).2.2 tag htag

/-- The class that stands for a type is registered, and is a class over this type. -/
lemma exists_class (ht : t.Reachable) {typeName own : String}
    (hown : t.nameOf? typeName = some own) :
    ∃ c, t.get own = .ok c ∧ c.typeName = some typeName := by
  obtain ⟨actions, rfl⟩ := ht.exists_history
  obtain ⟨c, -, hget, htype⟩ := (History.run_sound actions).class_of_nameOf hown
  exact ⟨c, hget, htype⟩

/-- So it has an ancestry. -/
lemma exists_ancestry (ht : t.Reachable) {typeName own : String}
    (hown : t.nameOf? typeName = some own) : ∃ chain, t.ancestry own = .ok chain := by
  obtain ⟨c, hget, -⟩ := ht.exists_class hown
  exact ⟨_, ancestry_eq_ok.mpr ⟨contains_iff.mpr ⟨c, get_eq_ok.mp hget⟩, rfl⟩⟩

end Reachable

end Classes

/-! ### Sessions -/

namespace Host

variable {h h' : Host α}

lemma Grows.classes (hg : h.Grows h') : h'.classes = h.classes := by
  obtain ⟨s, fresh, -, -⟩ := hg
  rfl

lemma left_registerClass (c : Class α) (h : Host α) : Step.left (registerClass c) h =
    { h with classes := Step.left (Classes.register c) h.classes } := by
  rw [registerClass, onClasses, Step.left_onPart, Step.left_widen]

lemma left_registerAncestry (name : String) (ancestors : List String) (h : Host α) :
    Step.left (registerAncestry name ancestors) h =
      { h with classes := Step.left (Classes.registerAncestry name ancestors) h.classes } := by
  rw [registerAncestry, onClasses, Step.left_onPart, Step.left_widen]

/-- The class table of a session is one that registrations lead to. -/
lemma Reachable.classes (hh : h.Reachable) : h.classes.Reachable := by
  induction hh with
  | start config hclasses => exact hclasses
  | call hh hc ih => rw [(grows_after hh.sound hc).classes]; exact ih
  | registerClass c _ ih => rw [left_registerClass]; exact ih.register c
  | registerAncestry name ancestors _ ih =>
    rw [left_registerAncestry]; exact ih.registerAncestry name ancestors
  | endSession _ ih => exact ih
  | setAcceptExpression accept _ ih => exact ih

/-- The states that follow a state of a session until the session ends. -/
inductive Later (h : Host α) : Host α → Prop
  | refl : Later h h
  | call {h' : Host α} (hl : Later h h') {c : Call α} (hc : c.Admitted h') : Later h (c.after h')
  | registerClass (c : Class α) {h' : Host α} (hl : Later h h') :
    Later h (Step.left (registerClass c) h')
  | registerAncestry (name : String) (ancestors : List String) {h' : Host α} (hl : Later h h') :
    Later h (Step.left (registerAncestry name ancestors) h')
  | setAcceptExpression (accept : Bool) {h' : Host α} (hl : Later h h') :
    Later h (h'.setAcceptExpression accept)

lemma Later.reachable (hh : h.Reachable) (hl : h.Later h') : h'.Reachable := by
  induction hl with
  | refl => exact hh
  | call _ hc ih => exact ih.call hc
  | registerClass c _ ih => exact ih.registerClass c
  | registerAncestry name ancestors _ ih => exact ih.registerAncestry name ancestors
  | setAcceptExpression accept _ ih => exact ih.setAcceptExpression accept

/-- What a session keeps until it ends. -/
structure Keeps (h h' : Host α) : Prop where
  sound : h'.Sound
  instances : h.instances.Extends h'.instances
  classes : h.classes.Extends h'.classes

/-- **The run invariant**: later states keep all bindings and all classes. -/
theorem Later.keeps (hs : h.Sound) (hl : h.Later h') : h.Keeps h' := by
  induction hl with
  | refl => exact ⟨hs, .refl _, .refl _⟩
  | call _ hc ih =>
    have hgrows := grows_after ih.sound hc
    exact ⟨hgrows.sound ih.sound, ih.instances.trans hgrows.extends, hgrows.classes ▸ ih.classes⟩
  | registerClass c _ ih =>
    rw [left_registerClass]
    exact ⟨⟨ih.sound.table, ih.sound.nil⟩, ih.instances, ih.classes.trans (.register c _)⟩
  | registerAncestry name ancestors _ ih =>
    rw [left_registerAncestry]
    exact ⟨⟨ih.sound.table, ih.sound.nil⟩, ih.instances,
      ih.classes.trans (.registerAncestry name ancestors _)⟩
  | setAcceptExpression accept _ ih =>
    exact ⟨⟨ih.sound.table, ih.sound.nil⟩, ih.instances, ih.classes⟩

end Host

end HostBridge
