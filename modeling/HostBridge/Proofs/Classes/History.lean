import HostBridge.Proofs.Classes.Ancestry
import Mathlib.Data.List.Induction

/-!
The class table over a run of registrations.

Beside the table stands its history: the classes that have been registered, oldest first, and the
ancestors that have been recorded, latest first; registrations that failed leave no trace in it.
What the table says is a function of the history: a name stands for the one class registered under
it, a type for the class that was first registered over it, and the chain of a class for the
ancestors that were recorded last.
-/

namespace HostBridge.Classes

variable {α : Type}

/-- A registration. -/
inductive Action (α : Type) where
  | register (c : Class α)
  | registerAncestry (name : String) (ancestors : List String)

/-- A table and the registrations that have succeeded. -/
structure History (α : Type) where
  table : Classes α
  /-- The classes that have been registered, oldest first. -/
  classes : List (Class α)
  /-- The ancestors of classes as they were given, latest first. -/
  ancestries : List (String × List String)

namespace History

def init : History α := ⟨.empty, [], []⟩

def step (h : History α) : Action α → History α
  | .register c =>
    match Classes.register c h.table with
    | .ok _ t => ⟨t, h.classes ++ [c], h.ancestries⟩
    | .error _ t => { h with table := t }
  | .registerAncestry name ancestors =>
    match Classes.registerAncestry name ancestors h.table with
    | .ok _ t => ⟨t, h.classes, (name, ancestors) :: h.ancestries⟩
    | .error _ t => { h with table := t }

def run (actions : List (Action α)) : History α := actions.foldl step init

lemma run_append (actions more : List (Action α)) :
    run (actions ++ more) = more.foldl step (run actions) := by
  rw [run, run, List.foldl_append]

/-- The class that has been registered under a name. -/
def class? (h : History α) (name : String) : Option (Class α) :=
  h.classes.find? (·.name == name)

/-- The class that was first registered over a type. -/
def firstOver? (h : History α) (typeName : String) : Option (Class α) :=
  h.classes.find? (·.typeName == some typeName)

/-- The ancestors that were recorded last for a class. -/
def ancestors? (h : History α) (name : String) : Option (List String) :=
  h.ancestries.lookup name

/-- The table says what its history says. -/
structure Sound (h : History α) : Prop where
  lookup_eq : ∀ name, h.table.byName.lookup name = h.class? name
  nameOf_eq : ∀ typeName, h.table.nameOf? typeName = (h.firstOver? typeName).map (·.name)
  chain_eq : ∀ name, h.table.ancestries.lookup name = (h.ancestors? name).map (chainOf name)
  class_eq : ∀ c ∈ h.classes, h.class? c.name = some c
  known : ∀ {name ancestors}, h.ancestors? name = some ancestors →
    ∀ tag ∈ chainOf name ancestors, h.table.contains tag = true

lemma sound_init : Sound (init : History α) :=
  ⟨fun _ => rfl, fun _ => rfl, fun _ => rfl, nofun, nofun⟩

/-! ### One registration -/

/-- The history after a class of a new name has been registered. -/
def add (h : History α) (c : Class α) : History α :=
  ⟨h.table.add c, h.classes ++ [c], h.ancestries⟩

/-- The history after an ancestry has been recorded. -/
def addAncestry (h : History α) (name : String) (ancestors : List String) : History α where
  table := { h.table with
    ancestries := Table.insert name (chainOf name ancestors) h.table.ancestries }
  classes := h.classes
  ancestries := (name, ancestors) :: h.ancestries

/-- The ways in which a history goes on: as it was, by a new class, or by an ancestry. -/
lemma step_cases (h : History α) (a : Action α) :
    h.step a = h ∨
    (∃ c, h.table.contains c.name = false ∧ h.step a = h.add c) ∨
    (∃ name ancestors, (∀ tag ∈ chainOf name ancestors, h.table.contains tag = true) ∧
      h.step a = h.addAncestry name ancestors) := by
  cases a with
  | register c =>
    rcases hname : h.table.contains c.name with _ | _
    · exact Or.inr (Or.inl ⟨c, hname, by simp only [step, register_new hname, add]⟩)
    · exact Or.inl (by simp only [step, register_taken hname])
  | registerAncestry name ancestors =>
    rcases registerAncestry_cases name ancestors h.table with ⟨e, he⟩ | ⟨hall, hok⟩
    · exact Or.inl (by simp only [step, he])
    · exact Or.inr (Or.inr ⟨name, ancestors, hall, by simp only [step, hok, addAncestry]⟩)

lemma class?_add (h : History α) (c : Class α) (name : String) :
    (h.add c).class? name = (h.class? name).or (if c.name = name then some c else none) := by
  rw [class?, class?, add, List.find?_append]
  by_cases hname : c.name = name <;> simp [hname]

lemma firstOver?_add (h : History α) (c : Class α) (typeName : String) :
    (h.add c).firstOver? typeName =
      (h.firstOver? typeName).or (if c.typeName = some typeName then some c else none) := by
  rw [firstOver?, firstOver?, add, List.find?_append]
  by_cases htype : c.typeName = some typeName <;> simp [htype]

variable {h : History α}

lemma Sound.contains_iff (hs : h.Sound) {name : String} :
    h.table.contains name = true ↔ ∃ c ∈ h.classes, c.name = name := by
  rw [Classes.contains_iff, hs.lookup_eq, class?, ← Option.isSome_iff_exists, List.find?_isSome]
  simp only [beq_iff_eq]

lemma Sound.add (hs : h.Sound) {c : Class α} (hname : h.table.contains c.name = false) :
    (h.add c).Sound := by
  have hfree : h.class? c.name = none := by
    rw [← hs.lookup_eq]
    exact contains_eq_false_iff.mp hname
  have hlookup : ∀ name, (h.add c).table.byName.lookup name = (h.add c).class? name := by
    intro name
    have hinsert : (h.add c).table.byName.lookup name =
        if name = c.name then some c else h.table.byName.lookup name :=
      Table.lookup_insert c.name name c h.table.byName
    rw [hinsert, class?_add, hs.lookup_eq]
    by_cases heq : name = c.name
    · subst heq; simp [hfree]
    · simp [heq, Ne.symm heq]
  refine ⟨hlookup, fun typeName => ?_, hs.chain_eq, fun d hd => ?_, fun ha tag htag => ?_⟩
  · have hadd := nameOf?_add h.table c typeName
    rw [firstOver?_add, History.add, hadd, hs.nameOf_eq]
    by_cases htype : c.typeName = some typeName
    · rcases h.firstOver? typeName with _ | d <;> simp [htype]
    · simp [htype]
  · rw [class?_add]
    rcases List.mem_append.mp hd with hd | hd
    · rw [hs.class_eq d hd, Option.some_or]
    · obtain rfl := List.mem_singleton.mp hd
      rw [hfree, if_pos rfl, Option.none_or]
  · -- a class that was registered before still is
    obtain ⟨d, hd⟩ := Classes.contains_iff.mp (hs.known ha tag htag)
    rw [hs.lookup_eq] at hd
    rw [Classes.contains_iff, hlookup, class?_add, hd]
    exact ⟨d, rfl⟩

lemma Sound.addAncestry (hs : h.Sound) {name : String} {ancestors : List String}
    (hall : ∀ tag ∈ chainOf name ancestors, h.table.contains tag = true) :
    (h.addAncestry name ancestors).Sound := by
  refine ⟨hs.lookup_eq, hs.nameOf_eq, fun tag => ?_, hs.class_eq, fun {tag given} hgiven => ?_⟩
  · simp only [History.addAncestry, ancestors?, Table.lookup_insert, Table.lookup_cons]
    by_cases htag : name = tag
    · subst htag; simp
    · rw [if_neg (Ne.symm htag), if_neg htag]
      exact hs.chain_eq tag
  · simp only [History.addAncestry, ancestors?, Table.lookup_cons] at hgiven
    split at hgiven
    · rename_i htag
      cases htag; cases hgiven
      exact hall
    · exact hs.known hgiven

lemma Sound.step (hs : h.Sound) (a : Action α) : (h.step a).Sound := by
  rcases h.step_cases a with he | ⟨c, hname, he⟩ | ⟨name, ancestors, hall, he⟩
  · rw [he]; exact hs
  · rw [he]; exact hs.add hname
  · rw [he]; exact hs.addAncestry hall

/-- **The run invariant**: after every run of registrations the table says what its history says. -/
theorem run_sound (actions : List (Action α)) : (run actions).Sound := by
  induction actions using List.reverseRecOn with
  | nil => exact sound_init
  | append_singleton actions a ih =>
    rw [run_append]
    exact ih.step a

/-- The class first over a type stays the first as registrations go on. -/
lemma firstOver?_run {typeName : String} {c : Class α} (actions more : List (Action α))
    (hc : (run actions).firstOver? typeName = some c) :
    (run (actions ++ more)).firstOver? typeName = some c := by
  rw [run_append]
  induction more using List.reverseRecOn with
  | nil => exact hc
  | append_singleton more a ih =>
    rw [List.foldl_append]
    rcases (more.foldl step (run actions)).step_cases a with he | ⟨d, -, he⟩ | ⟨_, _, -, he⟩
    · rw [List.foldl_cons, List.foldl_nil, he]; exact ih
    · rw [List.foldl_cons, List.foldl_nil, he, firstOver?_add, ih, Option.some_or]
    · rw [List.foldl_cons, List.foldl_nil, he]; exact ih

/-! ### What the table says -/

lemma Sound.chain_valid (hs : h.Sound) {name : String} {chain : List String}
    (hchain : h.table.ancestries.lookup name = some chain) :
    h.table.contains name = true ∧ chain.head? = some name ∧
      ∀ tag ∈ chain, h.table.contains tag = true := by
  rw [hs.chain_eq, Option.map_eq_some_iff] at hchain
  obtain ⟨ancestors, ha, rfl⟩ := hchain
  exact ⟨hs.known ha name (mem_chainOf.mpr (Or.inl rfl)), head?_chainOf name ancestors,
    hs.known ha⟩

/-- The ancestors of a class are itself and those recorded for it last. -/
lemma Sound.mem_chain_iff (hs : h.Sound) {left right : String} :
    right ∈ (h.table.ancestries.lookup left).getD [left] ↔
      right = left ∨ ∃ ancestors, h.ancestors? left = some ancestors ∧ right ∈ ancestors := by
  rw [hs.chain_eq]
  rcases h.ancestors? left with _ | ancestors
  · simp
  · simp [mem_chainOf]

lemma Sound.class_of_nameOf (hs : h.Sound) {typeName name : String}
    (hname : h.table.nameOf? typeName = some name) :
    ∃ c, h.firstOver? typeName = some c ∧ h.table.get name = .ok c ∧
      c.typeName = some typeName := by
  rw [hs.nameOf_eq, Option.map_eq_some_iff] at hname
  obtain ⟨c, hfirst, rfl⟩ := hname
  refine ⟨c, hfirst, ?_, by simpa using List.find?_some hfirst⟩
  rw [get_eq_ok, hs.lookup_eq]
  exact hs.class_eq c (List.mem_of_find?_eq_some hfirst)

end History

/--
**Consistency.** After every run of registrations: a name is known exactly if a class has been
registered under it; a recorded chain belongs to a known class, starts with its name and holds
known names only; exactly the known classes have an ancestry; one class can be asked to be a
subclass of another exactly if both are known, it is one of itself, and it is one of another
exactly if that is among the ancestors that were recorded last; the class of an object is the
first one that was registered over its type, it is known as a class of that type, and it stays
the object's class however registrations go on; and a registration that fails changes nothing.
-/
theorem registrations_consistent (actions : List (Action α)) :
    let h := History.run actions
    (∀ name, h.table.contains name = true ↔ ∃ c ∈ h.classes, c.name = name) ∧
    (∀ name chain, h.table.ancestries.lookup name = some chain →
      h.table.contains name = true ∧ chain.head? = some name ∧
        ∀ tag ∈ chain, h.table.contains tag = true) ∧
    (∀ name, (∃ chain, h.table.ancestry name = .ok chain) ↔ h.table.contains name = true) ∧
    (∀ left right, ((∃ b, h.table.isSubclass left right = .ok b) ↔
        h.table.contains left = true ∧ h.table.contains right = true) ∧
      (h.table.isSubclass left right = .ok true ↔
        h.table.contains left = true ∧ h.table.contains right = true ∧ (right = left ∨
          ∃ ancestors, h.ancestors? left = some ancestors ∧ right ∈ ancestors))) ∧
    (∀ name, h.table.contains name = true → h.table.isSubclass name name = .ok true) ∧
    (∀ o : Object α, h.table.classOf? o = (h.firstOver? o.typeName).map (·.name)) ∧
    (∀ (o : Object α) name, h.table.classOf? o = some name →
      (∃ c, h.table.get name = .ok c ∧ c.typeName = some o.typeName) ∧
        ∀ more, (History.run (actions ++ more)).table.classOf? o = some name) ∧
    (∀ c e t', register c h.table = .error e t' → t' = h.table) ∧
    (∀ name ancestors e t', registerAncestry name ancestors h.table = .error e t' →
      t' = h.table) := by
  intro h
  have hs : h.Sound := History.run_sound actions
  have hsubclass : ∀ left right, h.table.isSubclass left right = .ok true ↔
      h.table.contains left = true ∧ h.table.contains right = true ∧ (right = left ∨
        ∃ ancestors, h.ancestors? left = some ancestors ∧ right ∈ ancestors) := by
    intro left right
    rw [isSubclass_eq_ok, ← hs.mem_chain_iff, eq_comm (a := true), List.contains_iff_mem]
  refine ⟨fun name => hs.contains_iff, fun name chain => hs.chain_valid, fun name => ?_,
    fun left right => ⟨?_, hsubclass left right⟩, fun name hname => ?_,
    fun o => hs.nameOf_eq o.typeName, fun o name hname => ?_, fun c e t' he => ?_,
    fun name ancestors e t' he => ?_⟩
  · simp only [ancestry_eq_ok, exists_and_left, exists_eq, and_true]
  · simp only [isSubclass_eq_ok, exists_and_left, exists_eq, and_true]
  · exact (hsubclass name name).mpr ⟨hname, hname, Or.inl rfl⟩
  · obtain ⟨c, hfirst, hget, htype⟩ := hs.class_of_nameOf hname
    refine ⟨⟨c, hget, htype⟩, fun more => ?_⟩
    have hmore := (History.run_sound (actions ++ more)).nameOf_eq o.typeName
    have hold := hs.nameOf_eq o.typeName
    rw [History.firstOver?_run actions more hfirst] at hmore
    rw [hfirst] at hold
    exact hmore.trans (hold.symm.trans hname)
  · rcases hname : h.table.contains c.name with _ | _
    · rw [register_new hname] at he; cases he
    · rw [register_taken hname] at he; cases he; rfl
  · rcases registerAncestry_cases name ancestors h.table with ⟨e', he'⟩ | ⟨-, hok⟩
    · rw [he'] at he; cases he; rfl
    · rw [hok] at he; cases he

end HostBridge.Classes
