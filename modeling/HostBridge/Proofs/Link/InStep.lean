import HostBridge.Proofs.Link.Recorded

/-!
The two sides of a link agree about classes.

On every run of registrations, queries and calls the host knows exactly the classes whose
constants the engine has accepted, under the ids that stand there, and records for each the
ancestry that the engine accepted last. A class is added and an ancestry recorded only once the
engine has accepted it, and calls of the host never change what an id is bound to.
-/

namespace HostBridge

variable {σ α query : Type}

namespace Link

/-! ### The invariant -/

/-- The two sides of a link agree about classes. -/
structure InStep (l : Link (Recorded σ) α) : Prop where
  host : l.host.Sound
  names : l.host.classes.names = Table.keys l.classIds
  handle : ∀ {name id}, l.classId? name = some id →
    ∃ o, l.host.instances.object? id = some o ∧ o.content = .classHandle name
  constants : ∀ name, l.engine.constants.filter (·.1 == name) =
    ((l.classId? name).map fun id => (name, classConstant name id)).toList
  ancestries : ∀ name, Option.Rel
    (fun t chain => ∃ ids, t = .ofHost (.list ids) ∧ List.Forall₂ l.Says chain ids)
    (l.engine.ancestries.lookup name) (l.host.classes.ancestries.lookup name)

variable {l : Link (Recorded σ) α}

lemma InStep.contains_iff (hl : l.InStep) {name : String} :
    l.host.classes.contains name = true ↔ ∃ id, l.classId? name = some id := by
  rw [Classes.contains, Table.contains_iff_mem_keys, ← Option.isSome_iff_exists]
  have hkeys : Table.keys l.host.classes.byName = Table.keys l.classIds := hl.names
  rw [hkeys, ← Table.contains_iff_mem_keys]
  rfl

/-- The host's table of instances may grow, and the engine may change behind its record. -/
lemma InStep.grows (hl : l.InStep) {h : Host α} {r : Recorded σ} (hg : l.host.Grows h)
    (hconstants : r.constants = l.engine.constants)
    (hancestries : r.ancestries = l.engine.ancestries) :
    ({ l with host := h, engine := r } : Link (Recorded σ) α).InStep := by
  have hsound := hg.sound hl.host
  obtain ⟨s, fresh, hext, hs⟩ := hg
  refine ⟨hsound, hl.names, fun hid => ?_, fun name => ?_, fun name => ?_⟩
  · obtain ⟨o, ho, hcontent⟩ := hl.handle hid
    exact ⟨o, hext.object ho, hcontent⟩
  · simp only [hconstants]; exact hl.constants name
  · simp only [hancestries]; exact hl.ancestries name

/-- What is said of classes goes on to be said when a class of a new name is added. -/
lemma Says.insert {name : String} {id : InstanceId} (hfree : l.classId? name = none)
    {l' : Link (Recorded σ) α} (hids : l'.classIds = Table.insert name id l.classIds)
    {tag : String} {t : Term} (h : l.Says tag t) : l'.Says tag t := by
  obtain ⟨i, n, hi, ht, hn⟩ := h
  have hne : tag ≠ name := by
    rintro rfl
    rw [hfree] at hi; cases hi
  refine ⟨i, n, ?_, ht, hn⟩
  rw [classId?, hids, Table.lookup_insert_of_ne hne]
  exact hi

/-- The engine accepts the constant of a class, and the host adds the class. -/
lemma InStep.addClass (hl : l.InStep) {c : Class α} {id : InstanceId}
    (hname : l.host.classes.contains c.name = false)
    (hg : l.host.Grows (withHandle l.host c.name id)) {r : Recorded σ}
    (hconstants : r.constants = (c.name, classConstant c.name id) :: l.engine.constants)
    (hancestries : r.ancestries = l.engine.ancestries) :
    ({ engine := r
       host := { withHandle l.host c.name id with classes := l.host.classes.add c }
       classIds := Table.insert c.name id l.classIds } : Link (Recorded σ) α).InStep := by
  have hfree : l.classId? c.name = none := by
    rcases hid : l.classId? c.name with _ | i
    · rfl
    · rw [hl.contains_iff.mpr ⟨i, hid⟩] at hname; cases hname
  have hsound := hg.sound hl.host
  refine ⟨⟨hsound.table, hsound.nil⟩, Table.keys_insert hl.names _ _ _, fun {name i} hi => ?_,
    fun name => ?_, fun name => ?_⟩
  · rw [classId?, Table.lookup_insert] at hi
    split at hi
    · rename_i heq
      cases hi
      subst heq
      exact ⟨⟨l.host.fresh, .classHandle c.name⟩,
        by simp only [withHandle, Instances.object?_bind, if_pos], rfl⟩
    · obtain ⟨o, ho, hcontent⟩ := hl.handle hi
      exact ⟨o, hg.extends.object ho, hcontent⟩
  · have hold := hl.constants name
    simp only [hconstants, List.filter_cons, classId?, Table.lookup_insert]
    by_cases heq : name = c.name
    · -- the name is new, so there is no earlier constant
      subst heq
      rw [hfree] at hold
      simp [hold]
    · rw [if_neg heq, if_neg (by simpa using Ne.symm heq)]
      exact hold
  · have hold := hl.ancestries name
    simp only [hancestries]
    exact option_rel_imp (fun t chain ⟨ids, ht, hids⟩ =>
      ⟨ids, ht, hids.imp fun _ _ => Says.insert hfree rfl⟩) hold

/-- The engine accepts the ids of an ancestry, and the host records the ancestry. -/
lemma InStep.addAncestry (hl : l.InStep) {name : String} {chain : List String}
    {ids : List Term} (hids : List.Forall₂ l.Says chain ids) {r : Recorded σ}
    (hconstants : r.constants = l.engine.constants)
    (hancestries : r.ancestries = (name, .ofHost (.list ids)) :: l.engine.ancestries) :
    ({ l with
        engine := r
        host := { l.host with classes := { l.host.classes with
          ancestries := Table.insert name chain l.host.classes.ancestries } } } :
      Link (Recorded σ) α).InStep := by
  refine ⟨⟨hl.host.table, hl.host.nil⟩, hl.names, hl.handle, fun tag => ?_, fun tag => ?_⟩
  · simp only [hconstants]; exact hl.constants tag
  · simp only [hancestries, Table.lookup_cons, Table.lookup_insert]
    by_cases htag : name = tag
    · rw [if_pos htag, if_pos htag.symm]
      exact .some ⟨ids, rfl, hids⟩
    · rw [if_neg htag, if_neg (Ne.symm htag)]
      exact hl.ancestries tag

/-! ### Steps and runs -/

variable [EngineCalls σ query]

lemma InStep.queryValue (hl : l.InStep) {v : Value α}
    (hv : (Host.Call.toTerm v).Admitted l.host) : (Step.left (Link.queryValue v) l).InStep := by
  have hg : l.host.Grows (Step.left (Host.toTerm v) l.host) := Host.grows_after hl.host hv
  rcases queryValue_cases v l with ⟨e, h, hterm, hq⟩ | ⟨t, h, hterm, ⟨e, r, hr, hq⟩ | ⟨q, r, hr, hq⟩⟩
  · rw [Step.left_of_error hterm] at hg
    rw [Step.left_of_error hq]
    exact hl.grows hg rfl rfl
  · obtain ⟨hconstants, hancestries⟩ := Recorded.call_error hr
    rw [Step.left_of_ok hterm] at hg
    rw [Step.left_of_error hq]
    exact hl.grows hg hconstants hancestries
  · obtain ⟨s, rfl⟩ := Recorded.call_ok hr
    rw [Step.left_of_ok hterm] at hg
    rw [Step.left_of_ok hq]
    exact hl.grows hg rfl rfl

lemma InStep.after (hl : l.InStep) {a : Action α} (ha : a.Admitted l) : (a.after l).InStep := by
  cases a with
  | registerClass c =>
    rw [Action.after]
    rcases registerClass_cases hl.host.table c with
      ⟨e, -, he⟩ | ⟨hname, id, -, hfree, hcall | hcall⟩
    · rw [Step.left_of_error he]; exact hl
    · obtain ⟨e, r, hr, he⟩ := hcall
      have hg := grows_withHandle hl.host.table hfree c.name
      obtain ⟨hconstants, hancestries⟩ := Recorded.call_error hr
      rw [Step.left_of_error he]
      exact hl.grows hg hconstants hancestries
    · obtain ⟨r, hr, hok⟩ := hcall
      have hg := grows_withHandle hl.host.table hfree c.name
      obtain ⟨s, rfl⟩ := Recorded.call_ok hr
      rw [Step.left_of_ok hok]
      exact hl.addClass hname hg rfl rfl
  | registerAncestry name ancestors =>
    rw [Action.after]
    rcases registerAncestry_cases name ancestors l with
      ⟨e, -, -, he⟩ | ⟨chain, ids, ⟨-, hids⟩, hcall | hcall⟩
    · rw [Step.left_of_error he]; exact hl
    · obtain ⟨e, r, hr, he⟩ := hcall
      obtain ⟨hconstants, hancestries⟩ := Recorded.call_error hr
      rw [Step.left_of_error he]
      exact hl.grows (Host.Grows.refl hl.host) hconstants hancestries
    · obtain ⟨r, hr, hok⟩ := hcall
      obtain ⟨s, rfl⟩ := Recorded.call_ok hr
      rw [Step.left_of_ok hok]
      exact hl.addAncestry (chainIds_eq_ok.mp hids) rfl rfl
  | queryValue v => exact hl.queryValue ha
  | call c => exact hl.grows (Host.grows_after hl.host ha) rfl rfl

lemma inStep_new (engine : σ) (config : Config) :
    (Link.new ⟨engine, [], []⟩ config : Link (Recorded σ) α).InStep :=
  ⟨Host.sound_withClasses config .empty, rfl, fun hid => (by cases hid), fun _ => rfl,
    fun _ => .none⟩

/-- **The run invariant**: on every run the two sides agree about classes. -/
theorem Run.inStep {engine : σ} {config : Config}
    (hl : Run (Link.new ⟨engine, [], []⟩ config) l) : l.InStep := by
  induction hl with
  | start => exact inStep_new engine config
  | step _ ha ih => exact ih.after ha

/-! ### What is on record -/

lemma InStep.classId?_inj (h : l.InStep) {m n : String} {id : InstanceId}
    (hm : l.classId? m = some id) (hn : l.classId? n = some id) : m = n := by
  obtain ⟨o, ho, hcontent⟩ := h.handle hm
  obtain ⟨p, hp, hcontent'⟩ := h.handle hn
  rw [ho] at hp
  cases hp
  rw [hcontent] at hcontent'
  cases hcontent'
  rfl

lemma InStep.ancestry_of_accepted (h : l.InStep) {name : String} {t : Term}
    (hname : l.host.classes.contains name = true)
    (ht : l.engine.ancestries.lookup name = some t) :
    ∃ chain ids, l.host.classes.ancestry name = .ok chain ∧ t = .ofHost (.list ids) ∧
      List.Forall₂ l.Says chain ids := by
  have hancestry := h.ancestries name
  rw [ht] at hancestry
  rw [Classes.ancestry, if_pos hname]
  rcases hchain : l.host.classes.ancestries.lookup name with _ | chain
  · rw [hchain] at hancestry; cases hancestry
  · rw [hchain] at hancestry
    cases hancestry with
    | some hrel =>
      obtain ⟨ids, rfl, hids⟩ := hrel
      exact ⟨chain, ids, rfl, rfl, hids⟩

lemma InStep.ancestry_of_none (h : l.InStep) {name : String}
    (hname : l.host.classes.contains name = true)
    (hnone : l.engine.ancestries.lookup name = none) :
    l.host.classes.ancestry name = .ok [name] := by
  have hancestry := h.ancestries name
  rw [hnone] at hancestry
  rw [Classes.ancestry, if_pos hname]
  rcases hchain : l.host.classes.ancestries.lookup name with _ | chain
  · rfl
  · rw [hchain] at hancestry; cases hancestry

/--
**In step.** However an engine accepts and rejects, on every run of registrations, queries and
calls of the host: the classes that the host knows are those that have an id; no two of them have
the same id; the id of a class is bound to the object that stands for it, and the one constant
that the engine has accepted under its name refers to that id; if the engine has accepted an
ancestry of the class, then what it accepted last lists the ids of the host's ancestry; and if it
has not, the class is its own sole ancestor.
-/
theorem run_in_step {engine : σ} {config : Config}
    (hl : Run (Link.new ⟨engine, [], []⟩ config) l) :
    l.host.classes.names = Table.keys l.classIds ∧
    (∀ m n id, l.classId? m = some id → l.classId? n = some id → m = n) ∧
    (∀ name id, l.classId? name = some id →
      (∃ address, l.host.getInstance id = .ok ⟨address, .classHandle name⟩) ∧
      l.engine.constants.filter (·.1 == name) =
        [(name, .ofHost (.external ⟨id, none, some name, none, some id⟩))]) ∧
    (∀ name, l.host.classes.contains name = true →
      (∀ t, l.engine.ancestries.lookup name = some t →
        ∃ chain ids, l.host.classes.ancestry name = .ok chain ∧ t = .ofHost (.list ids) ∧
          List.Forall₂ l.Says chain ids) ∧
      (l.engine.ancestries.lookup name = none → l.host.classes.ancestry name = .ok [name])) := by
  have h : l.InStep := hl.inStep
  refine ⟨h.names, fun m n id => h.classId?_inj, fun name id hid => ⟨?_, ?_⟩,
    fun name hname => ⟨fun t => h.ancestry_of_accepted hname, h.ancestry_of_none hname⟩⟩
  · obtain ⟨⟨address, content⟩, ho, rfl⟩ := h.handle hid
    refine ⟨address, ?_⟩
    rw [Host.getInstance, Result.mapError_eq_ok]
    exact Instances.get_eq_ok.mpr ho
  · have hconstants := h.constants name
    rw [hid] at hconstants
    exact hconstants

/-- An engine that refuses one name. -/
structure Picky where
  refused : String

instance : EngineCalls Picky Unit where
  load _ := pure ()
  clearRules := pure ()
  registerConstant name _ := fun s =>
    if name = s.refused then .error (.rejected "register_constant" name) s else .ok () s
  registerAncestry _ _ := pure ()
  newQuery _ _ := pure ()
  newQueryFromTerm _ _ := pure ()
  nextMessage := pure none
  buildFilterPlan _ _ _ _ := pure ""

/-- A class is refused, two are accepted, the host makes an object, and an ancestry is recorded. -/
def pickyLink : Link (Recorded Picky) Unit :=
  [.registerClass (Class.named "Ghost"), .registerClass (Class.named "Post"),
    .call (.cacheNew (.foreign "Post" "" ())), .registerClass (Class.named "Doc"),
    .registerAncestry "Post" ["Doc"]].foldl Action.after (.new ⟨⟨"Ghost"⟩, [], []⟩ {})

theorem run_in_step_picky :
    let number := fun n => Term.ofHost (.number (.integer n))
    Run (.new ⟨⟨"Ghost"⟩, [], []⟩ {}) pickyLink ∧
    pickyLink.host.classes.names = Table.keys pickyLink.classIds ∧
    pickyLink.classId? "Ghost" = none ∧
    (∃ address, pickyLink.host.getInstance 2 = .ok ⟨address, .classHandle "Post"⟩) ∧
    (∃ chain, pickyLink.host.classes.ancestry "Post" = .ok chain ∧
      List.Forall₂ pickyLink.Says chain [number 2, number 4]) ∧
    pickyLink.host.classes.ancestry "Doc" = .ok ["Doc"] := by
  intro number
  have hadmitted : ∀ l : Link (Recorded Picky) Unit,
      (Action.call (.cacheNew (.foreign "Post" "" ()))).Admitted l :=
    fun l => ⟨fun ho => ho.elim, fun ho => ho.elim, fun ho => ho.elim⟩
  have hrun : Run (.new ⟨⟨"Ghost"⟩, [], []⟩ {}) pickyLink :=
    .step (a := .registerAncestry "Post" ["Doc"]) (.step (a := .registerClass (.named "Doc"))
      (.step (.step (a := .registerClass (.named "Post"))
        (.step (a := .registerClass (.named "Ghost")) .start trivial) trivial)
          (hadmitted _)) trivial) trivial
  obtain ⟨hnames, -, hids, hancestries⟩ := run_in_step hrun
  obtain ⟨chain, ids, hchain, ht, hsays⟩ :=
    (hancestries "Post" rfl).1 (.ofHost (.list [number 2, number 4])) rfl
  cases ht
  exact ⟨hrun, hnames, rfl, (hids "Post" 2 rfl).1, ⟨chain, hchain, hsays⟩,
    (hancestries "Doc" rfl).2 rfl⟩

end Link

end HostBridge
