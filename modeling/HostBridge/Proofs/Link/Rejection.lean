import HostBridge.Proofs.Link.Registration

/-!
Registrations that fail.

A registration that the host declines changes nothing and does not reach the engine. One that the
engine rejects leaves the host's classes and their ids as they were: of an ancestry nothing is
left, and of a class no more than the handle that was to stand for it, under an id that was never
in use. So a registration can be tried again, as often as it takes.
-/

namespace HostBridge.Link

variable {σ α query : Type} [EngineCalls σ query] {l l' : Link σ α}

lemma Declines.ne_engine {c : Class α} {e : Error} (h : l.Declines c e) (err : EngineError) :
    e ≠ .engine err := by
  cases h <;> nofun

/-- The engine has rejected the constant of a class and gone on, which leaves a handle behind. -/
structure Rejected (c : Class α) (err : EngineError) (id : InstanceId) (l l' : Link σ α) :
    Prop where
  call : EngineCalls.registerConstant c.name (classConstant c.name id) l.engine =
    .error err l'.engine
  fresh : l.host.instances.next = some id ∧
    ∀ i o, l.host.instances.object? i = some o → i < id
  gains : ∃ address, l.host.instances.Gains l'.host.instances id ⟨address, .classHandle c.name⟩
  classes : l'.host.classes = l.host.classes
  config : l'.host.config = l.host.config
  nil : l'.host.nil = l.host.nil
  classIds : l'.classIds = l.classIds

/-- A class whose registration fails was declined by the host or rejected by the engine. -/
lemma registerClass_error (hs : l.host.instances.Sound l.host.fresh) {c : Class α} {e : Error}
    (h : registerClass c l = .error e l') :
    (l' = l ∧ ∀ err, e ≠ .engine err) ∨ ∃ err id, e = .engine err ∧ l.Rejected c err id l' := by
  rcases registerClass_cases hs c with
    ⟨e', hdeclines, he⟩ | ⟨hname, id, hnext, hfree, ⟨err, s, hcall, he⟩ | ⟨s, -, hok⟩⟩
  · rw [he] at h; cases h
    exact Or.inl ⟨rfl, hdeclines.ne_engine⟩
  · rw [he] at h; cases h
    refine Or.inr ⟨err, id, rfl, ⟨hcall, ⟨hnext, fun i o ho => ?_⟩, ⟨l.host.fresh, ?_⟩, rfl, rfl,
      rfl, rfl⟩⟩
    · exact hs.reachable.lt_next ho hnext
    · exact hs.gains_bind (.classHandle c.name) hfree
  · rw [hok] at h; cases h

/-- A class is registered if its name is free, an id is left, and the engine accepts it. -/
lemma registerClass_accepted (hs : l.host.instances.Sound l.host.fresh) {c : Class α}
    {id : InstanceId} {s : σ} (hname : l.host.classes.contains c.name = false)
    (hnext : l.host.instances.next = some id)
    (hcall : EngineCalls.registerConstant c.name (classConstant c.name id) l.engine = .ok () s) :
    ∃ l', registerClass c l = .ok () l' ∧ l'.host.classes.get c.name = .ok c ∧
      l'.classId? c.name = some id := by
  rcases registerClass_cases hs c with
    ⟨e, hdeclines, -⟩ | ⟨-, i, hi, -, ⟨err, s', hcall', -⟩ | ⟨s', -, hok⟩⟩
  · cases hdeclines with
    | nameTaken htaken => rw [hname] at htaken; cases htaken
    | exhausted _ hnone => rw [hnext] at hnone; cases hnone
  · cases hnext.symm.trans hi
    rw [hcall] at hcall'; cases hcall'
  · cases hnext.symm.trans hi
    exact ⟨_, hok, Classes.get_eq_ok.mpr (Table.lookup_insert_self _ _ _),
      Table.lookup_insert_self _ _ _⟩

/-- One attempt to register a class that the engine rejects. -/
def Attempt (c : Class α) (l l' : Link σ α) : Prop :=
  ∃ err, registerClass c l = .error (.engine err) l'

lemma Attempt.sound {c : Class α} (h : Attempt c l l')
    (hs : l.host.instances.Sound l.host.fresh) : l'.host.instances.Sound l'.host.fresh := by
  obtain ⟨err, h⟩ := h
  rcases registerClass_cases hs c with
    ⟨e, hdeclines, he⟩ | ⟨-, id, -, hfree, ⟨err', s, -, he⟩ | ⟨s, -, hok⟩⟩
  · rw [he] at h; cases h
    exact hs
  · rw [he] at h; cases h
    exact (grows_withHandle hs hfree c.name).table
  · rw [hok] at h; cases h

lemma sound_of_attempts {c : Class α} (h : Relation.ReflTransGen (Attempt c) l l')
    (hs : l.host.instances.Sound l.host.fresh) : l'.host.instances.Sound l'.host.fresh := by
  induction h with
  | refl => exact hs
  | tail _ hstep ih => exact hstep.sound ih

/-- An ancestry whose registration fails was declined by the host or rejected by the engine. -/
lemma registerAncestry_error {name : String} {ancestors : List String} {e : Error}
    (h : registerAncestry name ancestors l = .error e l') :
    (l' = l ∧ ∀ err, e ≠ .engine err) ∨
    ∃ ids err s, e = .engine err ∧ l' = { l with engine := s } ∧
      EngineCalls.registerAncestry name (.ofHost (.list ids)) l.engine = .error err s := by
  rcases registerAncestry_cases name ancestors l with
    ⟨e', hne, -, he⟩ | ⟨chain, ids, -, ⟨err, s, hcall, he⟩ | ⟨s, -, hok⟩⟩
  · rw [he] at h; cases h
    exact Or.inl ⟨rfl, hne⟩
  · rw [he] at h; cases h
    exact Or.inr ⟨ids, err, s, rfl, rfl, hcall⟩
  · rw [hok] at h; cases h

/-- A class whose id is said has one that a term can hold. -/
lemma id_of_says {chain : List String} {ids : List Term} (h : List.Forall₂ l.Says chain ids)
    {tag : String} (htag : tag ∈ chain) :
    ∃ id, l.classId? tag = some id ∧ id.toNat < 0x80000000 := by
  obtain ⟨t, -, id, n, hid, ht⟩ := forall₂_exists_left h.flip htag
  exact ⟨id, hid, ((says_iff hid).mp ⟨id, n, hid, ht⟩).1⟩

/-- An ancestry is registered exactly if its chain can be told and the engine accepts it. -/
lemma registerAncestry_ok_iff {name : String} {ancestors : List String} :
    (∃ l', registerAncestry name ancestors l = .ok () l') ↔
      (∀ tag ∈ Classes.chainOf name ancestors, l.host.classes.contains tag = true) ∧
      ∃ ids s, List.Forall₂ l.Says (Classes.chainOf name ancestors) ids ∧
        EngineCalls.registerAncestry name (.ofHost (.list ids)) l.engine = .ok () s := by
  have hchain : ∀ chain ids, l.HasChain name ancestors chain ids ↔
      chain = Classes.chainOf name ancestors ∧
      (∀ tag ∈ chain, l.host.classes.contains tag = true) ∧ List.Forall₂ l.Says chain ids := by
    intro chain ids
    rw [HasChain, Classes.validateAncestry_eq_ok, chainIds_eq_ok, and_assoc]
  rcases registerAncestry_cases name ancestors l with
    ⟨e, -, hno, he⟩ | ⟨chain, ids, hhas, hcall⟩
  · refine ⟨?_, ?_⟩
    · rintro ⟨l', h⟩
      rw [he] at h; cases h
    · rintro ⟨hall, ids, s, hids, -⟩
      exact absurd ((hchain _ ids).mpr ⟨rfl, hall, hids⟩) (hno _ ids)
  · obtain ⟨rfl, hall, hids⟩ := (hchain _ _).mp hhas
    refine ⟨?_, ?_⟩
    · rintro ⟨l', h⟩
      rcases hcall with ⟨err, s, -, he⟩ | ⟨s, hcall, -⟩
      · rw [he] at h; cases h
      · exact ⟨hall, ids, s, hids, hcall⟩
    · rintro ⟨-, ids', s, hids', hcall'⟩
      -- the terms that say a chain are determined by it
      have heq : ids' = ids := by
        have h := chainIds_eq_ok.mpr hids
        rw [chainIds_eq_ok.mpr hids'] at h
        exact Except.ok.inj h
      subst heq
      rcases hcall with ⟨err, s', hcall, -⟩ | ⟨s', -, hok⟩
      · rw [hcall'] at hcall; cases hcall
      · exact ⟨_, hok⟩

/--
**All or nothing.** Let the host's table of instances be sound, as it is in every session, and let
the engine be any whatever, such as one that keeps count of its calls. A class whose registration
fails leaves the classes and their ids as they were, and more than that: if the host declined it,
nothing has changed and the engine was not called; if the engine rejected it, one handle has been
bound under an id that is past all others. After any number of such rejections the class is
registered once the engine accepts it, if the name is still free and an id is left. An ancestry
whose registration fails leaves the whole host and the ids as they were, and the engine was not
called or has rejected it; and it is registered exactly if each class of the chain is registered
and has an id below `2 ^ 31`, and the engine accepts these ids.
-/
theorem registrations_all_or_nothing (hs : l.host.instances.Sound l.host.fresh) :
    (∀ c e l', registerClass c l = .error e l' →
      l'.host.classes = l.host.classes ∧ l'.classIds = l.classIds ∧
      ((l' = l ∧ ∀ err, e ≠ .engine err) ∨
        ∃ err id, e = .engine err ∧ l.Rejected c err id l')) ∧
    (∀ c l' id s, Relation.ReflTransGen (Attempt c) l l' →
      l'.host.classes.contains c.name = false → l'.host.instances.next = some id →
      EngineCalls.registerConstant c.name (classConstant c.name id) l'.engine = .ok () s →
      ∃ l'', registerClass c l' = .ok () l'' ∧ l''.host.classes.get c.name = .ok c ∧
        l''.classId? c.name = some id) ∧
    (∀ name ancestors e l', registerAncestry name ancestors l = .error e l' →
      l'.host = l.host ∧ l'.classIds = l.classIds ∧
      ((l'.engine = l.engine ∧ ∀ err, e ≠ .engine err) ∨
        ∃ ids err, e = .engine err ∧
          EngineCalls.registerAncestry name (.ofHost (.list ids)) l.engine =
            .error err l'.engine)) ∧
    (∀ name ancestors, (∃ l', registerAncestry name ancestors l = .ok () l') ↔
      (∀ tag ∈ Classes.chainOf name ancestors, l.host.classes.contains tag = true ∧
        ∃ id, l.classId? tag = some id ∧ id.toNat < 0x80000000) ∧
      ∃ ids s, List.Forall₂ l.Says (Classes.chainOf name ancestors) ids ∧
        EngineCalls.registerAncestry name (.ofHost (.list ids)) l.engine = .ok () s) := by
  refine ⟨fun c e l' h => ?_, fun c l' id s hattempts => ?_, fun name ancestors e l' h => ?_,
    fun name ancestors => ?_⟩
  · rcases registerClass_error hs h with ⟨rfl, hne⟩ | ⟨err, id, he, hrejected⟩
    · exact ⟨rfl, rfl, Or.inl ⟨rfl, hne⟩⟩
    · exact ⟨hrejected.classes, hrejected.classIds, Or.inr ⟨err, id, he, hrejected⟩⟩
  · exact registerClass_accepted (sound_of_attempts hattempts hs)
  · rcases registerAncestry_error h with ⟨rfl, hne⟩ | ⟨ids, err, s, he, rfl, hcall⟩
    · exact ⟨rfl, rfl, Or.inl ⟨rfl, hne⟩⟩
    · exact ⟨rfl, rfl, Or.inr ⟨ids, err, he, hcall⟩⟩
  · rw [registerAncestry_ok_iff]
    constructor
    · rintro ⟨hall, ids, s, hids, hcall⟩
      exact ⟨fun tag htag => ⟨hall tag htag, id_of_says hids htag⟩, ids, s, hids, hcall⟩
    · rintro ⟨hall, ids, s, hids, hcall⟩
      exact ⟨fun tag htag => (hall tag htag).1, ids, s, hids, hcall⟩

/-- An engine that refuses a number of constants, and then accepts all. -/
structure Reluctant where
  refusals : Nat

instance : EngineCalls Reluctant Unit where
  load _ := pure ()
  clearRules := pure ()
  registerConstant name _ := fun s =>
    match s.refusals with
    | 0 => .ok () s
    | n + 1 => .error (.rejected "register_constant" name) ⟨n⟩
  registerAncestry _ _ := pure ()
  newQuery _ _ := pure ()
  newQueryFromTerm _ _ := pure ()
  nextMessage := pure none
  buildFilterPlan _ _ _ _ := pure ""

/-- A class is refused twice, each time under an id of its own, and then accepted. -/
theorem registrations_all_or_nothing_reluctant :
    let l : Link Reluctant Unit := .new ⟨2⟩ {}
    let post : Class Unit := .named "Post"
    let once := Step.left (registerClass post) l
    let twice := Step.left (registerClass post) once
    l.host.instances.Sound l.host.fresh ∧
    (∃ err, l.Rejected post err 1 once) ∧ (∃ err, once.Rejected post err 2 twice) ∧
    ∃ l', registerClass post twice = .ok () l' ∧ l'.host.classes.get "Post" = .ok post ∧
      l'.classId? "Post" = some 3 := by
  intro l post once twice
  have hs : l.host.instances.Sound l.host.fresh := (Host.sound_withClasses {} .empty).table
  have hfirst : Attempt post l once := ⟨_, rfl⟩
  have hsecond : Attempt post once twice := ⟨_, rfl⟩
  obtain ⟨hreject, hretry, -, -⟩ := registrations_all_or_nothing hs
  obtain ⟨hreject', -⟩ := registrations_all_or_nothing (hfirst.sound hs)
  refine ⟨hs, ?_, ?_, hretry post twice 3 _ (.tail (.single hfirst) hsecond) rfl rfl rfl⟩
  · rcases (hreject post _ once rfl).2.2 with ⟨-, hne⟩ | ⟨err, id, -, hrejected⟩
    · exact absurd rfl (hne _)
    · obtain rfl : 1 = id := Option.some.inj hrejected.fresh.1
      exact ⟨err, hrejected⟩
  · rcases (hreject' post _ twice rfl).2.2 with ⟨-, hne⟩ | ⟨err, id, -, hrejected⟩
    · exact absurd rfl (hne _)
    · obtain rfl : 2 = id := Option.some.inj hrejected.fresh.1
      exact ⟨err, hrejected⟩

end HostBridge.Link
