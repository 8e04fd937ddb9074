import HostBridge.Link
import HostBridge.Proofs.Classes.Ancestry
import HostBridge.Proofs.Host.Session

/-!
What a registration does on both sides of a link.

A class is registered once the engine has accepted its constant, and so is an ancestry once the
engine has accepted its ids. What the host is asked to do after that cannot fail any more: the
class is still unknown to it, and an ancestry that has been completed is complete.
-/

namespace HostBridge

variable {α : Type}

namespace Host

variable {h : Host α}

lemma registerClass_new {c : Class α} (hname : h.classes.contains c.name = false) :
    registerClass c h = .ok () { h with classes := h.classes.add c } := by
  have hstep := Step.widen_eq_ok.mpr (Classes.register_new hname)
  rw [registerClass, onClasses, Step.onPart_of_ok hstep]

lemma registerAncestry_of_valid {name : String} {ancestors chain : List String}
    (hvalid : h.classes.validateAncestry name ancestors = .ok chain) :
    registerAncestry name chain h = .ok () { h with
      classes := { h.classes with
        ancestries := Table.insert name chain h.classes.ancestries } } := by
  have hstep := Step.widen_eq_ok.mpr (Classes.registerAncestry_of_valid hvalid)
  rw [registerAncestry, onClasses, Step.onPart_of_ok hstep]

end Host

namespace Link

variable {σ query : Type} {l : Link σ α}

/-! ### Ids of classes -/

/-- The term says the id of the class. -/
def Says (l : Link σ α) (name : String) (t : Term) : Prop :=
  ∃ id n, l.classId? name = some id ∧ t = .ofHost (.number (.integer n)) ∧ n.toInt = id.toNat

/-- An id that cannot be said is not the engine's fault. -/
lemma chainIds_ne_engine {chain : List String} {e : Error} (h : l.chainIds chain = .error e)
    (err : EngineError) : e ≠ .engine err := by
  induction chain with
  | nil => cases h
  | cons name rest ih =>
    rw [chainIds] at h
    split at h
    · cases h; nofun
    · split at h
      · rcases hrest : l.chainIds rest with e' | ids
        · rw [hrest] at h; cases h
          exact ih hrest
        · rw [hrest] at h; cases h
      · cases h; nofun

lemma says_iff {name : String} {id : InstanceId} (hid : l.classId? name = some id) {t : Term} :
    l.Says name t ↔
      id.toNat < 0x80000000 ∧ t = .ofHost (.number (.integer (Int32.ofNat id.toNat))) := by
  constructor
  · rintro ⟨i, n, hi, rfl, hn⟩
    cases hid.symm.trans hi
    have hlt : id.toNat < 0x80000000 := by
      have hbound := Int32.toInt_lt n
      omega
    refine ⟨hlt, ?_⟩
    rw [Int32.toInt_inj.mp (hn.trans (Int32.toInt_ofNat_of_lt hlt).symm)]
  · rintro ⟨hlt, rfl⟩
    exact ⟨id, _, hid, rfl, Int32.toInt_ofNat_of_lt hlt⟩

/-- The ids of a chain are what its terms say. -/
lemma chainIds_eq_ok {chain : List String} {ids : List Term} :
    l.chainIds chain = .ok ids ↔ List.Forall₂ l.Says chain ids := by
  induction chain generalizing ids with
  | nil => simp [chainIds, eq_comm]
  | cons name rest ih =>
    rw [chainIds, List.forall₂_cons_left_iff]
    rcases hid : l.classId? name with _ | id
    · refine ⟨nofun, ?_⟩
      rintro ⟨t, ids', ⟨i, n, hi, -⟩, -⟩
      cases hid.symm.trans hi
    · simp only [says_iff hid]
      split
      · rename_i hlt
        rw [Result.bind_eq_ok]
        constructor
        · rintro ⟨ids', hrest, h⟩
          cases h
          exact ⟨_, ids', ⟨hlt, rfl⟩, ih.mp hrest, rfl⟩
        · rintro ⟨_, ids', ⟨-, rfl⟩, hrest, rfl⟩
          exact ⟨ids', ih.mpr hrest, rfl⟩
      · rename_i hlt
        refine ⟨nofun, ?_⟩
        rintro ⟨_, _, ⟨hlt', -⟩, -⟩
        exact absurd hlt' hlt

/-! ### Calls on either side -/

lemma onHost_of_ok {β : Type} {step : Step (Host α) β} {b : β} {h : Host α}
    (hstep : step l.host = .ok b h) : onHost step l = .ok b { l with host := h } :=
  Step.onPart_of_ok hstep

lemma onHost_of_error {β : Type} {step : Step (Host α) β} {e : Error} {h : Host α}
    (hstep : step l.host = .error e h) : onHost step l = .error e { l with host := h } :=
  Step.onPart_of_error hstep

lemma onEngine_of_ok {β : Type} {call : EStateM EngineError σ β} {b : β} {s : σ}
    (h : call l.engine = .ok b s) : onEngine call l = .ok b { l with engine := s } := by
  have hwiden : Step.widen call l.engine = .ok b s := Step.widen_eq_ok.mpr h
  exact Step.onPart_of_ok hwiden

lemma onEngine_of_error {β : Type} {call : EStateM EngineError σ β} {e : EngineError} {s : σ}
    (h : call l.engine = .error e s) : onEngine call l = .error e { l with engine := s } := by
  have hwiden : Step.widen call l.engine = .error (.engine e) s := by
    rw [Step.widen, h]; rfl
  exact Step.onPart_of_error hwiden

variable [EngineCalls σ query]

/-! ### Registrations -/

/-- The host with the object that stands for a class. -/
def withHandle (h : Host α) (name : String) (id : InstanceId) : Host α :=
  { h with
    instances := h.instances.bind ⟨h.fresh, .classHandle name⟩ id
    fresh := h.fresh + 1 }

/-- The host with a handle more is one that it can become by calls. -/
lemma grows_withHandle {h : Host α} (hs : h.instances.Sound h.fresh) {id : InstanceId}
    (hfree : h.instances.object? id = none) (name : String) : h.Grows (withHandle h name id) := by
  refine .intro _ _ (Instances.Extends.bind _ _ hfree) ?_
  have hr := Instances.registerWithId_free (o := ⟨h.fresh, .classHandle name⟩) hfree
  have htable := hs.after_new (a := .registerWithId ⟨h.fresh, .classHandle name⟩ id) rfl
  rwa [Instances.Action.after, Step.left_of_ok hr] at htable

/-- Why a class is not offered to the engine. -/
inductive Declines (l : Link σ α) (c : Class α) : Error → Prop
  | nameTaken (hname : l.host.classes.contains c.name = true) :
    Declines l c (.classes (.nameTaken c.name))
  | exhausted (hname : l.host.classes.contains c.name = false)
    (hnext : l.host.instances.next = none) : Declines l c (.instances .exhausted)

/-- The ways in which the registration of a class can end. -/
lemma registerClass_cases (hs : l.host.instances.Sound l.host.fresh) (c : Class α) :
    (∃ e, l.Declines c e ∧ registerClass c l = .error e l) ∨
    l.host.classes.contains c.name = false ∧
    ∃ id, l.host.instances.next = some id ∧ l.host.instances.object? id = none ∧
      ((∃ e s, EngineCalls.registerConstant c.name (classConstant c.name id) l.engine = .error e s ∧
        registerClass c l =
          .error (.engine e) { l with engine := s, host := withHandle l.host c.name id }) ∨
      (∃ s, EngineCalls.registerConstant c.name (classConstant c.name id) l.engine = .ok () s ∧
        registerClass c l = .ok ()
          { engine := s
            host := { withHandle l.host c.name id with classes := l.host.classes.add c }
            classIds := Table.insert c.name id l.classIds })) := by
  have hget : (get : Step (Link σ α) (Link σ α)) l = .ok l l := rfl
  unfold registerClass
  rw [Step.bind_of_ok hget]
  rcases hname : l.host.classes.contains c.name with _ | _
  · rw [if_neg Bool.false_ne_true]
    rcases Host.cacheNew_cases hs (.classHandle c.name) with
      ⟨hnext, he⟩ | ⟨id, hnext, hfree, hcache⟩
    · exact Or.inl ⟨_, .exhausted hname hnext, Step.bind_of_error (onHost_of_error he)⟩
    · right
      refine ⟨rfl, id, hnext, hfree, ?_⟩
      have hhost : onHost (Host.cacheNew (.classHandle c.name)) l =
          .ok id { l with host := withHandle l.host c.name id } := onHost_of_ok hcache
      rw [Step.bind_of_ok hhost]
      rcases hcall : EngineCalls.registerConstant c.name (classConstant c.name id) l.engine with
        ⟨_, s⟩ | ⟨e, s⟩
      · right
        refine ⟨s, rfl, ?_⟩
        have hclass : (withHandle l.host c.name id).registerClass c = .ok ()
            { withHandle l.host c.name id with classes := l.host.classes.add c } :=
          Host.registerClass_new hname
        have hengine := onEngine_of_ok (l := { l with host := withHandle l.host c.name id }) hcall
        rw [Step.bind_of_ok hengine, Step.bind_of_ok (onHost_of_ok hclass)]
        rfl
      · exact Or.inl ⟨e, s, rfl, Step.bind_of_error (onEngine_of_error hcall)⟩
  · exact Or.inl ⟨_, .nameTaken hname, rfl⟩

/-- The ids of the class's chain can be told to the engine. -/
def HasChain (l : Link σ α) (name : String) (ancestors chain : List String)
    (ids : List Term) : Prop :=
  l.host.classes.validateAncestry name ancestors = .ok chain ∧ l.chainIds chain = .ok ids

/-- The ways in which the registration of an ancestry can end. -/
lemma registerAncestry_cases (name : String) (ancestors : List String) (l : Link σ α) :
    (∃ e, (∀ err, e ≠ .engine err) ∧ (∀ chain ids, ¬ l.HasChain name ancestors chain ids) ∧
      registerAncestry name ancestors l = .error e l) ∨
    ∃ chain ids, l.HasChain name ancestors chain ids ∧
      ((∃ e s, EngineCalls.registerAncestry name (.ofHost (.list ids)) l.engine = .error e s ∧
        registerAncestry name ancestors l = .error (.engine e) { l with engine := s }) ∨
      (∃ s, EngineCalls.registerAncestry name (.ofHost (.list ids)) l.engine = .ok () s ∧
        registerAncestry name ancestors l = .ok () { l with
          engine := s
          host := { l.host with classes := { l.host.classes with
            ancestries := Table.insert name chain l.host.classes.ancestries } } })) := by
  have hget : (get : Step (Link σ α) (Link σ α)) l = .ok l l := rfl
  unfold registerAncestry
  rw [Step.bind_of_ok hget]
  rcases hvalid : l.host.classes.validateAncestry name ancestors with e | chain
  · refine Or.inl ⟨e, fun err => (nofun), fun chain ids hchain => ?_, rfl⟩
    rw [HasChain, hvalid] at hchain
    cases hchain.1
  have hchain : (Step.ofExcept (.ok chain : Except ClassError (List String)) :
      Step (Link σ α) (List String)) l = .ok chain l := rfl
  rw [Step.bind_of_ok hchain]
  rcases hids : l.chainIds chain with e | ids
  · refine Or.inl ⟨e, chainIds_ne_engine hids, fun chain' ids hchain' => ?_, rfl⟩
    rw [HasChain, hvalid] at hchain'
    cases hchain'.1
    cases hids.symm.trans hchain'.2
  right
  refine ⟨chain, ids, ⟨hvalid, hids⟩, ?_⟩
  have hlist : (Step.ofExcept (.ok ids : Except Error (List Term)) :
      Step (Link σ α) (List Term)) l = .ok ids l := rfl
  rw [Step.bind_of_ok hlist]
  rcases hcall : EngineCalls.registerAncestry name (.ofHost (.list ids)) l.engine with
    ⟨_, s⟩ | ⟨e, s⟩
  · right
    refine ⟨s, rfl, ?_⟩
    rw [Step.bind_of_ok (onEngine_of_ok hcall)]
    exact onHost_of_ok (Host.registerAncestry_of_valid hvalid)
  · exact Or.inl ⟨e, s, rfl, Step.bind_of_error (onEngine_of_error hcall)⟩

/-! ### Queries -/

/-- The ways in which a query with a value can end. -/
lemma queryValue_cases (v : Value α) (l : Link σ α) :
    (∃ e h, Host.toTerm v l.host = .error e h ∧
      queryValue v l = .error e { l with host := h }) ∨
    ∃ t h, Host.toTerm v l.host = .ok t h ∧
      ((∃ e s, EngineCalls.newQueryFromTerm t h.config.trace l.engine = .error e s ∧
        queryValue v l = .error e { l with engine := s, host := h }) ∨
      (∃ q s, EngineCalls.newQueryFromTerm t h.config.trace l.engine = .ok q s ∧
        queryValue v l = .ok q { l with engine := s, host := h })) := by
  unfold queryValue
  rcases hterm : Host.toTerm v l.host with ⟨t, h⟩ | ⟨e, h⟩
  · right
    refine ⟨t, h, rfl, ?_⟩
    have hget : (get : Step (Link σ α) (Link σ α)) { l with host := h } =
      .ok { l with host := h } { l with host := h } := rfl
    rw [Step.bind_of_ok (onHost_of_ok hterm), Step.bind_of_ok hget]
    rcases hcall : EngineCalls.newQueryFromTerm t h.config.trace l.engine with ⟨q, s⟩ | ⟨e, s⟩
    · exact Or.inr ⟨q, s, rfl, onEngine_of_ok (l := { l with host := h }) hcall⟩
    · exact Or.inl ⟨e, s, rfl, onEngine_of_error (l := { l with host := h }) hcall⟩
  · exact Or.inl ⟨e, h, rfl, Step.bind_of_error (onHost_of_error hterm)⟩

end Link

end HostBridge
