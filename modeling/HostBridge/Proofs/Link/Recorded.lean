import HostBridge.Proofs.Link.Registration

/-!
Engines whose acceptances are on record, and the runs of a link.

Beside the state of a recorded engine stand the constants and the ancestries that it has accepted;
what it accepts and what it answers is left to the engine. A program cannot tell the difference,
so every run with an engine is a run with the recorded engine whose record is left out.
-/

namespace HostBridge

variable {σ α query β : Type}

/-! ### Recorded engines -/

/-- An engine and what it has accepted, latest first. -/
structure Recorded (σ : Type) where
  engine : σ
  constants : List (String × Term)
  ancestries : List (String × Term)

namespace Recorded

/-- A call of the engine, of which a note is taken if it is accepted. -/
def call (note : Recorded σ → Recorded σ) (step : EStateM EngineError σ β) :
    EStateM EngineError (Recorded σ) β := fun r =>
  match step r.engine with
  | .ok b s => .ok b (note { r with engine := s })
  | .error e s => .error e { r with engine := s }

def noteConstant (name : String) (value : Term) (r : Recorded σ) : Recorded σ :=
  { r with constants := (name, value) :: r.constants }

def noteAncestry (name : String) (chain : Term) (r : Recorded σ) : Recorded σ :=
  { r with ancestries := (name, chain) :: r.ancestries }

instance [EngineCalls σ query] : EngineCalls (Recorded σ) query where
  load sources := call id (EngineCalls.load sources)
  clearRules := call id EngineCalls.clearRules
  registerConstant name value :=
    call (noteConstant name value) (EngineCalls.registerConstant name value)
  registerAncestry name chain :=
    call (noteAncestry name chain) (EngineCalls.registerAncestry name chain)
  newQuery text trace := call id (EngineCalls.newQuery text trace)
  newQueryFromTerm term trace := call id (EngineCalls.newQueryFromTerm term trace)
  nextMessage := call id EngineCalls.nextMessage
  buildFilterPlan types results name classTag :=
    call id (EngineCalls.buildFilterPlan types results name classTag)

variable {r r' : Recorded σ}

/-- A call that is rejected leaves the record as it is. -/
lemma call_error {note : Recorded σ → Recorded σ} {step : EStateM EngineError σ β}
    {e : EngineError} (h : call note step r = .error e r') :
    r'.constants = r.constants ∧ r'.ancestries = r.ancestries := by
  unfold call at h
  split at h <;> cases h
  exact ⟨rfl, rfl⟩

lemma call_ok {note : Recorded σ → Recorded σ} {step : EStateM EngineError σ β} {b : β}
    (h : call note step r = .ok b r') : ∃ s, r' = note { r with engine := s } := by
  unfold call at h
  split at h <;> cases h
  exact ⟨_, rfl⟩

/-- The link without the record. -/
def forget (l : Link (Recorded σ) α) : Link σ α := ⟨l.engine.engine, l.host, l.classIds⟩

/-- The steps have the same outcome, the record left out. -/
def Mirrors (x : Step (Link (Recorded σ) α) β) (y : Step (Link σ α) β) : Prop :=
  ∀ l, (∀ b l', x l = .ok b l' → y (forget l) = .ok b (forget l')) ∧
    ∀ e l', x l = .error e l' → y (forget l) = .error e (forget l')

namespace Mirrors

variable {γ : Type}

lemma left {x : Step (Link (Recorded σ) α) β} {y : Step (Link σ α) β} (h : Mirrors x y)
    (l : Link (Recorded σ) α) : forget (Step.left x l) = Step.left y (forget l) := by
  rcases hx : x l with ⟨b, l'⟩ | ⟨e, l'⟩
  · rw [Step.left_of_ok hx, Step.left_of_ok ((h l).1 b l' hx)]
  · rw [Step.left_of_error hx, Step.left_of_error ((h l).2 e l' hx)]

lemma bind {x : Step (Link (Recorded σ) α) β} {y : Step (Link σ α) β}
    {f : β → Step (Link (Recorded σ) α) γ} {g : β → Step (Link σ α) γ} (h : Mirrors x y)
    (hf : ∀ b, Mirrors (f b) (g b)) : Mirrors (x >>= f) (y >>= g) := by
  intro l
  rcases hx : x l with ⟨b, l'⟩ | ⟨e, l'⟩
  · rw [Step.bind_of_ok hx, Step.bind_of_ok ((h l).1 b l' hx)]
    exact hf b l'
  · rw [Step.bind_of_error hx, Step.bind_of_error ((h l).2 e l' hx)]
    exact ⟨fun _ _ he => (by cases he), fun _ _ he => (by cases he; rfl)⟩

/-- A step that first looks at the link. -/
lemma get_bind {f : Link (Recorded σ) α → Step (Link (Recorded σ) α) β}
    {g : Link σ α → Step (Link σ α) β} (h : ∀ l, Mirrors (f l) (g (forget l))) :
    Mirrors (get >>= f) (get >>= g) := fun l => h l l

lemma throw (e : Error) : Mirrors (α := α) (σ := σ) (throw e : Step _ β) (throw e) :=
  fun _ => ⟨fun _ _ h => (by cases h), fun _ _ h => (by cases h; rfl)⟩

lemma ofExcept {ε : Type} [Coe ε Error] (x : Except ε β) :
    Mirrors (α := α) (σ := σ) (Step.ofExcept x) (Step.ofExcept x) := by
  intro l
  rcases x with e | b
  · exact ⟨fun _ _ h => (by cases h), fun _ _ h => (by cases h; rfl)⟩
  · exact ⟨fun _ _ h => (by cases h; rfl), fun _ _ h => (by cases h)⟩

lemma onHost (step : Step (Host α) β) :
    Mirrors (σ := σ) (Link.onHost step) (Link.onHost step) := by
  intro l
  rcases hstep : step l.host with ⟨b, h⟩ | ⟨e, h⟩
  · rw [Link.onHost_of_ok hstep, Link.onHost_of_ok (l := forget l) hstep]
    exact ⟨fun _ _ h => (by cases h; rfl), fun _ _ h => (by cases h)⟩
  · rw [Link.onHost_of_error hstep, Link.onHost_of_error (l := forget l) hstep]
    exact ⟨fun _ _ h => (by cases h), fun _ _ h => (by cases h; rfl)⟩

lemma onEngine (note : Recorded σ → Recorded σ) (hnote : ∀ r, (note r).engine = r.engine)
    (step : EStateM EngineError σ β) :
    Mirrors (α := α) (Link.onEngine (call note step)) (Link.onEngine step) := by
  intro l
  rcases hstep : step l.engine.engine with ⟨b, s⟩ | ⟨e, s⟩
  · have hcall : call note step l.engine = .ok b (note { l.engine with engine := s }) := by
      simp only [call, hstep]
    rw [Link.onEngine_of_ok hcall, Link.onEngine_of_ok (l := forget l) hstep]
    refine ⟨fun _ _ h => ?_, fun _ _ h => (by cases h)⟩
    cases h
    have hengine := hnote { l.engine with engine := s }
    simp only [forget, hengine]
  · have hcall : call note step l.engine = .error e { l.engine with engine := s } := by
      simp only [call, hstep]
    rw [Link.onEngine_of_error hcall, Link.onEngine_of_error (l := forget l) hstep]
    exact ⟨fun _ _ h => (by cases h), fun _ _ h => (by cases h; rfl)⟩

end Mirrors

lemma chainIds_forget (l : Link (Recorded σ) α) (chain : List String) :
    (forget l).chainIds chain = l.chainIds chain := by
  induction chain with
  | nil => rfl
  | cons name rest ih => rw [Link.chainIds, Link.chainIds, ih]; rfl

end Recorded

/-! ### Runs -/

namespace Link

/-- What a program does with a link. -/
inductive Action (α : Type) where
  | registerClass (c : Class α)
  | registerAncestry (name : String) (ancestors : List String)
  | queryValue (v : Value α)
  | call (c : Host.Call α)

section Runs

variable [EngineCalls σ query]

/-- The link that an action leaves, whether it succeeds or fails. -/
def Action.after (l : Link σ α) : Action α → Link σ α
  | registerClass c => Step.left (Link.registerClass c) l
  | registerAncestry name ancestors => Step.left (Link.registerAncestry name ancestors) l
  | queryValue v => Step.left (Link.queryValue v) l
  | call c => { l with host := c.after l.host }

/-- What the program hands in was made before and agrees with what the session holds. -/
def Action.Admitted (l : Link σ α) : Action α → Prop
  | queryValue v => (Host.Call.toTerm v).Admitted l.host
  | call c => c.Admitted l.host
  | _ => True

/-- The links that a run can lead to. -/
inductive Run (start : Link σ α) : Link σ α → Prop
  | start : Run start start
  | step {l : Link σ α} (hl : Run start l) {a : Action α} (ha : a.Admitted l) :
    Run start (a.after l)

/-- Recording an engine changes nothing else. -/
theorem forget_after (a : Action α) (l : Link (Recorded σ) α) :
    Recorded.forget (a.after l) = a.after (Recorded.forget l) := by
  cases a with
  | registerClass c =>
    refine Recorded.Mirrors.left (.get_bind fun l => ?_) l
    have hhost : (Recorded.forget l).host = l.host := rfl
    rw [hhost]
    split
    · exact .throw _
    · refine .bind (.onHost _) fun id => ?_
      refine .bind (.onEngine (Recorded.noteConstant _ _) (fun _ => rfl) _) fun _ => ?_
      refine .bind (.onHost _) fun _ l => ?_
      exact ⟨fun _ _ h => (by cases h; rfl), fun _ _ h => (by cases h)⟩
  | registerAncestry name ancestors =>
    refine Recorded.Mirrors.left (.get_bind fun l => ?_) l
    have hhost : (Recorded.forget l).host = l.host := rfl
    rw [hhost]
    refine .bind (.ofExcept _) fun chain => ?_
    rw [Recorded.chainIds_forget]
    refine .bind (.ofExcept _) fun ids => ?_
    exact .bind (.onEngine (Recorded.noteAncestry _ _) (fun _ => rfl) _) fun _ => .onHost _
  | queryValue v =>
    refine Recorded.Mirrors.left (.bind (.onHost _) fun t => .get_bind fun l => ?_) l
    exact .onEngine id (fun _ => rfl) _
  | call c => rfl

/-- Every run with an engine is one with the recorded engine, the record left out. -/
theorem Run.exists_recorded {engine : σ} {config : Config} {l : Link σ α}
    (hl : Run (.new engine config) l) :
    ∃ r : Link (Recorded σ) α, Run (.new ⟨engine, [], []⟩ config) r ∧ Recorded.forget r = l := by
  induction hl with
  | start => exact ⟨_, .start, rfl⟩
  | @step l _ a ha ih =>
    obtain ⟨r, hr, rfl⟩ := ih
    have hadmitted : a.Admitted r := by cases a <;> exact ha
    exact ⟨a.after r, hr.step hadmitted, forget_after a r⟩

end Runs

end Link

end HostBridge
