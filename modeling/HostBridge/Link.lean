import HostBridge.Engine
import HostBridge.Host.Basic
import HostBridge.Term.Printer

/-!
An engine linked with a host session.

The link keeps both sides in step. A class is known to the engine as a constant, a reference to
an object that stands for the class, and the id of that object is the id of the class. The host
learns of a class or of an ancestry only once the engine has accepted it, so that a registration
that was rejected can be tried again.
-/

namespace HostBridge

structure Link (σ α : Type) where
  engine : σ
  host : Host α
  /-- The ids of the classes that were registered on both sides. -/
  classIds : Table String InstanceId

namespace Link

variable {σ α β query : Type}

def new (engine : σ) (config : Config) : Link σ α := ⟨engine, .new config, []⟩

/-- A link with a host over a prepared class table, of which the engine is not told. -/
def withClasses (engine : σ) (config : Config) (classes : Classes α) : Link σ α :=
  ⟨engine, .withClasses config classes, []⟩

def classId? (l : Link σ α) (name : String) : Option InstanceId := l.classIds.lookup name

def onHost (step : Step (Host α) β) : Step (Link σ α) β :=
  Step.onPart (·.host) (fun l host => { l with host }) step

def onEngine (call : EStateM EngineError σ β) : Step (Link σ α) β :=
  Step.onPart (·.engine) (fun l engine => { l with engine }) (Step.widen call)

/-! ### Classes -/

section Calls

variable [EngineCalls σ query]

/-- The constant by which policies refer to a class. -/
def classConstant (name : String) (id : InstanceId) : Term :=
  .ofHost (.external ⟨id, none, some name, none, some id⟩)

/-- Registers a class on both sides. -/
def registerClass (c : Class α) : Step (Link σ α) Unit := do
  let l ← get
  if l.host.classes.contains c.name then throw (.classes (.nameTaken c.name))
  else
    let id ← onHost (Host.cacheNew (.classHandle c.name))
    onEngine (EngineCalls.registerConstant c.name (classConstant c.name id))
    onHost (Host.registerClass c)
    modify fun l => { l with classIds := Table.insert c.name id l.classIds }

/-- The ids of a chain of classes as terms, which hold ids below `2 ^ 31` only. -/
def chainIds (l : Link σ α) : List String → Except Error (List Term)
  | [] => .ok []
  | name :: rest =>
    match l.classId? name with
    | none => .error (.classes (.unknown name))
    | some id =>
      if id.toNat < 0x80000000 then do
        let ids ← chainIds l rest
        .ok (.ofHost (.number (.integer (Int32.ofNat id.toNat))) :: ids)
      else .error (.term (.mismatch "mro" "32-bit class id" (toString id)))

/-- Records the ancestors of a class on both sides. -/
def registerAncestry (name : String) (ancestors : List String) : Step (Link σ α) Unit := do
  let l ← get
  let chain ← Step.ofExcept (l.host.classes.validateAncestry name ancestors)
  let ids ← Step.ofExcept (l.chainIds chain)
  onEngine (EngineCalls.registerAncestry name (.ofHost (.list ids)))
  onHost (Host.registerAncestry name chain)

/-- Makes a value known to policies under a name. -/
def registerConstant (name : String) (v : Value α) : Step (Link σ α) Unit := do
  let t ← onHost (Host.toTerm v)
  onEngine (EngineCalls.registerConstant name t)

/-! ### Sources -/

/-- Sources as the engine takes them, a text and the name of its file if it has one. -/
def sourcesText [Json.Library] (sources : List (String × Option String)) : String :=
  Json.Library.write (.array (sources.map fun (text, file) =>
    .object [("src", .string text), ("filename", .ofOption .string file)]))

def loadSources [Json.Library] (sources : List (String × Option String)) : Step (Link σ α) Unit :=
  onEngine (EngineCalls.load (sourcesText sources))

def loadText [Json.Library] (text : String) : Step (Link σ α) Unit := loadSources [(text, none)]

/-- The sources that stand in files; nothing is loaded unless all of them can be read. -/
def readSources (read : String → Except String String) :
    List String → Except EngineError (List (String × Option String))
  | [] => .ok []
  | path :: rest => do
    let text ← (read path).mapError (.sourceUnreadable path)
    let sources ← readSources read rest
    .ok ((text, some path) :: sources)

def loadFiles [Json.Library] (read : String → Except String String) (paths : List String) :
    Step (Link σ α) Unit := do
  let sources ← Step.ofExcept (readSources read paths)
  loadSources sources

def clearRules : Step (Link σ α) Unit := onEngine EngineCalls.clearRules

/-! ### Queries -/

def queryText (text : String) : Step (Link σ α) query := do
  let l ← get
  onEngine (EngineCalls.newQuery text l.host.config.trace)

/-- Queries with a host value, most often a predicate. -/
def queryValue (v : Value α) : Step (Link σ α) query := do
  let t ← onHost (Host.toTerm v)
  let l ← get
  onEngine (EngineCalls.newQueryFromTerm t l.host.config.trace)

def buildFilterPlan (types results name classTag : String) : Step (Link σ α) String :=
  onEngine (EngineCalls.buildFilterPlan types results name classTag)

end Calls

/-! ### Messages -/

section Messages

variable [Engine σ query]

/-- Reads the engine's messages until none is left; a failure ends the reading. -/
def drain (s : σ) : EStateM.Result EngineError σ (List String) :=
  match _h : EngineCalls.nextMessage (σ := σ) s with
  | .ok none s' => .ok [] s'
  | .ok (some message) s' =>
    match drain s' with
    | .ok messages s'' => .ok (message :: messages) s''
    | .error e s'' => .error e s''
  | .error e s' => .error e s'
termination_by Engine.waiting s
decreasing_by exact Engine.waiting_nextMessage ‹_›

def messages : Step (Link σ α) (List String) := onEngine drain

end Messages

/-- The text that describes a link, given that of its engine. -/
def describe (engine : String) (l : Link σ α) : String :=
  s!"Polar \x7b engine: {engine}, host: {l.host.describe}, classes: {l.classIds.length} \x7d"

end Link

end HostBridge
