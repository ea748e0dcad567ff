import Gzscript.Library.Transition
import Mathlib.Data.List.Nodup
import Mathlib.Logic.Function.Basic

/-!
# The build manager

`GzBuildManager` keeps a queue of compile requests and at most one running compiler. `queueCompile`
accepts a request for a script, `startNext` takes requests off the queue until a compiler runs or it
has to wait for a lock, and `completeActive` publishes the module of a compiler that has ended. A
`pump` runs the last two.

What these functions learn from the file system and the compiler is an `Environment`: the answers
for one round of the loop of `start_next`, or for one completion. Rounds are given as a list; a list
that ends early leaves the loop between two rounds, where the handler of an emitted signal would
run. The `history` records what the manager does, newest first, and is never read.
-/

set_option autoImplicit false
set_option relaxedAutoImplicit false

namespace Gzscript.Build.Manager

/-- Scripts by identity, as the source compares them by their pointers. -/
abbrev ScriptId : Type := ℕ

/-- The part of a plan that decides what is done with it. The lock and the stamp lie beside the
output. -/
structure CompilePlan where
  key : String
  output : String
  deriving DecidableEq

/-- What a plan is left as when it is moved from. -/
def CompilePlan.moved : CompilePlan := ⟨"", ""⟩

structure CompileRequest where
  script : ScriptId
  resourcePath : String
  source : String
  generation : UInt64
  prepared : Option CompilePlan
  deriving DecidableEq

/-- The request as it was accepted. -/
def CompileRequest.bare (request : CompileRequest) : CompileRequest :=
  { request with prepared := none }

/-- The fields of a script that the manager reads or writes. A module is known by its path. -/
structure GzScript where
  path : String
  source : String
  compileGeneration : UInt64
  module : Option String
  valid : Bool
  deriving DecidableEq

structure ActiveCompile where
  request : CompileRequest
  plan : CompilePlan
  deriving DecidableEq

inductive Event
  | accepted (request : CompileRequest)
  /-- `start_next` publishes a module from the cache. -/
  | publishedCached (request : CompileRequest) (plan : CompilePlan)
  /-- `complete_active` publishes what was compiled by a plan, after making the plan again. -/
  | publishedCompiled (request : CompileRequest) (plan recomputed : CompilePlan)
  | changed (script : ScriptId)
  deriving DecidableEq

structure GzBuildManager where
  scripts : ScriptId → GzScript
  pending : List CompileRequest
  active : Option ActiveCompile
  shutdownStarted : Bool
  history : List Event

inductive LockResult
  | acquired
  | busy
  | error
  deriving DecidableEq

/-- The answers of the file system and the compiler. -/
structure Environment where
  /-- `prepare` for a path and a source. -/
  prepare : String → String → Option CompilePlan
  /-- `prepare` when the lock of a reused plan is held. -/
  prepareAgain : String → String → Option CompilePlan
  tryLock : CompilePlan → LockResult
  cacheStampMatches : CompilePlan → Bool
  /-- `gz_atomic_replace` of the output, or a peer has published it. -/
  replaceOutput : CompilePlan → Bool
  /-- `GzCompiledModule::load` of the output. -/
  load : CompilePlan → Bool
  /-- The output is still there after it failed to load. -/
  outputExists : CompilePlan → Bool
  writeAdapter : CompilePlan → Bool
  startCompiler : CompilePlan → Bool
  exitCode : CompilePlan → Int

namespace GzBuildManager

/-! ### Queueing -/

/-- Replace one script. -/
def setScript (manager : GzBuildManager) (id : ScriptId) (script : GzScript) : GzBuildManager :=
  { manager with scripts := Function.update manager.scripts id script }

/-- `set_source` of a script. -/
def setSource (manager : GzBuildManager) (id : ScriptId) (source : String) : GzBuildManager :=
  manager.setScript id { manager.scripts id with source := source }

@[simp] theorem setSource_source (manager : GzBuildManager) (id : ScriptId) (source : String) :
    ((manager.setSource id source).scripts id).source = source := by
  simp [setSource, setScript]

@[simp] theorem setSource_module (manager : GzBuildManager) (id : ScriptId) (source : String) :
    ((manager.setSource id source).scripts id).module = (manager.scripts id).module := by
  simp [setSource, setScript]

def log (manager : GzBuildManager) (event : Event) : GzBuildManager :=
  { manager with history := event :: manager.history }

/-- The request is for the script as it is now. -/
def asksFor (request : CompileRequest) (id : ScriptId) (script : GzScript) : Bool :=
  request.script = id ∧ request.resourcePath = script.path ∧ request.source = script.source

/-- Replace the first request of a script, if there is one. -/
def replaceQueued (request : CompileRequest) : List CompileRequest → Option (List CompileRequest)
  | [] => none
  | queued :: pending =>
    if queued.script = request.script then some (request :: pending)
    else (replaceQueued request pending).map (queued :: ·)

/-- The request that a script as it is now makes. -/
def requestFor (manager : GzBuildManager) (id : ScriptId) : CompileRequest :=
  let script := manager.scripts id
  ⟨id, script.path, script.source, script.compileGeneration + 1, none⟩

/-- Accept a request: the generation of its script advances, and it takes the place of the one that
is queued for the script. -/
def accept (manager : GzBuildManager) (id : ScriptId) : GzBuildManager :=
  let request := manager.requestFor id
  let script := { manager.scripts id with compileGeneration := request.generation }
  let pending := (replaceQueued request manager.pending).getD (manager.pending ++ [request])
  { (manager.setScript id script).log (.accepted request) with pending := pending }

/-- `queue_compile`. -/
def queueCompile (manager : GzBuildManager) (id : ScriptId) : GzBuildManager :=
  let script := manager.scripts id
  if manager.shutdownStarted then manager
  else if script.path = "" then manager
  else if manager.active.any fun active ↦ asksFor active.request id script then manager
  else if manager.pending.any fun queued ↦ asksFor queued id script then manager
  else manager.accept id

/-! ### Starting a compiler -/

/-- A request is dropped: the script keeps the module it has. -/
def giveUp (manager : GzBuildManager) (id : ScriptId) : GzBuildManager :=
  let script := manager.scripts id
  (manager.setScript id { script with valid := script.module.isSome }).log (.changed id)

/-- `publish_module` with the module at a path. -/
def publishModule (manager : GzBuildManager) (id : ScriptId) (path : String) : GzBuildManager :=
  manager.setScript id { manager.scripts id with module := some path, valid := true }

def pushFront (manager : GzBuildManager) (request : CompileRequest) : GzBuildManager :=
  { manager with pending := request :: manager.pending }

/-- The rest of a round once the lock is held: load the module from the cache or start the
compiler. -/
def runPlan (environment : Environment) (request : CompileRequest) (plan : CompilePlan)
    (manager : GzBuildManager) : GzBuildManager :=
  if environment.cacheStampMatches plan then
    if (manager.scripts request.script).module = some plan.output then
      manager.setScript request.script { manager.scripts request.script with valid := true }
    else if environment.load plan then
      (manager.publishModule request.script plan.output).log (.publishedCached request plan)
    else if environment.outputExists plan then manager.giveUp request.script
    else manager.pushFront request
  else if ¬ environment.writeAdapter plan then manager.giveUp request.script
  else if ¬ environment.startCompiler plan then manager.giveUp request.script
  else { manager with active := some ⟨request, plan⟩ }

/-- One round of `start_next` for the request it has taken off the queue, and whether the loop goes
on. -/
def startRequest (environment : Environment) (request : CompileRequest)
    (manager : GzBuildManager) : GzBuildManager × Bool :=
  if request.generation ≠ (manager.scripts request.script).compileGeneration then (manager, true)
  else
    match request.prepared with
    | none =>
      match environment.prepare request.resourcePath request.source with
      | none => (manager.giveUp request.script, true)
      | some plan =>
        match environment.tryLock plan with
        | .busy => (manager.pushFront { request with prepared := some plan }, false)
        | .error => (manager.giveUp request.script, true)
        | .acquired => (manager.runPlan environment request plan, true)
    | some plan =>
      -- the plan is moved out of the request, which keeps what is left of it
      let request := { request with prepared := some CompilePlan.moved }
      match environment.tryLock plan with
      | .busy => (manager.pushFront { request with prepared := some plan }, false)
      | .error => (manager.giveUp request.script, true)
      | .acquired =>
        match environment.prepareAgain request.resourcePath request.source with
        | none => (manager.giveUp request.script, true)
        | some current =>
          if current.key ≠ plan.key then
            (manager.pushFront { request with prepared := some current }, false)
          else
            (manager.runPlan environment request current, true)

/-- `start_next`. -/
def startNext : List Environment → GzBuildManager → GzBuildManager
  | [], manager => manager
  | environment :: environments, manager =>
    if manager.shutdownStarted then manager
    else
      match manager.active, manager.pending with
      | none, request :: pending =>
        let (next, continues) :=
          startRequest environment request { manager with pending := pending }
        if continues then startNext environments next else next
      | _, _ => manager

/-! ### Completion -/

/-- `finish` for the plan that was compiled, after `prepare` has given the same key. -/
def finishActive (environment : Environment) (completed : ActiveCompile)
    (recomputed : CompilePlan) (manager : GzBuildManager) : GzBuildManager :=
  if environment.replaceOutput completed.plan ∧ environment.load completed.plan then
    (manager.publishModule completed.request.script completed.plan.output).log
      (.publishedCompiled completed.request completed.plan recomputed)
  else
    manager.giveUp completed.request.script

/-- `complete_active` up to its last call of `start_next`. -/
def settleActive (environment : Environment) (completed : ActiveCompile)
    (manager : GzBuildManager) : GzBuildManager :=
  let request := completed.request
  if request.generation ≠ (manager.scripts request.script).compileGeneration then manager
  else if environment.exitCode completed.plan ≠ 0 then manager.giveUp request.script
  else if manager.pending.any fun queued ↦ queued.script = request.script then manager
  else
    match environment.prepare request.resourcePath request.source with
    | none => manager.giveUp request.script
    | some current =>
      if current.key ≠ completed.plan.key then manager.pushFront request
      else manager.finishActive environment completed current

/-- `complete_active`. -/
def completeActive (environment : Environment) (environments : List Environment)
    (completed : ActiveCompile) (manager : GzBuildManager) : GzBuildManager :=
  startNext environments (settleActive environment completed { manager with active := none })

/-- `pump`. The compiler has ended when there is an environment for its completion. -/
def pump (environments : List Environment) (completion : Option (Environment × List Environment))
    (manager : GzBuildManager) : GzBuildManager :=
  if manager.shutdownStarted then manager
  else
    let started := startNext environments manager
    match started.active, completion with
    | some completed, some (environment, later) =>
      completeActive environment later completed started
    | _, _ => started

/-- `shutdown`. -/
def shutdown (manager : GzBuildManager) : GzBuildManager :=
  { manager with pending := [], active := none, shutdownStarted := true }

/-! ### What a pump keeps -/

section Keeps

variable (property : GzBuildManager → Prop) (condition : Environment → Prop)

/-- What every round keeps, `start_next` keeps. -/
theorem startNext_keeps
    (hround : ∀ environment manager request pending, condition environment → property manager →
      manager.active = none → manager.pending = request :: pending →
      property (startRequest environment request { manager with pending := pending }).1)
    {environments : List Environment}
    (henvironments : ∀ environment ∈ environments, condition environment)
    {manager : GzBuildManager} (h : property manager) :
    property (startNext environments manager) := by
  induction environments generalizing manager with
  | nil => exact h
  | cons environment environments ih =>
    have hhead := henvironments environment List.mem_cons_self
    have htail : ∀ environment ∈ environments, condition environment := fun other hother ↦
      henvironments other (List.mem_cons_of_mem _ hother)
    rw [startNext]
    split
    · exact h
    · split
      next request pending hactive hpending =>
        have hnext := hround environment manager request pending hhead h hactive hpending
        dsimp only
        split
        · exact ih htail hnext
        · exact hnext
      next => exact h

/-- What every round and every completion keeps, a pump keeps. -/
theorem pump_keeps
    (hround : ∀ environment manager request pending, condition environment → property manager →
      manager.active = none → manager.pending = request :: pending →
      property (startRequest environment request { manager with pending := pending }).1)
    (hcompletion : ∀ environment manager completed, condition environment → property manager →
      manager.active = some completed →
      property (settleActive environment completed { manager with active := none }))
    {environments : List Environment} {completion : Option (Environment × List Environment)}
    (henvironments : ∀ environment ∈ environments, condition environment)
    (hlater : ∀ environment later, completion = some (environment, later) →
      condition environment ∧ ∀ other ∈ later, condition other)
    {manager : GzBuildManager} (h : property manager) :
    property (manager.pump environments completion) := by
  have hstarted := startNext_keeps property condition hround henvironments h
  rw [pump]
  split
  · exact h
  · dsimp only
    split
    next completed environment later hactive =>
      obtain ⟨hcondition, hothers⟩ := hlater environment later rfl
      exact startNext_keeps property condition hround hothers
        (hcompletion environment _ completed hcondition hstarted hactive)
    next => exact hstarted

end Keeps

end GzBuildManager

/-! ### Runs -/

inductive ManagerOp
  | queueCompile (script : ScriptId)
  | pump (environments : List Environment) (completion : Option (Environment × List Environment))
  /-- The source of a script is set. -/
  | setSource (script : ScriptId) (source : String)
  /-- A script is given a path. -/
  | setPath (script : ScriptId) (path : String)
  | shutdown

def step (manager : GzBuildManager) : ManagerOp → GzBuildManager
  | .queueCompile id => manager.queueCompile id
  | .pump environments completion => manager.pump environments completion
  | .setSource id source => manager.setSource id source
  | .setPath id path => manager.setScript id { manager.scripts id with path := path }
  | .shutdown => manager.shutdown

/-- A manager that has done nothing yet. -/
def initial (scripts : ScriptId → GzScript) : GzBuildManager where
  scripts := scripts
  pending := []
  active := none
  shutdownStarted := false
  history := []

end Gzscript.Build.Manager
