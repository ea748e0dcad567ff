import Gzscript.Build.Manager
import Gzscript.Library.TemporaryFiles

/-!
# The working files of the build manager

A plan has three working files: the generated adapter, what the compiler writes, and the stamp
before it is published. Every way out of `finish`, `start_next`, `complete_active`, `compile` and
`shutdown` deletes the ones that may exist there. `Accounted` is the invariant: the working files
there are belong to the plan that is active. Each function keeps it, so without an active job no
working file is left (`no_working_file_left`).

The functions are those of `Manager` with their files and request numbers, and with `compile`; what
they do to the manager, `Manager` does (`reaches_exec`). A deletion succeeds, and a compiler writes
only while it is active. A write that fails may have made its file.
-/

set_option autoImplicit false
set_option relaxedAutoImplicit false

namespace Gzscript.Build.WorkingFiles

open Library.TemporaryFiles Library.Transition Manager

/-! ### Paths -/

/-- A file of the cache, by what it is for. The paths of different files differ: the working files
of a plan have the number of its request in their names. -/
inductive Path
  | output (output : String)
  | hashPath (output : String)
  | generated (key : String) (requestId : ℕ)
  | compileOutput (key : String) (requestId : ℕ)
  | stampOutput (key : String) (requestId : ℕ)
  deriving DecidableEq

/-- A working file of a plan. -/
def Path.IsTemporary : Path → Prop
  | output _ | hashPath _ => False
  | generated _ _ | compileOutput _ _ | stampOutput _ _ => True

/-- A plan with the number of the request it was made for. -/
structure NumberedPlan where
  plan : CompilePlan
  requestId : ℕ

namespace NumberedPlan

def generated (plan : NumberedPlan) : Path := .generated plan.plan.key plan.requestId

def compileOutput (plan : NumberedPlan) : Path := .compileOutput plan.plan.key plan.requestId

def stampOutput (plan : NumberedPlan) : Path := .stampOutput plan.plan.key plan.requestId

end NumberedPlan

/-! ### What the manager learns -/

/-- The answers for one round, one completion or one attempt to compile. A write that fails may have
made the file. -/
structure Outcomes extends Environment where
  /-- `cache_stamp_matches` in `finish`: a peer has published the output. -/
  peerPublished : CompilePlan → Bool
  peer_replaced : ∀ plan, peerPublished plan = true → replaceOutput plan = true
  leavesAdapter : CompilePlan → Bool
  writeStamp : CompilePlan → Bool
  leavesStamp : CompilePlan → Bool
  replaceStamp : CompilePlan → Bool
  /-- The compiler makes its output while it starts. -/
  compilerWrites : CompilePlan → Bool

/-- The manager with the files it works with. -/
structure Workspace where
  manager : GzBuildManager
  nextRequestId : ℕ
  /-- The number of the active plan. -/
  activeId : ℕ
  files : Files Path

/-! ### `finish` -/

/-- `finish` from the load on: whether there is a module. -/
def loadOutput (outcomes : Outcomes) (plan : NumberedPlan) (files : Files Path) :
    Bool × Files Path :=
  let files := remove plan.compileOutput files
  if ¬ outcomes.load plan.plan then (false, remove (.output plan.plan.output) files)
  else
    let files := write (outcomes.writeStamp plan.plan) (outcomes.leavesStamp plan.plan)
      plan.stampOutput files
    if outcomes.writeStamp plan.plan && outcomes.replaceStamp plan.plan then
      (true, remove plan.stampOutput
        (rename plan.stampOutput (.hashPath plan.plan.output) files))
    else (true, remove plan.stampOutput files)

def finish (outcomes : Outcomes) (plan : NumberedPlan) (needsCompile : Bool) (exitCode : Int)
    (files : Files Path) : Bool × Files Path :=
  let files := remove plan.stampOutput (remove plan.generated files)
  if exitCode ≠ 0 then (false, remove plan.compileOutput files)
  else if ¬ needsCompile then loadOutput outcomes plan files
  else if outcomes.peerPublished plan.plan then
    loadOutput outcomes plan (remove plan.compileOutput files)
  else if outcomes.replaceOutput plan.plan then
    loadOutput outcomes plan (rename plan.compileOutput (.output plan.plan.output) files)
  else (false, remove plan.compileOutput files)

namespace Workspace

/-- The next request number is used. -/
def counted (workspace : Workspace) : Workspace :=
  { workspace with nextRequestId := workspace.nextRequestId + 1 }

def withManager (workspace : Workspace) (manager : GzBuildManager) : Workspace :=
  { workspace with manager := manager }

def withFiles (workspace : Workspace) (files : Files Path) : Workspace :=
  { workspace with files := files }

/-! ### `start_next` -/

/-- The rest of a round once the lock is held. -/
def runPlan (outcomes : Outcomes) (request : CompileRequest) (plan : NumberedPlan)
    (workspace : Workspace) : Workspace :=
  let manager := workspace.manager
  if outcomes.cacheStampMatches plan.plan then
    if (manager.scripts request.script).module = some plan.plan.output then
      workspace.withManager (manager.setScript request.script
        { manager.scripts request.script with valid := true })
    else
      match finish outcomes plan false 0 workspace.files with
      | (true, files) =>
        (workspace.withFiles files).withManager
          ((manager.publishModule request.script plan.plan.output).log
            (.publishedCached request plan.plan))
      | (false, files) =>
        (workspace.withFiles files).withManager
          (if outcomes.outputExists plan.plan then manager.giveUp request.script
            else manager.pushFront request)
  else
    let files := write (outcomes.writeAdapter plan.plan) (outcomes.leavesAdapter plan.plan)
      plan.generated workspace.files
    if ¬ outcomes.writeAdapter plan.plan then
      (workspace.withFiles (remove plan.generated files)).withManager
        (manager.giveUp request.script)
    else
      let files := remove plan.compileOutput files
      if ¬ outcomes.startCompiler plan.plan then
        (workspace.withFiles (remove plan.generated files)).withManager
          (manager.giveUp request.script)
      else
        { manager := { manager with active := some ⟨request, plan.plan⟩ }
          nextRequestId := workspace.nextRequestId
          activeId := plan.requestId
          files := write (outcomes.compilerWrites plan.plan) false plan.compileOutput files }

/-- One round of `start_next`, and whether the loop goes on. -/
def startRequest (outcomes : Outcomes) (request : CompileRequest) (workspace : Workspace) :
    Workspace × Bool :=
  let manager := workspace.manager
  if request.generation ≠ (manager.scripts request.script).compileGeneration then
    (workspace, true)
  else
    match request.prepared with
    | none =>
      let requestId := workspace.nextRequestId
      let workspace := workspace.counted
      match outcomes.prepare request.resourcePath request.source with
      | none => (workspace.withManager (manager.giveUp request.script), true)
      | some plan =>
        match outcomes.tryLock plan with
        | .busy =>
          (workspace.withManager (manager.pushFront { request with prepared := some plan }), false)
        | .error => (workspace.withManager (manager.giveUp request.script), true)
        | .acquired => (workspace.runPlan outcomes request ⟨plan, requestId⟩, true)
    | some plan =>
      let request := { request with prepared := some CompilePlan.moved }
      match outcomes.tryLock plan with
      | .busy =>
        (workspace.withManager (manager.pushFront { request with prepared := some plan }), false)
      | .error => (workspace.withManager (manager.giveUp request.script), true)
      | .acquired =>
        let requestId := workspace.nextRequestId
        let workspace := workspace.counted
        match outcomes.prepareAgain request.resourcePath request.source with
        | none => (workspace.withManager (manager.giveUp request.script), true)
        | some current =>
          if current.key ≠ plan.key then
            (workspace.withManager (manager.pushFront { request with prepared := some current }),
              false)
          else (workspace.runPlan outcomes request ⟨current, requestId⟩, true)

/-- `start_next`. -/
def startNext : List Outcomes → Workspace → Workspace
  | [], workspace => workspace
  | outcomes :: rounds, workspace =>
    if workspace.manager.shutdownStarted then workspace
    else
      match workspace.manager.active, workspace.manager.pending with
      | none, request :: pending =>
        let (next, continues) := startRequest outcomes request
          (workspace.withManager { workspace.manager with pending := pending })
        if continues then startNext rounds next else next
      | _, _ => workspace

/-! ### `complete_active` -/

/-- The working files of an outdated compilation are removed. -/
def discard (plan : NumberedPlan) (workspace : Workspace) : Workspace :=
  workspace.withFiles (remove plan.generated (remove plan.compileOutput workspace.files))

/-- `complete_active` up to its last call of `start_next`. -/
def settleActive (outcomes : Outcomes) (completed : ActiveCompile) (plan : NumberedPlan)
    (workspace : Workspace) : Workspace :=
  let request := completed.request
  let manager := workspace.manager
  if request.generation ≠ (manager.scripts request.script).compileGeneration then
    workspace.discard plan
  else if outcomes.exitCode plan.plan ≠ 0 then
    (workspace.withFiles
      (finish outcomes plan true (outcomes.exitCode plan.plan) workspace.files).2).withManager
        (manager.giveUp request.script)
  else if manager.pending.any fun queued ↦ queued.script = request.script then
    workspace.discard plan
  else
    let workspace := workspace.counted
    match outcomes.prepare request.resourcePath request.source with
    | none => (workspace.discard plan).withManager (manager.giveUp request.script)
    | some current =>
      if current.key ≠ plan.plan.key then
        (workspace.discard plan).withManager (manager.pushFront request)
      else
        match finish outcomes plan true 0 workspace.files with
        | (true, files) =>
          (workspace.withFiles files).withManager
            ((manager.publishModule request.script plan.plan.output).log
              (.publishedCompiled request plan.plan current))
        | (false, files) =>
          (workspace.withFiles files).withManager (manager.giveUp request.script)

/-- `complete_active`. -/
def completeActive (outcomes : Outcomes) (rounds : List Outcomes) (completed : ActiveCompile)
    (workspace : Workspace) : Workspace :=
  startNext rounds (settleActive outcomes completed ⟨completed.plan, workspace.activeId⟩
    (workspace.withManager { workspace.manager with active := none }))

/-- What one call of `pump` finds: the rounds of `start_next`, and the completion if the compiler
has ended. -/
structure PumpCall where
  rounds : List Outcomes
  completion : Option (Outcomes × List Outcomes)

def pump (call : PumpCall) (workspace : Workspace) : Workspace :=
  if workspace.manager.shutdownStarted then workspace
  else
    let started := startNext call.rounds workspace
    match started.manager.active, call.completion with
    | some completed, some (outcomes, later) => completeActive outcomes later completed started
    | _, _ => started

/-! ### `compile` and `shutdown` -/

/-- `is_compiling`. -/
def isCompiling (workspace : Workspace) : Bool :=
  workspace.manager.active.isSome || !workspace.manager.pending.isEmpty

/-- `wait_for_all`. Fewer calls than it takes leave it in the middle, where a handler would run. -/
def waitForAll : List PumpCall → Workspace → Workspace
  | [], workspace => workspace
  | call :: calls, workspace =>
    if workspace.isCompiling then waitForAll calls (workspace.pump call) else workspace

/-- One pass of the loop of `compile`, and whether there is another. -/
def compileOnce (outcomes : Outcomes) (resourcePath source : String) (workspace : Workspace) :
    Workspace × Bool :=
  let requestId := workspace.nextRequestId
  let workspace := workspace.counted
  match outcomes.prepare resourcePath source with
  | none => (workspace, false)
  | some prepared =>
    let plan : NumberedPlan := ⟨prepared, requestId⟩
    if outcomes.tryLock prepared ≠ .acquired then (workspace, false)
    else if outcomes.cacheStampMatches prepared then
      match finish outcomes plan false 0 workspace.files with
      | (true, files) => (workspace.withFiles files, false)
      | (false, files) => (workspace.withFiles files, !outcomes.outputExists prepared)
    else
      let files := write (outcomes.writeAdapter prepared) (outcomes.leavesAdapter prepared)
        plan.generated workspace.files
      if ¬ outcomes.writeAdapter prepared then
        (workspace.withFiles (remove plan.generated files), false)
      else
        let files := write (outcomes.compilerWrites prepared) false plan.compileOutput
          (remove plan.compileOutput files)
        if outcomes.exitCode prepared ≠ 0 then
          (workspace.withFiles (finish outcomes plan true (outcomes.exitCode prepared) files).2,
            false)
        else
          let workspace := (workspace.withFiles files).counted
          match outcomes.prepareAgain resourcePath source with
          | none => (workspace.discard plan, false)
          | some current =>
            if current.key ≠ prepared.key then (workspace.discard plan, true)
            else (workspace.withFiles (finish outcomes plan true 0 files).2, false)

/-- The loop of `compile`. -/
def compileAttempts (resourcePath source : String) : List Outcomes → Workspace → Workspace
  | [], workspace => workspace
  | outcomes :: attempts, workspace =>
    let (next, again) := compileOnce outcomes resourcePath source workspace
    if again then compileAttempts resourcePath source attempts next else next

/-- `compile`, once nothing else is compiling. -/
def compile (calls : List PumpCall) (attempts : List Outcomes) (resourcePath source : String)
    (workspace : Workspace) : Workspace :=
  if workspace.manager.shutdownStarted then workspace
  else
    let waited := waitForAll calls workspace
    if waited.isCompiling then waited
    else compileAttempts resourcePath source (attempts.take 3) waited

/-- `shutdown`. -/
def shutdown (workspace : Workspace) : Workspace :=
  if workspace.manager.shutdownStarted then workspace
  else
    let files :=
      match workspace.manager.active with
      | none => workspace.files
      | some active =>
        let plan : NumberedPlan := ⟨active.plan, workspace.activeId⟩
        remove plan.generated (remove plan.compileOutput workspace.files)
    (workspace.withFiles files).withManager workspace.manager.shutdown

end Workspace

/-! ### Runs -/

inductive Op
  | queueCompile (script : ScriptId)
  | pump (call : Workspace.PumpCall)
  | compile (calls : List Workspace.PumpCall) (attempts : List Outcomes)
    (resourcePath source : String)
  | shutdown
  | setSource (script : ScriptId) (source : String)
  | setPath (script : ScriptId) (path : String)
  /-- The active compiler makes its output, or deletes it. -/
  | compilerWrites (present : Bool)

def step (workspace : Workspace) : Op → Workspace
  | .queueCompile id => workspace.withManager (workspace.manager.queueCompile id)
  | .pump call => workspace.pump call
  | .compile calls attempts resourcePath source =>
    workspace.compile calls attempts resourcePath source
  | .shutdown => workspace.shutdown
  | .setSource id source => workspace.withManager (workspace.manager.setSource id source)
  | .setPath id path =>
    workspace.withManager (workspace.manager.setScript id
      { workspace.manager.scripts id with path := path })
  | .compilerWrites present =>
    match workspace.manager.active with
    | none => workspace
    | some active =>
      let plan : NumberedPlan := ⟨active.plan, workspace.activeId⟩
      workspace.withFiles (if present then create plan.compileOutput workspace.files
        else remove plan.compileOutput workspace.files)

/-- A manager that has done nothing yet, in a cache without files. -/
def initial (scripts : ScriptId → GzScript) : Workspace where
  manager := Manager.initial scripts
  nextRequestId := 1
  activeId := 0
  files _ := false

/-! ### Every working file is accounted for -/

/-- No working file is left, and no compiler runs. -/
structure Clean (workspace : Workspace) : Prop where
  active : workspace.manager.active = none
  files : Owed Path.IsTemporary [] workspace.files

/-- The working files there are belong to the active plan. -/
def Accounted (workspace : Workspace) : Prop :=
  Owed Path.IsTemporary
    (match workspace.manager.active with
      | none => []
      | some active =>
        let plan : NumberedPlan := ⟨active.plan, workspace.activeId⟩
        [plan.generated, plan.compileOutput])
    workspace.files

theorem Clean.accounted {workspace : Workspace} (hclean : Clean workspace) :
    Accounted workspace := by
  rw [Accounted, hclean.active]
  exact hclean.files

theorem Accounted.clean {workspace : Workspace} (haccounted : Accounted workspace)
    (hactive : workspace.manager.active = none) : Clean workspace := by
  rw [Accounted, hactive] at haccounted
  exact ⟨hactive, haccounted⟩

theorem owed_remove_more {paths : List Path} {files : Files Path} (path : Path)
    (howed : Owed Path.IsTemporary paths files) : Owed Path.IsTemporary paths (remove path files) :=
  owed_remove (howed.mono (List.subset_cons_self path paths))

section Finish

variable (outcomes : Outcomes) (plan : NumberedPlan) {files : Files Path}

theorem owed_loadOutput (howed : Owed Path.IsTemporary [plan.compileOutput] files) :
    Owed Path.IsTemporary [] (loadOutput outcomes plan files).2 := by
  have hremoved : Owed Path.IsTemporary [] (remove plan.compileOutput files) := owed_remove howed
  have hwritten := owed_write (outcomes.writeStamp plan.plan) (outcomes.leavesStamp plan.plan)
    plan.stampOutput hremoved
  have hstamp : ¬ (Path.hashPath plan.plan.output).IsTemporary := id
  unfold loadOutput
  dsimp only
  split
  · exact owed_remove_more _ hremoved
  · split
    · exact owed_remove_more _ (owed_rename hstamp hwritten)
    · exact owed_remove hwritten

/-- `finish` leaves nothing of the plan behind, whatever it comes to. -/
theorem owed_finish (needsCompile : Bool) (exitCode : Int)
    (howed : Owed Path.IsTemporary [plan.generated, plan.compileOutput] files) :
    Owed Path.IsTemporary [] (finish outcomes plan needsCompile exitCode files).2 := by
  have hstart : Owed Path.IsTemporary [plan.compileOutput]
      (remove plan.stampOutput (remove plan.generated files)) :=
    owed_remove_more plan.stampOutput (owed_remove howed)
  have houtput : ¬ (Path.output plan.plan.output).IsTemporary := id
  have hmore : [] ⊆ [plan.compileOutput] := List.nil_subset _
  unfold finish
  dsimp only
  split
  · exact owed_remove hstart
  · split
    · exact owed_loadOutput outcomes plan hstart
    · split
      · exact owed_loadOutput outcomes plan ((owed_remove hstart).mono hmore)
      · split
        · exact owed_loadOutput outcomes plan ((owed_rename houtput hstart).mono hmore)
        · exact owed_remove hstart

end Finish

/-! ### What the functions keep -/

section Keep

variable {outcomes : Outcomes} {workspace : Workspace}

theorem accounted_runPlan (request : CompileRequest) (plan : NumberedPlan)
    (hclean : Clean workspace) : Accounted (workspace.runPlan outcomes request plan) := by
  have hfinish : Owed Path.IsTemporary [] (finish outcomes plan false 0 workspace.files).2 :=
    owed_finish outcomes plan false 0 (hclean.files.mono (List.nil_subset _))
  have hwritten := owed_write (outcomes.writeAdapter plan.plan)
    (outcomes.leavesAdapter plan.plan) plan.generated hclean.files
  unfold Workspace.runPlan
  dsimp only
  split
  · split
    · exact Clean.accounted ⟨hclean.active, hclean.files⟩
    · generalize finish outcomes plan false 0 workspace.files = finished at hfinish
      obtain ⟨loaded, files⟩ := finished
      cases loaded with
      | true => exact Clean.accounted ⟨hclean.active, hfinish⟩
      | false =>
        refine Clean.accounted ⟨?_, hfinish⟩
        dsimp only [Workspace.withManager]
        split_ifs <;> exact hclean.active
  · split
    · exact Clean.accounted ⟨hclean.active, owed_remove hwritten⟩
    · split
      · exact Clean.accounted ⟨hclean.active, owed_remove (owed_remove_more _ hwritten)⟩
      · have hstarted := owed_write (outcomes.compilerWrites plan.plan) false plan.compileOutput
          (owed_remove_more plan.compileOutput hwritten)
        exact hstarted.mono fun path hpath ↦ by
          simp only [List.mem_cons, List.not_mem_nil, or_false] at hpath ⊢
          exact hpath.symm

theorem accounted_startRequest (request : CompileRequest) (hclean : Clean workspace) :
    Accounted (workspace.startRequest outcomes request).1 := by
  unfold Workspace.startRequest
  dsimp only
  split
  · exact hclean.accounted
  · split
    · split
      · exact Clean.accounted ⟨hclean.active, hclean.files⟩
      · split
        · exact Clean.accounted ⟨hclean.active, hclean.files⟩
        · exact Clean.accounted ⟨hclean.active, hclean.files⟩
        · exact accounted_runPlan _ _ ⟨hclean.active, hclean.files⟩
    · split
      · exact Clean.accounted ⟨hclean.active, hclean.files⟩
      · exact Clean.accounted ⟨hclean.active, hclean.files⟩
      · split
        · exact Clean.accounted ⟨hclean.active, hclean.files⟩
        · split
          · exact Clean.accounted ⟨hclean.active, hclean.files⟩
          · exact accounted_runPlan _ _ ⟨hclean.active, hclean.files⟩

theorem accounted_startNext (rounds : List Outcomes) (haccounted : Accounted workspace) :
    Accounted (Workspace.startNext rounds workspace) := by
  induction rounds generalizing workspace with
  | nil => exact haccounted
  | cons outcomes rounds ih =>
    rw [Workspace.startNext]
    split
    · exact haccounted
    · split
      next request pending hactive hpending =>
        have hclean := haccounted.clean hactive
        have hnext : Accounted (Workspace.startRequest outcomes request
            (workspace.withManager { workspace.manager with pending := pending })).1 :=
          accounted_startRequest request ⟨hclean.active, hclean.files⟩
        dsimp only
        split
        · exact ih hnext
        · exact hnext
      · exact haccounted

/-- However a compilation ends, its working files are gone. -/
theorem clean_settleActive (completed : ActiveCompile) (plan : NumberedPlan)
    (hactive : workspace.manager.active = none)
    (howed : Owed Path.IsTemporary [plan.generated, plan.compileOutput] workspace.files) :
    Clean (workspace.settleActive outcomes completed plan) := by
  have hdiscard : Owed Path.IsTemporary []
      (remove plan.generated (remove plan.compileOutput workspace.files)) := by
    refine owed_remove (owed_remove (howed.mono fun path hpath ↦ ?_))
    simp only [List.mem_cons, List.not_mem_nil, or_false] at hpath ⊢
    exact hpath.symm
  have hfinish : ∀ exitCode, Owed Path.IsTemporary []
      (finish outcomes plan true exitCode workspace.files).2 :=
    fun exitCode ↦ owed_finish outcomes plan true exitCode howed
  unfold Workspace.settleActive
  dsimp only
  split
  · exact ⟨hactive, hdiscard⟩
  · split
    · exact ⟨hactive, hfinish _⟩
    · split
      · exact ⟨hactive, hdiscard⟩
      · split
        · exact ⟨hactive, hdiscard⟩
        · split
          · exact ⟨hactive, hdiscard⟩
          · have hpublish := hfinish 0
            have hcounted : workspace.counted.files = workspace.files := rfl
            rw [hcounted]
            generalize finish outcomes plan true 0 workspace.files = finished at hpublish
            obtain ⟨loaded, files⟩ := finished
            cases loaded <;> exact ⟨hactive, hpublish⟩

theorem accounted_pump (call : Workspace.PumpCall) (haccounted : Accounted workspace) :
    Accounted (workspace.pump call) := by
  have hstarted := accounted_startNext call.rounds haccounted
  unfold Workspace.pump
  split
  · exact haccounted
  · dsimp only
    split
    next completed outcomes later hactive hcompletion =>
      rw [Accounted, hactive] at hstarted
      have hsettled : Clean (Workspace.settleActive outcomes completed
          ⟨completed.plan, (Workspace.startNext call.rounds workspace).activeId⟩
          ((Workspace.startNext call.rounds workspace).withManager
            { (Workspace.startNext call.rounds workspace).manager with active := none })) :=
        clean_settleActive completed _ rfl hstarted
      exact accounted_startNext later hsettled.accounted
    · exact hstarted

theorem accounted_waitForAll (calls : List Workspace.PumpCall) (haccounted : Accounted workspace) :
    Accounted (Workspace.waitForAll calls workspace) := by
  induction calls generalizing workspace with
  | nil => exact haccounted
  | cons call calls ih =>
    rw [Workspace.waitForAll]
    split
    · exact ih (accounted_pump call haccounted)
    · exact haccounted

theorem not_active_of_isCompiling (hidle : ¬ workspace.isCompiling = true) :
    workspace.manager.active = none := by
  simp only [Workspace.isCompiling, Bool.or_eq_true, not_or, Bool.not_eq_true,
    Option.isSome_eq_false_iff, Option.isNone_iff_eq_none] at hidle
  exact hidle.1

/-- An attempt to compile leaves nothing behind either. -/
theorem clean_compileOnce (resourcePath source : String) (hclean : Clean workspace) :
    Clean (workspace.compileOnce outcomes resourcePath source).1 := by
  unfold Workspace.compileOnce
  dsimp only
  split
  · exact ⟨hclean.active, hclean.files⟩
  next prepared hprepared =>
    have hwritten := owed_write (outcomes.writeAdapter prepared) (outcomes.leavesAdapter prepared)
      (NumberedPlan.generated ⟨prepared, workspace.nextRequestId⟩) hclean.files
    split
    · exact ⟨hclean.active, hclean.files⟩
    · split
      · have hfinish : Owed Path.IsTemporary []
            (finish outcomes ⟨prepared, workspace.nextRequestId⟩ false 0 workspace.files).2 :=
          owed_finish outcomes _ false 0 (hclean.files.mono (List.nil_subset _))
        have hcounted : workspace.counted.files = workspace.files := rfl
        rw [hcounted]
        generalize finish outcomes ⟨prepared, workspace.nextRequestId⟩ false 0 workspace.files =
          finished at hfinish
        obtain ⟨loaded, files⟩ := finished
        cases loaded <;> exact ⟨hclean.active, hfinish⟩
      · split
        · exact ⟨hclean.active, owed_remove hwritten⟩
        · have hran := owed_write (outcomes.compilerWrites prepared) false
            (NumberedPlan.compileOutput ⟨prepared, workspace.nextRequestId⟩)
            (owed_remove_more (NumberedPlan.compileOutput ⟨prepared, workspace.nextRequestId⟩)
              hwritten)
          have howed := hran.mono (List.Perm.swap _ _ _).subset
          split
          · exact ⟨hclean.active, owed_finish outcomes _ true _ howed⟩
          · split
            · exact ⟨hclean.active, owed_remove (owed_remove hran)⟩
            · split
              · exact ⟨hclean.active, owed_remove (owed_remove hran)⟩
              · exact ⟨hclean.active, owed_finish outcomes _ true 0 howed⟩

theorem clean_compileAttempts (resourcePath source : String) (attempts : List Outcomes)
    (hclean : Clean workspace) :
    Clean (Workspace.compileAttempts resourcePath source attempts workspace) := by
  induction attempts generalizing workspace with
  | nil => exact hclean
  | cons outcomes attempts ih =>
    have hnext : Clean (workspace.compileOnce outcomes resourcePath source).1 :=
      clean_compileOnce resourcePath source hclean
    rw [Workspace.compileAttempts]
    dsimp only
    split
    · exact ih hnext
    · exact hnext

theorem accounted_compile (calls : List Workspace.PumpCall) (attempts : List Outcomes)
    (resourcePath source : String) (haccounted : Accounted workspace) :
    Accounted (workspace.compile calls attempts resourcePath source) := by
  have hwaited := accounted_waitForAll calls haccounted
  unfold Workspace.compile
  split
  · exact haccounted
  · dsimp only
    split
    · exact hwaited
    next hidle =>
      have hclean := hwaited.clean (not_active_of_isCompiling hidle)
      exact (clean_compileAttempts resourcePath source (attempts.take 3) hclean).accounted

theorem accounted_shutdown (haccounted : Accounted workspace) : Accounted workspace.shutdown := by
  unfold Workspace.shutdown
  split
  · exact haccounted
  · refine Clean.accounted ⟨rfl, ?_⟩
    unfold Accounted at haccounted
    dsimp only [Workspace.withFiles, Workspace.withManager]
    split at haccounted
    · exact haccounted
    · exact owed_remove (owed_remove (haccounted.mono (List.Perm.swap _ _ _).subset))

theorem active_queueCompile (manager : GzBuildManager) (id : ScriptId) :
    (manager.queueCompile id).active = manager.active := by
  unfold GzBuildManager.queueCompile
  dsimp only
  split_ifs <;> rfl

theorem accounted_step (op : Op) (haccounted : Accounted workspace) :
    Accounted (step workspace op) := by
  cases op with
  | queueCompile id =>
    unfold Accounted at haccounted ⊢
    dsimp only [step, Workspace.withManager]
    rw [active_queueCompile]
    exact haccounted
  | pump call => exact accounted_pump call haccounted
  | compile calls attempts resourcePath source =>
    exact accounted_compile calls attempts resourcePath source haccounted
  | shutdown => exact accounted_shutdown haccounted
  | setSource id source => exact haccounted
  | setPath id path => exact haccounted
  | compilerWrites present =>
    simp only [step]
    split
    · exact haccounted
    next active hactive =>
      unfold Accounted at haccounted ⊢
      dsimp only [Workspace.withFiles]
      rw [hactive] at haccounted ⊢
      dsimp only at haccounted ⊢
      cases present with
      | true =>
        refine (owed_create _ haccounted).mono (List.cons_subset.mpr ⟨?_, List.Subset.refl _⟩)
        exact List.mem_cons_of_mem _ List.mem_cons_self
      | false => exact owed_remove_more _ haccounted

end Keep

/-- In every state without an active job no working file of any plan is left. -/
theorem no_working_file_left (scripts : ScriptId → GzScript) (ops : List Op)
    (hactive : (exec step (initial scripts) ops).manager.active = none) (path : Path)
    (htemporary : path.IsTemporary) : (exec step (initial scripts) ops).files path = false := by
  have hinitial : Accounted (initial scripts) := fun path _ hexists ↦ absurd hexists.symm
    Bool.false_ne_true.symm
  have haccounted : Accounted (exec step (initial scripts) ops) :=
    exec_invariant step Accounted (fun _ op h ↦ accounted_step op h) hinitial ops
  by_contra hexists
  have hmem := (haccounted.clean hactive).files path htemporary (by simpa using hexists)
  exact absurd hmem List.not_mem_nil

/-- A compiler that starts and makes its output. -/
def startingOutcomes : Outcomes where
  prepare _ _ := some ⟨"key", "output"⟩
  prepareAgain _ _ := some ⟨"key", "output"⟩
  tryLock _ := .acquired
  cacheStampMatches _ := false
  replaceOutput _ := true
  load _ := true
  outputExists _ := true
  writeAdapter _ := true
  startCompiler _ := true
  exitCode _ := 0
  peerPublished _ := false
  peer_replaced _ hpublished := absurd hpublished Bool.false_ne_true
  leavesAdapter _ := false
  writeStamp _ := true
  leavesStamp _ := false
  replaceStamp _ := true
  compilerWrites _ := true

/-- A script that a compiler is started for. -/
def startedRun : List Op := [.queueCompile 0, .pump ⟨[startingOutcomes], none⟩]

/-- While the compiler runs there are working files, and after a shutdown there are none. -/
theorem no_working_file_left_shutdown :
    (exec step (initial fun _ ↦ ⟨"path", "", 0, none, false⟩) startedRun).files
        (.compileOutput "key" 1) = true ∧
      (exec step (initial fun _ ↦ ⟨"path", "", 0, none, false⟩) (startedRun ++ [.shutdown])).files
        (.compileOutput "key" 1) = false :=
  ⟨by decide +kernel, no_working_file_left _ _ (by decide +kernel) _ trivial⟩

/-! ### The manager without its files -/

namespace Workspace.PumpCall

/-- What a call finds, without the files. -/
def environments (call : PumpCall) : List Environment := call.rounds.map Outcomes.toEnvironment

def completionEnvironment (call : PumpCall) : Option (Environment × List Environment) :=
  call.completion.map fun (outcomes, later) ↦
    (outcomes.toEnvironment, later.map Outcomes.toEnvironment)

end Workspace.PumpCall

section Forget

variable (outcomes : Outcomes) (workspace : Workspace)

theorem loadOutput_fst (plan : NumberedPlan) (files : Files Path) :
    (loadOutput outcomes plan files).1 = outcomes.load plan.plan := by
  unfold loadOutput
  dsimp only
  split
  next hload => simpa using hload
  next hload => split <;> simp_all

theorem finish_fst_cached (plan : NumberedPlan) (files : Files Path) :
    (finish outcomes plan false 0 files).1 = outcomes.load plan.plan := by
  simp [finish, loadOutput_fst]

theorem finish_fst_compiled (plan : NumberedPlan) (files : Files Path) :
    (finish outcomes plan true 0 files).1 =
      (outcomes.replaceOutput plan.plan && outcomes.load plan.plan) := by
  have hpeer := outcomes.peer_replaced plan.plan
  simp only [finish, ne_eq, not_true_eq_false, if_false]
  split_ifs with hpublished hreplaced
  · rw [loadOutput_fst, hpeer hpublished, Bool.true_and]
  · rw [loadOutput_fst, hreplaced, Bool.true_and]
  · simp [hreplaced]

theorem manager_runPlan (request : CompileRequest) (plan : NumberedPlan) :
    (workspace.runPlan outcomes request plan).manager =
      workspace.manager.runPlan outcomes.toEnvironment request plan.plan := by
  have hfinish := finish_fst_cached outcomes plan workspace.files
  unfold Workspace.runPlan GzBuildManager.runPlan
  dsimp only
  generalize finish outcomes plan false 0 workspace.files = finished at hfinish
  obtain ⟨loaded, files⟩ := finished
  dsimp only at hfinish
  rw [← hfinish]
  split
  · split
    · rfl
    · cases loaded <;> rfl
  · split
    · rfl
    · split <;> rfl

theorem manager_startRequest (request : CompileRequest) :
    ((workspace.startRequest outcomes request).1.manager,
        (workspace.startRequest outcomes request).2) =
      GzBuildManager.startRequest outcomes.toEnvironment request workspace.manager := by
  unfold Workspace.startRequest GzBuildManager.startRequest
  dsimp only
  split
  · rfl
  · cases request.prepared with
    | none =>
      cases outcomes.prepare request.resourcePath request.source with
      | none => rfl
      | some plan =>
        dsimp only
        cases outcomes.tryLock plan with
        | busy => rfl
        | error => rfl
        | acquired =>
          exact congrArg (·, true) (manager_runPlan outcomes workspace.counted request _)
    | some plan =>
      dsimp only
      cases outcomes.tryLock plan with
      | busy => rfl
      | error => rfl
      | acquired =>
        cases outcomes.prepareAgain request.resourcePath request.source with
        | none => rfl
        | some current =>
          dsimp only
          split
          · rfl
          · exact congrArg (·, true) (manager_runPlan outcomes workspace.counted _ _)

theorem manager_startNext (rounds : List Outcomes) :
    (Workspace.startNext rounds workspace).manager =
      GzBuildManager.startNext (rounds.map Outcomes.toEnvironment) workspace.manager := by
  induction rounds generalizing workspace with
  | nil => rfl
  | cons outcomes rounds ih =>
    obtain ⟨⟨scripts, pending, active, shutdownStarted, history⟩, nextRequestId, activeId, files⟩ :=
      workspace
    rw [Workspace.startNext, List.map_cons, GzBuildManager.startNext]
    cases active with
    | some completed => split <;> rfl
    | none =>
      cases pending with
      | nil => split <;> rfl
      | cons request pending =>
        have hround := manager_startRequest outcomes
          ⟨⟨scripts, pending, none, shutdownStarted, history⟩, nextRequestId, activeId, files⟩
          request
        dsimp only [Workspace.withManager] at hround ⊢
        rw [← hround]
        dsimp only
        split
        · rfl
        · split
          · exact ih _
          · rfl

theorem manager_settleActive (completed : ActiveCompile) (plan : NumberedPlan)
    (hplan : plan.plan = completed.plan) :
    (workspace.settleActive outcomes completed plan).manager =
      workspace.manager.settleActive outcomes.toEnvironment completed := by
  have hfinish := finish_fst_compiled outcomes plan workspace.files
  have hcounted : workspace.counted.files = workspace.files := rfl
  unfold Workspace.settleActive GzBuildManager.settleActive
  dsimp only
  rw [hplan, hcounted]
  generalize finish outcomes plan true 0 workspace.files = finished at hfinish
  obtain ⟨loaded, files⟩ := finished
  dsimp only at hfinish
  split
  · rfl
  · split
    · rfl
    · split
      · rfl
      · cases outcomes.prepare completed.request.resourcePath completed.request.source with
        | none => rfl
        | some current =>
          dsimp only
          split
          · rfl
          · unfold GzBuildManager.finishActive
            rw [hplan] at hfinish
            have hboth : loaded = true ↔ outcomes.replaceOutput completed.plan = true ∧
                outcomes.load completed.plan = true := by
              rw [hfinish, Bool.and_eq_true]
            cases loaded with
            | true =>
              rw [if_pos (hboth.mp rfl)]
              rfl
            | false =>
              rw [if_neg fun h ↦ Bool.false_ne_true (hboth.mpr h)]
              rfl

theorem manager_pump (call : Workspace.PumpCall) :
    (workspace.pump call).manager =
      workspace.manager.pump call.environments call.completionEnvironment := by
  have hstarted := manager_startNext workspace call.rounds
  unfold Workspace.pump GzBuildManager.pump
  split
  · rfl
  · dsimp only [Workspace.PumpCall.environments, Workspace.PumpCall.completionEnvironment]
    rw [← hstarted]
    cases hactive : (Workspace.startNext call.rounds workspace).manager.active with
    | none => rfl
    | some completed =>
      cases call.completion with
      | none => rfl
      | some completion =>
        obtain ⟨outcomes, later⟩ := completion
        dsimp only [Option.map_some]
        rw [Workspace.completeActive, GzBuildManager.completeActive, manager_startNext,
          manager_settleActive _ _ _ _ rfl]
        rfl

/-- A workspace was reached from another by operations of the manager alone. -/
def Reaches (manager : GzBuildManager) (reached : Workspace) : Prop :=
  ∃ ops, reached.manager = exec Manager.step manager ops

theorem reaches_self : Reaches workspace.manager workspace := ⟨[], rfl⟩

theorem reaches_waitForAll (calls : List Workspace.PumpCall) :
    Reaches workspace.manager (Workspace.waitForAll calls workspace) := by
  induction calls generalizing workspace with
  | nil => exact reaches_self workspace
  | cons call calls ih =>
    rw [Workspace.waitForAll]
    split
    · obtain ⟨ops, hops⟩ := ih (workspace.pump call)
      refine ⟨.pump call.environments call.completionEnvironment :: ops, ?_⟩
      rw [hops, exec_cons, manager_pump]
      rfl
    · exact reaches_self workspace

theorem manager_compileOnce (resourcePath source : String) :
    (workspace.compileOnce outcomes resourcePath source).1.manager = workspace.manager := by
  unfold Workspace.compileOnce
  dsimp only
  split
  · rfl
  next prepared hprepared =>
    split
    · rfl
    · split
      · generalize finish outcomes ⟨prepared, workspace.nextRequestId⟩ false 0
          workspace.counted.files = finished
        obtain ⟨loaded, files⟩ := finished
        cases loaded <;> rfl
      · split
        · rfl
        · split
          · rfl
          · split
            · rfl
            · split <;> rfl

theorem manager_compileAttempts (resourcePath source : String) (attempts : List Outcomes) :
    (Workspace.compileAttempts resourcePath source attempts workspace).manager =
      workspace.manager := by
  induction attempts generalizing workspace with
  | nil => rfl
  | cons outcomes attempts ih =>
    have honce := manager_compileOnce outcomes workspace resourcePath source
    rw [Workspace.compileAttempts]
    dsimp only
    split
    · rw [ih, honce]
    · exact honce

/-- What the workspace does to the manager, the manager does. -/
theorem reaches_step (op : Op) : Reaches workspace.manager (step workspace op) := by
  cases op with
  | queueCompile id => exact ⟨[.queueCompile id], rfl⟩
  | pump call =>
    exact ⟨[.pump call.environments call.completionEnvironment], manager_pump workspace call⟩
  | compile calls attempts resourcePath source =>
    have hwaited := reaches_waitForAll workspace calls
    dsimp only [step, Workspace.compile]
    split
    · exact reaches_self workspace
    · split
      · exact hwaited
      · obtain ⟨ops, hops⟩ := hwaited
        refine ⟨ops, ?_⟩
        rw [manager_compileAttempts, hops]
  | shutdown =>
    dsimp only [step, Workspace.shutdown]
    split
    · exact reaches_self workspace
    · exact ⟨[.shutdown], rfl⟩
  | setSource id source => exact ⟨[.setSource id source], rfl⟩
  | setPath id path => exact ⟨[.setPath id path], rfl⟩
  | compilerWrites present =>
    dsimp only [step]
    split <;> exact reaches_self workspace

/-- The manager of a run with files is the manager of a run without. -/
theorem reaches_exec (ops : List Op) : Reaches workspace.manager (exec step workspace ops) := by
  induction ops generalizing workspace with
  | nil => exact reaches_self workspace
  | cons op ops ih =>
    obtain ⟨first, hfirst⟩ := reaches_step workspace op
    obtain ⟨rest, hrest⟩ := ih (step workspace op)
    refine ⟨first ++ rest, ?_⟩
    rw [exec_cons, hrest, hfirst, exec_append]

end Forget

end Gzscript.Build.WorkingFiles
