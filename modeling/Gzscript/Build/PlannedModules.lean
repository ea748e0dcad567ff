import Gzscript.Build.Manager
import Mathlib.Data.List.Induction

/-!
# Where the module of a script comes from

A plan is made in a round of `start_next`, or in a completion, from the path and the source of a
request; between rounds it lives on in a running compiler. `Recorded` says of two states of a
manager that every module has come from the events between them, and that each event publishes the
output of such a plan. It holds of a round, of a completion, and so of every step of a run
(`recorded_step`).
-/

set_option autoImplicit false
set_option relaxedAutoImplicit false

namespace Gzscript.Build.PlannedModules

open Manager GzBuildManager Library.Transition

/-- In one of these rounds a plan was made of the path and the source of a request. -/
def PlannedIn (rounds : List Environment) (request : CompileRequest) (plan : CompilePlan) : Prop :=
  ∃ environment ∈ rounds,
    environment.prepare request.resourcePath request.source = some plan ∨
      environment.prepareAgain request.resourcePath request.source = some plan

/-- What is published is the output of a plan for the request: from the cache, of one made in this
round; from a compiler, of one made in a round up to now, and made again in this completion. -/
def Planned (earlier rounds : List Environment) : Event → Prop
  | .publishedCached request plan => PlannedIn rounds request plan
  | .publishedCompiled request plan recomputed =>
    PlannedIn (earlier ++ rounds) request plan ∧ ∃ environment ∈ rounds,
      environment.prepare request.resourcePath request.source = some recomputed
  | _ => True

/-- The module a script has after some events, newest first. -/
def moduleAfter : List Event → ScriptId → Option String → Option String
  | [], _, module => module
  | .publishedCached request plan :: older, id, module =>
    if request.script = id then some plan.output else moduleAfter older id module
  | .publishedCompiled request plan _ :: older, id, module =>
    if request.script = id then some plan.output else moduleAfter older id module
  | _ :: older, id, module => moduleAfter older id module

theorem moduleAfter_append (newer older : List Event) (id : ScriptId) (module : Option String) :
    moduleAfter (newer ++ older) id module =
      moduleAfter newer id (moduleAfter older id module) := by
  induction newer with
  | nil => rfl
  | cons event newer ih =>
    cases event with
    | accepted request => exact ih
    | changed script => exact ih
    | publishedCached request plan => simp only [List.cons_append, moduleAfter, ih]
    | publishedCompiled request plan recomputed =>
      simp only [List.cons_append, moduleAfter, ih]

/-- Between two states these events are recorded, newest first: every module comes from them, and
every compiler that was started works on a plan for its request. -/
structure Recorded (earlier rounds : List Environment) (events : List Event)
    (before after : GzBuildManager) : Prop where
  history : after.history = events ++ before.history
  modules : ∀ id, (after.scripts id).module = moduleAfter events id (before.scripts id).module
  planned : ∀ event ∈ events, Planned earlier rounds event
  started : ∀ completed, after.active = some completed →
    before.active = some completed ∨ PlannedIn rounds completed.request completed.plan

theorem PlannedIn.mono {rounds others : List Environment} (hsubset : rounds ⊆ others)
    {request : CompileRequest} {plan : CompilePlan} (h : PlannedIn rounds request plan) :
    PlannedIn others request plan := by
  obtain ⟨environment, hmem, hmade⟩ := h
  exact ⟨environment, hsubset hmem, hmade⟩

theorem Planned.mono {earlier rounds before others : List Environment} {event : Event}
    (h : Planned earlier rounds event) (hrounds : rounds ⊆ others)
    (hearlier : earlier ++ rounds ⊆ before ++ others) : Planned before others event := by
  cases event with
  | accepted request => trivial
  | changed script => trivial
  | publishedCached request plan => exact PlannedIn.mono hrounds h
  | publishedCompiled request plan recomputed =>
    obtain ⟨hplan, environment, hmem, hmade⟩ := h
    exact ⟨hplan.mono hearlier, environment, hrounds hmem, hmade⟩

theorem recorded_refl (earlier rounds : List Environment) (manager : GzBuildManager) :
    Recorded earlier rounds [] manager manager :=
  ⟨rfl, fun _ ↦ rfl, List.forall_mem_nil _, fun _ hactive ↦ .inl hactive⟩

/-- What is done in the rounds after others comes after what is done in these. -/
theorem Recorded.trans {earlier first second : List Environment} {older newer : List Event}
    {before between after : GzBuildManager} (hfirst : Recorded earlier first older before between)
    (hsecond : Recorded (earlier ++ first) second newer between after) :
    Recorded earlier (first ++ second) (newer ++ older) before after where
  history := by rw [hsecond.history, hfirst.history, List.append_assoc]
  modules id := by rw [hsecond.modules, hfirst.modules, moduleAfter_append]
  planned event hevent := by
    rcases List.mem_append.mp hevent with hnewer | holder
    · refine (hsecond.planned event hnewer).mono (List.subset_append_right first second) ?_
      rw [List.append_assoc]
      exact List.Subset.refl _
    · refine (hfirst.planned event holder).mono (List.subset_append_left first second) ?_
      rw [← List.append_assoc]
      exact List.subset_append_left (earlier ++ first) second
  started completed hcompleted := by
    rcases hsecond.started completed hcompleted with hbetween | hplan
    · exact (hfirst.started completed hbetween).imp_right
        (PlannedIn.mono (List.subset_append_left first second))
    · exact .inr (hplan.mono (List.subset_append_right first second))

/-! ### Rounds and completions -/

/-- Nothing is published, and no compiler is started. -/
theorem recorded_quiet {earlier rounds : List Environment} {events : List Event}
    {before after : GzBuildManager} (hhistory : after.history = events ++ before.history)
    (hmodules : ∀ id, (after.scripts id).module = (before.scripts id).module)
    (hevents : ∀ event ∈ events, (∃ request, event = .accepted request) ∨
      ∃ script, event = .changed script)
    (hactive : after.active = before.active ∨ after.active = none) :
    Recorded earlier rounds events before after where
  history := hhistory
  modules id := by
    rw [hmodules]
    clear hhistory
    induction events with
    | nil => rfl
    | cons event events ih =>
      have hrest := ih fun other hother ↦ hevents other (List.mem_cons_of_mem _ hother)
      obtain ⟨request, rfl⟩ | ⟨script, rfl⟩ := hevents event List.mem_cons_self
      · exact hrest
      · exact hrest
  planned event hevent := by
    obtain ⟨request, rfl⟩ | ⟨script, rfl⟩ := hevents event hevent
    · trivial
    · trivial
  started completed hcompleted := by
    rcases hactive with hsame | hnone
    · exact .inl (hsame ▸ hcompleted)
    · rw [hnone] at hcompleted
      cases hcompleted

theorem setScript_module (manager : GzBuildManager) (id other : ScriptId) (script : GzScript)
    (h : script.module = (manager.scripts id).module) :
    ((manager.setScript id script).scripts other).module = (manager.scripts other).module := by
  by_cases hother : other = id
  · subst hother
    simp [setScript, h]
  · simp [setScript, hother]

variable {earlier rounds : List Environment}

theorem recorded_giveUp (manager : GzBuildManager) (id : ScriptId) :
    Recorded earlier rounds [.changed id] manager (manager.giveUp id) := by
  refine recorded_quiet rfl (fun other ↦ setScript_module manager id other _ rfl) ?_ (.inl rfl)
  intro event hevent
  exact .inr ⟨id, List.mem_singleton.mp hevent⟩

theorem recorded_pushFront (manager : GzBuildManager) (request : CompileRequest) :
    Recorded earlier rounds [] manager (manager.pushFront request) :=
  recorded_quiet rfl (fun _ ↦ rfl) (List.forall_mem_nil _) (.inl rfl)

theorem moduleAfter_publishModule (manager : GzBuildManager) (id other : ScriptId) (path : String) :
    ((manager.publishModule id path).scripts other).module =
      if id = other then some path else (manager.scripts other).module := by
  by_cases hother : other = id
  · subst hother
    simp [publishModule, setScript]
  · simp [publishModule, setScript, hother, Ne.symm hother]

theorem recorded_publishCached {request : CompileRequest} {plan : CompilePlan}
    (manager : GzBuildManager) (hplan : PlannedIn rounds request plan) :
    Recorded earlier rounds [.publishedCached request plan] manager
      ((manager.publishModule request.script plan.output).log (.publishedCached request plan)) where
  history := rfl
  modules id := moduleAfter_publishModule manager request.script id plan.output
  planned event hevent := by
    obtain rfl := List.mem_singleton.mp hevent
    exact hplan
  started _ hactive := .inl hactive

theorem recorded_publishCompiled {environment : Environment} {completed : ActiveCompile}
    {recomputed : CompilePlan} (manager : GzBuildManager)
    (hplan : PlannedIn (earlier ++ [environment]) completed.request completed.plan)
    (hrecomputed : environment.prepare completed.request.resourcePath completed.request.source =
      some recomputed) :
    Recorded earlier [environment] [.publishedCompiled completed.request completed.plan recomputed]
      manager ((manager.publishModule completed.request.script completed.plan.output).log
        (.publishedCompiled completed.request completed.plan recomputed)) where
  history := rfl
  modules id := moduleAfter_publishModule manager completed.request.script id completed.plan.output
  planned event hevent := by
    obtain rfl := List.mem_singleton.mp hevent
    exact ⟨hplan, environment, List.mem_singleton_self environment, hrecomputed⟩
  started _ hactive := .inl hactive

theorem recorded_runPlan (environment : Environment) {request : CompileRequest}
    {plan : CompilePlan} (manager : GzBuildManager)
    (hplan : PlannedIn [environment] request plan) :
    ∃ events, Recorded earlier [environment] events manager
      (manager.runPlan environment request plan) := by
  rw [runPlan]
  split
  · split
    · refine ⟨[], recorded_quiet rfl (fun id ↦ ?_) (List.forall_mem_nil _) (.inl rfl)⟩
      exact setScript_module manager request.script id _ rfl
    · split
      · exact ⟨_, recorded_publishCached manager hplan⟩
      · split
        · exact ⟨_, recorded_giveUp manager request.script⟩
        · exact ⟨_, recorded_pushFront manager request⟩
  · split
    · exact ⟨_, recorded_giveUp manager request.script⟩
    · split
      · exact ⟨_, recorded_giveUp manager request.script⟩
      · refine ⟨[], rfl, fun _ ↦ rfl, List.forall_mem_nil _, fun completed hcompleted ↦ .inr ?_⟩
        obtain rfl := Option.some.inj hcompleted
        exact hplan

/-- One round of `start_next`: the plan is the one it has made. -/
theorem recorded_startRequest (earlier : List Environment) (environment : Environment)
    (request : CompileRequest) (manager : GzBuildManager) :
    ∃ events, Recorded earlier [environment] events manager
      (startRequest environment request manager).1 := by
  rw [startRequest]
  split
  · exact ⟨_, recorded_refl earlier [environment] manager⟩
  · split
    · split
      · exact ⟨_, recorded_giveUp manager request.script⟩
      next plan hplan =>
        split
        · exact ⟨_, recorded_pushFront manager _⟩
        · exact ⟨_, recorded_giveUp manager request.script⟩
        · exact recorded_runPlan environment manager
            ⟨environment, List.mem_singleton_self environment, .inl hplan⟩
    · dsimp only
      split
      · exact ⟨_, recorded_pushFront manager _⟩
      · exact ⟨_, recorded_giveUp manager request.script⟩
      · split
        · exact ⟨_, recorded_giveUp manager request.script⟩
        next current hcurrent =>
          split
          · exact ⟨_, recorded_pushFront manager _⟩
          · exact recorded_runPlan environment manager
              ⟨environment, List.mem_singleton_self environment, .inr hcurrent⟩

/-- A completion: the plan is the one the compiler was started for. -/
theorem recorded_settleActive (environment : Environment) {completed : ActiveCompile}
    (manager : GzBuildManager) (hplan : PlannedIn earlier completed.request completed.plan) :
    ∃ events, Recorded earlier [environment] events manager
      (settleActive environment completed manager) := by
  rw [settleActive]
  split
  · exact ⟨_, recorded_refl earlier [environment] manager⟩
  · split
    · exact ⟨_, recorded_giveUp manager completed.request.script⟩
    · split
      · exact ⟨_, recorded_refl earlier [environment] manager⟩
      · split
        · exact ⟨_, recorded_giveUp manager completed.request.script⟩
        next current hcurrent =>
          split
          · exact ⟨_, recorded_pushFront manager completed.request⟩
          · rw [finishActive]
            split
            · refine ⟨_, recorded_publishCompiled manager (hplan.mono ?_) hcurrent⟩
              exact List.subset_append_left earlier [environment]
            · exact ⟨_, recorded_giveUp manager completed.request.script⟩

/-! ### Steps and runs -/

/-- A running compiler works on a plan that was made in one of these rounds. -/
def RunningPlanned (rounds : List Environment) (manager : GzBuildManager) : Prop :=
  ∀ completed, manager.active = some completed → PlannedIn rounds completed.request completed.plan

theorem Recorded.runningPlanned {events : List Event} {before after : GzBuildManager}
    (h : Recorded earlier rounds events before after) (hbefore : RunningPlanned earlier before) :
    RunningPlanned (earlier ++ rounds) after := by
  intro completed hcompleted
  rcases h.started completed hcompleted with hrunning | hplan
  · exact (hbefore completed hrunning).mono (List.subset_append_left earlier rounds)
  · exact hplan.mono (List.subset_append_right earlier rounds)

/-- Fewer rounds are needed than there are. -/
theorem Recorded.widen {events : List Event} {before after : GzBuildManager}
    (h : Recorded earlier rounds events before after) (later : List Environment) :
    Recorded earlier (rounds ++ later) events before after :=
  h.trans (recorded_refl (earlier ++ rounds) later after)

theorem recorded_startNext (environments earlier : List Environment) (manager : GzBuildManager) :
    ∃ events, Recorded earlier environments events manager (startNext environments manager) := by
  induction environments generalizing earlier manager with
  | nil => exact ⟨[], recorded_refl earlier [] manager⟩
  | cons environment environments ih =>
    rw [startNext]
    split
    · exact ⟨[], recorded_refl earlier _ manager⟩
    · split
      next request pending hactive hpending =>
        obtain ⟨older, hround⟩ := recorded_startRequest earlier environment request
          { manager with pending := pending }
        have hfirst : Recorded earlier [environment] older manager
            (startRequest environment request { manager with pending := pending }).1 :=
          ⟨hround.history, hround.modules, hround.planned, hround.started⟩
        dsimp only
        split
        · obtain ⟨newer, hrest⟩ := ih (earlier ++ [environment])
            (startRequest environment request { manager with pending := pending }).1
          exact ⟨newer ++ older, hfirst.trans hrest⟩
        · exact ⟨older, hfirst.widen environments⟩
      next => exact ⟨[], recorded_refl earlier _ manager⟩

/-- The rounds of a pump, and its completion. -/
def pumpRounds (environments : List Environment) :
    Option (Environment × List Environment) → List Environment
  | none => environments
  | some (environment, later) => environments ++ environment :: later

theorem recorded_pump (environments : List Environment)
    (completion : Option (Environment × List Environment)) {manager : GzBuildManager}
    (hrunning : RunningPlanned earlier manager) :
    ∃ events, Recorded earlier (pumpRounds environments completion) events manager
      (manager.pump environments completion) := by
  obtain ⟨older, hstarted⟩ := recorded_startNext environments earlier manager
  have hidle : Recorded earlier (pumpRounds environments completion) older manager
      (startNext environments manager) := by
    rcases completion with _ | ⟨environment, later⟩
    · exact hstarted
    · exact hstarted.widen (environment :: later)
  rw [pump]
  split
  · exact ⟨[], recorded_refl earlier _ manager⟩
  · dsimp only
    split
    next completed environment later hactive =>
      have hplan : PlannedIn (earlier ++ environments) completed.request completed.plan :=
        hstarted.runningPlanned hrunning completed hactive
      obtain ⟨settled, hsettled⟩ := recorded_settleActive environment
        { startNext environments manager with active := none } hplan
      have hcompleted : Recorded (earlier ++ environments) [environment] settled
          (startNext environments manager) (settleActive environment completed
            { startNext environments manager with active := none }) :=
        ⟨hsettled.history, hsettled.modules, hsettled.planned, fun other hother ↦
          .inr ((hsettled.started other hother).resolve_left (Option.some_ne_none other).symm)⟩
      obtain ⟨newer, hlater⟩ := recorded_startNext later
        (earlier ++ (environments ++ [environment])) (settleActive environment completed
          { startNext environments manager with active := none })
      have hrounds : pumpRounds environments (some (environment, later)) =
          environments ++ [environment] ++ later := by
        rw [List.append_assoc]
        rfl
      rw [hrounds]
      exact ⟨_, (hstarted.trans hcompleted).trans hlater⟩
    next => exact ⟨older, hidle⟩

/-- The rounds of an operation. -/
def roundsOf : ManagerOp → List Environment
  | .pump environments completion => pumpRounds environments completion
  | _ => []

theorem recorded_queueCompile (manager : GzBuildManager) (id : ScriptId) :
    ∃ events, Recorded earlier rounds events manager (manager.queueCompile id) := by
  have hsame : Recorded earlier rounds [] manager manager := recorded_refl earlier rounds manager
  have haccepted : Recorded earlier rounds [.accepted (manager.requestFor id)] manager
      (manager.accept id) := by
    refine recorded_quiet rfl (fun other ↦ setScript_module manager id other _ rfl) ?_ (.inl rfl)
    intro event hevent
    exact .inl ⟨_, List.mem_singleton.mp hevent⟩
  simp only [queueCompile]
  split_ifs
  · exact ⟨_, hsame⟩
  · exact ⟨_, hsame⟩
  · exact ⟨_, hsame⟩
  · exact ⟨_, hsame⟩
  · exact ⟨_, haccepted⟩

/-- Whatever a step does to the modules of scripts is recorded, with plans for the requests. -/
theorem recorded_step {manager : GzBuildManager} (hrunning : RunningPlanned earlier manager)
    (op : ManagerOp) :
    ∃ events, Recorded earlier (roundsOf op) events manager (step manager op) := by
  cases op with
  | queueCompile id => exact recorded_queueCompile manager id
  | pump environments completion => exact recorded_pump environments completion hrunning
  | setSource id source =>
    exact ⟨[], recorded_quiet rfl (fun other ↦ setScript_module manager id other _ rfl)
      (List.forall_mem_nil _) (.inl rfl)⟩
  | setPath id path =>
    exact ⟨[], recorded_quiet rfl (fun other ↦ setScript_module manager id other _ rfl)
      (List.forall_mem_nil _) (.inl rfl)⟩
  | shutdown => exact ⟨[], recorded_quiet rfl (fun _ ↦ rfl) (List.forall_mem_nil _) (.inr rfl)⟩

theorem runningPlanned_exec (scripts : ScriptId → GzScript) (ops : List ManagerOp) :
    RunningPlanned (ops.flatMap roundsOf) (exec step (initial scripts) ops) := by
  induction ops using List.reverseRecOn with
  | nil => exact fun completed hcompleted ↦ nomatch hcompleted
  | append_singleton ops op ih =>
    obtain ⟨events, hrecorded⟩ := recorded_step ih op
    rw [exec_concat, List.flatMap_append, List.flatMap_singleton]
    exact hrecorded.runningPlanned ih

end Gzscript.Build.PlannedModules
