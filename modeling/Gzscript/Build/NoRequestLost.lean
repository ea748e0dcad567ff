import Gzscript.Build.Publication

/-!
# No accepted request is lost

A request that was accepted leaves the queue and comes back to it, waits for a lock, and may be
dropped for a newer one. As long as nothing newer has happened to its script, it is kept: it waits
in the queue, or its compiler runs, or a plan was made for it since, and the script has the module
of that plan already (`Kept`). So when the manager has nothing left to do, every script whose
compilation was ever accepted has been answered since (`no_request_lost`).

`NoneLost` is about all scripts at once, each with the rounds since its last request was accepted.
-/

set_option autoImplicit false
set_option relaxedAutoImplicit false

namespace Gzscript.Build.NoRequestLost

open Manager GzBuildManager PlannedModules Publication Library.Transition

/-! ### The last event of a script -/

/-- The script that an event is about. -/
def subject : Event → ScriptId
  | .accepted request => request.script
  | .publishedCached request _ => request.script
  | .publishedCompiled request _ _ => request.script
  | .changed script => script

/-- What happened last to a script, in a history that is newest first. -/
def lastEvent (history : List Event) (id : ScriptId) : Option Event :=
  history.find? fun event ↦ decide (subject event = id)

/-- What becomes of the last request of a script that has not been answered in these rounds. -/
inductive Kept (rounds : List Environment) (manager : GzBuildManager) (request : CompileRequest) :
    Prop
  | waiting (queued : CompileRequest) (hqueued : queued ∈ manager.pending)
    (hbare : queued.bare = request)
  | running (completed : ActiveCompile) (hactive : manager.active = some completed)
    (hbare : completed.request.bare = request)
  /-- The script already has the module of the plan that was made for the request. -/
  | current (plan : CompilePlan) (hplan : PlannedIn rounds request plan)
    (hvalid : (manager.scripts request.script).valid = true)
    (hmodule : (manager.scripts request.script).module = some plan.output)

/-- The last request of every script is kept, in the rounds since, unless it was answered. -/
def NoneLost (since : ScriptId → List Environment) (manager : GzBuildManager) : Prop :=
  ∀ request, lastEvent manager.history request.script = some (.accepted request) →
    Kept (since request.script) manager request

theorem Kept.mono {rounds others : List Environment} (hsubset : rounds ⊆ others)
    {manager : GzBuildManager} {request : CompileRequest} (h : Kept rounds manager request) :
    Kept others manager request := by
  cases h with
  | waiting queued hqueued hbare => exact .waiting queued hqueued hbare
  | running completed hactive hbare => exact .running completed hactive hbare
  | current plan hplan hvalid hmodule =>
    exact .current plan (hplan.mono hsubset) hvalid hmodule

theorem subject_of_lastEvent {history : List Event} {id : ScriptId} {event : Event}
    (hlast : lastEvent history id = some event) : subject event = id := by
  have hfound : history.find? (fun event ↦ decide (subject event = id)) = some event := hlast
  simpa using List.find?_some hfound

theorem lastEvent_cons_self (event : Event) (history : List Event) :
    lastEvent (event :: history) (subject event) = some event :=
  List.find?_cons_of_pos (decide_eq_true rfl)

theorem lastEvent_cons_of_ne {event : Event} {id : ScriptId} (hne : subject event ≠ id)
    (history : List Event) : lastEvent (event :: history) id = lastEvent history id :=
  List.find?_cons_of_neg (by simpa using hne)

/-- A request that was accepted last of all is the last accepted one. -/
theorem lastAccepted_of_lastEvent {history : List Event} {request : CompileRequest}
    (hlast : lastEvent history request.script = some (.accepted request)) :
    lastAccepted history request.script = some request := by
  induction history with
  | nil => cases hlast
  | cons event history ih =>
    by_cases hsubject : subject event = request.script
    · rw [← hsubject, lastEvent_cons_self] at hlast
      obtain rfl := Option.some.inj hlast
      exact if_pos rfl
    · rw [lastEvent_cons_of_ne hsubject] at hlast
      cases event with
      | accepted other => exact (if_neg hsubject).trans (ih hlast)
      | _ => exact ih hlast

/-! ### What a round or a completion does with its request -/

/-- In a round the request is answered, or kept, and nothing else is touched. -/
structure Treated (environment : Environment) (request : CompileRequest)
    (before after : GzBuildManager) : Prop where
  scripts : ∀ id, id ≠ request.script → after.scripts id = before.scripts id
  events : ∀ id, id ≠ request.script →
    lastEvent after.history id = lastEvent before.history id
  queue : ∀ queued ∈ before.pending, queued ∈ after.pending
  own : (∀ accepted, lastEvent after.history request.script ≠ some (.accepted accepted)) ∨
    lastEvent after.history request.script = lastEvent before.history request.script ∧
      ∀ kept : CompileRequest, request.bare = kept → Kept [environment] after kept

theorem setScript_self (manager : GzBuildManager) (id : ScriptId) (script : GzScript) :
    (manager.setScript id script).scripts id = script := by
  simp [setScript]

theorem setScript_of_ne (manager : GzBuildManager) {id other : ScriptId} (hne : other ≠ id)
    (script : GzScript) : (manager.setScript id script).scripts other = manager.scripts other :=
  Function.update_of_ne hne _ _

variable {environment : Environment}

/-- A request that is answered by an event. -/
theorem treated_log {request : CompileRequest} {manager : GzBuildManager} {script : GzScript}
    {event : Event} (hsubject : subject event = request.script)
    (hevent : ∀ accepted, event ≠ .accepted accepted) :
    Treated environment request manager
      ((manager.setScript request.script script).log event) where
  scripts id hid := setScript_of_ne manager hid script
  events id hid := lastEvent_cons_of_ne (hsubject ▸ hid.symm) _
  queue _ hqueued := hqueued
  own := by
    refine .inl fun accepted haccepted ↦ hevent accepted ?_
    have hself := lastEvent_cons_self event manager.history
    rw [hsubject] at hself
    exact Option.some.inj (hself.symm.trans haccepted)

theorem treated_giveUp (request : CompileRequest) (manager : GzBuildManager) :
    Treated environment request manager (manager.giveUp request.script) :=
  treated_log rfl fun _ ↦ Event.noConfusion

theorem treated_pushFront {request again : CompileRequest} (manager : GzBuildManager)
    (hbare : again.bare = request.bare) :
    Treated environment request manager (manager.pushFront again) where
  scripts _ _ := rfl
  events _ _ := rfl
  queue _ hqueued := List.mem_cons_of_mem _ hqueued
  own := .inr ⟨rfl, fun _ hkept ↦ .waiting again List.mem_cons_self (hbare.trans hkept)⟩

theorem treated_runPlan {request again : CompileRequest} {plan : CompilePlan}
    (manager : GzBuildManager) (hplan : PlannedIn [environment] again plan)
    (hbare : again.bare = request.bare) :
    Treated environment request manager (manager.runPlan environment again plan) := by
  have hscript : again.script = request.script := script_eq_of_bare hbare
  rw [runPlan]
  split
  · split
    next hmodule =>
      rw [hscript] at hmodule ⊢
      refine ⟨fun id hid ↦ setScript_of_ne manager hid _, fun _ _ ↦ rfl, fun _ h ↦ h,
        .inr ⟨rfl, fun kept hkept ↦ ?_⟩⟩
      have hown : kept.script = request.script := hkept ▸ rfl
      have hself := setScript_self manager request.script
        { manager.scripts request.script with valid := true }
      refine .current plan ?_ ?_ ?_
      · rw [← hkept, ← hbare]
        exact hplan
      · rw [hown, hself]
      · rw [hown, hself]
        exact hmodule
    · split
      · rw [publishModule, hscript]
        exact treated_log hscript fun _ ↦ Event.noConfusion
      · split
        · rw [hscript]
          exact treated_giveUp request manager
        · exact treated_pushFront manager hbare
  · rw [hscript]
    split
    · exact treated_giveUp request manager
    · split
      · exact treated_giveUp request manager
      · exact ⟨fun _ _ ↦ rfl, fun _ _ ↦ rfl, fun _ h ↦ h,
          .inr ⟨rfl, fun _ hkept ↦ .running ⟨again, plan⟩ rfl (hbare.trans hkept)⟩⟩

theorem treated_startRequest (environment : Environment) {request : CompileRequest}
    {manager : GzBuildManager}
    (hgeneration : request.generation = (manager.scripts request.script).compileGeneration) :
    Treated environment request manager (startRequest environment request manager).1 := by
  have hround : environment ∈ [environment] := List.mem_singleton_self environment
  rw [startRequest, if_neg (not_not_intro hgeneration)]
  split
  · split
    · exact treated_giveUp request manager
    next plan hplan =>
      split
      · exact treated_pushFront manager rfl
      · exact treated_giveUp request manager
      · exact treated_runPlan manager ⟨environment, hround, .inl hplan⟩ rfl
  · dsimp only
    split
    · exact treated_pushFront manager rfl
    · exact treated_giveUp request manager
    · split
      · exact treated_giveUp request manager
      next current hcurrent =>
        split
        · exact treated_pushFront manager rfl
        · exact treated_runPlan manager ⟨environment, hround, .inr hcurrent⟩ rfl

theorem treated_settleActive (environment : Environment) {completed : ActiveCompile}
    {manager : GzBuildManager}
    (hgeneration : completed.request.generation =
      (manager.scripts completed.request.script).compileGeneration)
    (hfresh : ∀ queued ∈ manager.pending, queued.script ≠ completed.request.script) :
    Treated environment completed.request manager (settleActive environment completed manager) := by
  have hany : ¬ (manager.pending.any fun queued ↦ queued.script = completed.request.script) =
      true := by simpa using hfresh
  rw [settleActive, if_neg (not_not_intro hgeneration), if_neg hany]
  split
  · exact treated_giveUp _ manager
  split
  · exact treated_giveUp _ manager
  split
  · exact treated_pushFront manager rfl
  rw [finishActive]
  split
  · rw [publishModule]
    exact treated_log rfl fun _ ↦ Event.noConfusion
  · exact treated_giveUp _ manager

/-! ### None is lost -/

variable {since : ScriptId → List Environment}

/-- The last request of its script is treated while no compiler runs, and no other one is lost. -/
theorem noneLost_treated {request : CompileRequest} {before after : GzBuildManager}
    (hround : environment ∈ since request.script) (hlatest : Latest before request)
    (hactive : before.active = none)
    (hothers : ∀ other : CompileRequest, other.script ≠ request.script →
      lastEvent before.history other.script = some (.accepted other) →
        Kept (since other.script) before other)
    (h : Treated environment request before after) : NoneLost since after := by
  intro other hother
  by_cases hscript : other.script = request.script
  · rw [hscript] at hother
    obtain hanswered | ⟨hsame, hkept⟩ := h.own
    · exact absurd hother (hanswered other)
    · rw [hsame, ← hscript] at hother
      have hlast := lastAccepted_of_lastEvent hother
      rw [hscript, hlatest.1] at hlast
      rw [hscript]
      exact (hkept other (Option.some.inj hlast)).mono
        (List.cons_subset.mpr ⟨hround, List.nil_subset _⟩)
  · rw [h.events other.script hscript] at hother
    cases hothers other hscript hother with
    | waiting queued hqueued hbare => exact .waiting queued (h.queue queued hqueued) hbare
    | running completed hrunning hbare =>
      rw [hactive] at hrunning
      cases hrunning
    | current plan hplan hvalid hmodule =>
      rw [← h.scripts other.script hscript] at hvalid hmodule
      exact .current plan hplan hvalid hmodule

theorem noneLost_startRequest {manager : GzBuildManager} (hround : ∀ id, environment ∈ since id)
    (hcoherent : Coherent manager) (h : NoneLost since manager) (hactive : manager.active = none)
    {request : CompileRequest} {pending : List CompileRequest}
    (hpending : manager.pending = request :: pending) :
    NoneLost since (startRequest environment request { manager with pending := pending }).1 := by
  obtain ⟨hpopped, -⟩ := coherent_pop hcoherent hactive hpending
  have hlatest : Latest { manager with pending := pending } request :=
    hcoherent.queued request (by simp [hpending])
  refine noneLost_treated (hround _) hlatest hactive ?_ (treated_startRequest environment hlatest.2)
  intro other hscript hother
  cases h other hother with
  | waiting queued hqueued hbare =>
    rw [hpending] at hqueued
    obtain rfl | hrest := List.mem_cons.mp hqueued
    · exact absurd (hbare ▸ rfl) hscript
    · exact .waiting queued hrest hbare
  | running completed hrunning hbare => exact .running completed hrunning hbare
  | current plan hplan hvalid hmodule => exact .current plan hplan hvalid hmodule

/-- The compiler of a script with a successor in the queue has ended. -/
theorem noneLost_superseded {completed : ActiveCompile} {manager : GzBuildManager}
    (hcoherent : Coherent manager) (h : NoneLost since manager)
    (hactive : manager.active = some completed) {queued : CompileRequest}
    (hqueued : queued ∈ manager.pending) (hscript : queued.script = completed.request.script) :
    NoneLost since { manager with active := none } := by
  intro other hother
  cases h other hother with
  | waiting queued hqueued hbare => exact .waiting queued hqueued hbare
  | running started hrunning hbare =>
    -- the successor is the last accepted request of the script, so it is this one
    rw [hactive] at hrunning
    obtain rfl := Option.some.inj hrunning
    have hown : other.script = queued.script := by
      rw [hscript, ← hbare]
      rfl
    have hlast := lastAccepted_of_lastEvent hother
    rw [hown, (hcoherent.queued queued hqueued).1] at hlast
    exact .waiting queued hqueued (Option.some.inj hlast)
  | current plan hplan hvalid hmodule => exact .current plan hplan hvalid hmodule

theorem noneLost_giveUp {manager : GzBuildManager} (h : NoneLost since manager) (id : ScriptId) :
    NoneLost since (manager.giveUp id) := by
  intro other hother
  by_cases hscript : other.script = id
  · have hself : lastEvent (manager.giveUp id).history id = some (.changed id) :=
      lastEvent_cons_self (.changed id) manager.history
    rw [hscript, hself] at hother
    cases hother
  · have hne : subject (.changed id) ≠ other.script := Ne.symm hscript
    rw [giveUp, log, lastEvent_cons_of_ne hne] at hother
    cases h other hother with
    | waiting queued hqueued hbare => exact .waiting queued hqueued hbare
    | running completed hrunning hbare => exact .running completed hrunning hbare
    | current plan hplan hvalid hmodule =>
      rw [← setScript_of_ne manager hscript] at hvalid hmodule
      exact .current plan hplan hvalid hmodule

theorem noneLost_settleActive {manager : GzBuildManager} (hround : ∀ id, environment ∈ since id)
    (hcoherent : Coherent manager) (h : NoneLost since manager) {completed : ActiveCompile}
    (hactive : manager.active = some completed) :
    NoneLost since (settleActive environment completed { manager with active := none }) := by
  by_cases hsuperseded : ∃ queued ∈ manager.pending, queued.script = completed.request.script
  · obtain ⟨queued, hqueued, hscript⟩ := hsuperseded
    have hidle := noneLost_superseded hcoherent h hactive hqueued hscript
    obtain hsame | hgiven := settleActive_superseded environment completed
      { manager with active := none } ⟨queued, hqueued, hscript⟩
    · rw [hsame]
      exact hidle
    · rw [hgiven]
      exact noneLost_giveUp hidle _
  · have hlatest : Latest { manager with active := none } completed.request :=
      (hcoherent.running completed hactive).resolve_right hsuperseded
    have hfresh : ∀ queued ∈ manager.pending, queued.script ≠ completed.request.script :=
      fun queued hqueued hscript ↦ hsuperseded ⟨queued, hqueued, hscript⟩
    refine noneLost_treated (hround _) hlatest rfl ?_
      (treated_settleActive environment hlatest.2 hfresh)
    intro other hscript hother
    cases h other hother with
    | waiting queued hqueued hbare => exact .waiting queued hqueued hbare
    | running started hrunning hbare =>
      rw [hactive] at hrunning
      obtain rfl := Option.some.inj hrunning
      exact absurd (hbare ▸ rfl) hscript
    | current plan hplan hvalid hmodule => exact .current plan hplan hvalid hmodule

/-- An accepted request waits, in no rounds at all; the others are as they were. -/
theorem noneLost_accept {manager : GzBuildManager} (hcoherent : Coherent manager)
    (h : NoneLost since manager) (id : ScriptId) :
    NoneLost (Function.update since id []) (manager.accept id) := by
  have hmember := accept_mem_iff hcoherent id
  intro other hother
  by_cases hscript : other.script = id
  · have hself : lastEvent (manager.accept id).history id =
        some (.accepted (manager.requestFor id)) :=
      lastEvent_cons_self (.accepted (manager.requestFor id)) manager.history
    rw [hscript, hself] at hother
    obtain rfl := Event.accepted.inj (Option.some.inj hother)
    exact .waiting _ ((hmember _).mpr (.inl rfl)) rfl
  · have hne : subject (.accepted (manager.requestFor id)) ≠ other.script := Ne.symm hscript
    have hbefore : lastEvent manager.history other.script = some (.accepted other) :=
      (lastEvent_cons_of_ne hne manager.history).symm.trans hother
    rw [Function.update_of_ne hscript]
    cases h other hbefore with
    | waiting queued hqueued hbare =>
      have hother : queued.script ≠ id := fun hid ↦ hscript (by rw [← hbare, ← hid]; rfl)
      exact .waiting queued ((hmember queued).mpr (.inr ⟨hqueued, hother⟩)) hbare
    | running completed hrunning hbare => exact .running completed hrunning hbare
    | current plan hplan hvalid hmodule =>
      have hkept : (manager.accept id).scripts other.script = manager.scripts other.script :=
        setScript_of_ne manager hscript _
      rw [← hkept] at hvalid hmodule
      exact .current plan hplan hvalid hmodule

theorem NoneLost.mono {manager : GzBuildManager} (h : NoneLost since manager)
    {others : ScriptId → List Environment} (hsubset : ∀ id, since id ⊆ others id) :
    NoneLost others manager :=
  fun request hlast ↦ (h request hlast).mono (hsubset request.script)

theorem noneLost_queueCompile {manager : GzBuildManager} (hcoherent : Coherent manager)
    (h : NoneLost since manager) (id : ScriptId) : NoneLost since (manager.queueCompile id) := by
  simp only [queueCompile]
  split_ifs
  · exact h
  · exact h
  · exact h
  · exact h
  · refine (noneLost_accept hcoherent h id).mono fun other ↦ ?_
    by_cases hother : other = id
    · rw [hother, Function.update_self]
      exact List.nil_subset _
    · rw [Function.update_of_ne hother]
      exact List.Subset.refl _

/-- A script that keeps its module and its validity. -/
theorem noneLost_setScript {manager : GzBuildManager} (h : NoneLost since manager) {id : ScriptId}
    {script : GzScript} (hvalid : script.valid = (manager.scripts id).valid)
    (hmodule : script.module = (manager.scripts id).module) :
    NoneLost since (manager.setScript id script) := by
  intro other hother
  cases h other hother with
  | waiting queued hqueued hbare => exact .waiting queued hqueued hbare
  | running completed hrunning hbare => exact .running completed hrunning hbare
  | current plan hplan hwas hhad =>
    by_cases hscript : other.script = id
    · rw [hscript, ← hvalid] at hwas
      rw [hscript, ← hmodule] at hhad
      have hself := setScript_self manager id script
      exact .current plan hplan (by rw [hscript, hself, hwas]) (by rw [hscript, hself]; exact hhad)
    · rw [← setScript_of_ne manager hscript script] at hwas hhad
      exact .current plan hplan hwas hhad

/-! ### Runs -/

/-- What holds between any two operations: unless the manager was shut down, none is lost. -/
def Accounted (since : ScriptId → List Environment) (manager : GzBuildManager) : Prop :=
  Coherent manager ∧ (manager.shutdownStarted = true ∨ NoneLost since manager)

theorem noneLost_pump (environments : List Environment)
    (completion : Option (Environment × List Environment)) {manager : GzBuildManager}
    (hrounds : ∀ environment ∈ pumpRounds environments completion, ∀ id, environment ∈ since id)
    (hcoherent : Coherent manager) (h : NoneLost since manager) :
    NoneLost since (manager.pump environments completion) := by
  refine (pump_keeps (fun manager ↦ Coherent manager ∧ NoneLost since manager)
    (fun environment ↦ ∀ id, environment ∈ since id) ?_ ?_ ?_ ?_ ⟨hcoherent, h⟩).2
  · rintro environment manager request pending hround ⟨hcoherent, h⟩ hactive hpending
    exact ⟨coherent_startRequest environment hcoherent hactive hpending,
      noneLost_startRequest hround hcoherent h hactive hpending⟩
  · rintro environment manager completed hround ⟨hcoherent, h⟩ hactive
    exact ⟨coherent_settleActive environment hcoherent hactive,
      noneLost_settleActive hround hcoherent h hactive⟩
  · intro environment hmem
    refine hrounds environment ?_
    rcases completion with _ | ⟨other, later⟩
    · exact hmem
    · exact List.mem_append_left _ hmem
  · rintro environment later rfl
    refine ⟨hrounds environment ?_, fun other hother ↦ hrounds other ?_⟩
    · exact List.mem_append_right _ List.mem_cons_self
    · exact List.mem_append_right _ (List.mem_cons_of_mem _ hother)

/-- The rounds of an operation are added to the rounds since. -/
theorem accounted_step (manager : GzBuildManager) (op : ManagerOp) (h : Accounted since manager) :
    Accounted (fun id ↦ since id ++ roundsOf op) (step manager op) := by
  obtain ⟨hcoherent, h⟩ := h
  refine ⟨coherent_step manager op hcoherent, ?_⟩
  replace h := h.imp_right fun h ↦ h.mono fun id ↦ List.subset_append_left (since id) (roundsOf op)
  cases op with
  | queueCompile id =>
    refine h.imp (fun hshutdown ↦ ?_) fun h ↦ noneLost_queueCompile hcoherent h id
    show (manager.queueCompile id).shutdownStarted = true
    simp only [queueCompile, hshutdown, if_true]
  | pump environments completion =>
    refine h.imp (fun hshutdown ↦ ?_) fun h ↦ noneLost_pump environments completion
      (fun environment hround id ↦ List.mem_append_right (since id) hround) hcoherent h
    show (manager.pump environments completion).shutdownStarted = true
    rw [pump, if_pos hshutdown, hshutdown]
  | setSource id source => exact h.imp_right fun h ↦ noneLost_setScript h rfl rfl
  | setPath id path => exact h.imp_right fun h ↦ noneLost_setScript h rfl rfl
  | shutdown => exact .inl rfl

theorem accounted_exec (ops : List ManagerOp) {manager : GzBuildManager}
    (h : Accounted since manager) :
    Accounted (fun id ↦ since id ++ ops.flatMap roundsOf) (exec step manager ops) := by
  induction ops generalizing since manager with
  | nil => simpa using h
  | cons op ops ih =>
    have hrest := ih (accounted_step manager op h)
    simp only [List.append_assoc] at hrest
    exact hrest

/-- A request that `queue_compile` accepts is the one of the script as it is. -/
theorem queueCompile_accepted {manager : GzBuildManager} {id : ScriptId} {request : CompileRequest}
    (h : (manager.queueCompile id).history = .accepted request :: manager.history) :
    request = manager.requestFor id ∧ manager.queueCompile id = manager.accept id ∧
      manager.shutdownStarted = false := by
  have hsame : manager.history ≠ .accepted request :: manager.history := fun hcycle ↦
    List.cons_ne_self _ _ hcycle.symm
  simp only [queueCompile] at h ⊢
  split_ifs at h ⊢ with hshutdown
  · exact absurd h hsame
  · exact absurd h hsame
  · exact absurd h hsame
  · exact absurd h hsame
  · refine ⟨?_, rfl, Bool.eq_false_iff.mpr hshutdown⟩
    exact (Event.accepted.inj (List.cons.inj h).1).symm

theorem lastEvent_append {newer : List Event} {id : ScriptId}
    (hnewer : ∀ event ∈ newer, subject event ≠ id) (older : List Event) :
    lastEvent (newer ++ older) id = lastEvent older id := by
  have hnone : newer.find? (fun event ↦ decide (subject event = id)) = none :=
    List.find?_eq_none.mpr fun event hevent ↦ by simpa using hnewer event hevent
  rw [lastEvent, List.find?_append, hnone, Option.none_or]
  rfl

/-- A request is accepted, and nothing happens to its script after that, in a run in which the
manager is not shut down. Then it waits in the queue, or is being compiled, or the script has the
module of a plan that was made for it since. Once nothing is queued or compiled, the script has that
module and is valid. -/
theorem no_request_lost (scripts : ScriptId → GzScript) (before after : List ManagerOp)
    (id : ScriptId) (request : CompileRequest) (events : List Event)
    (haccepted : (exec step (initial scripts) (before ++ [.queueCompile id])).history =
      .accepted request :: (exec step (initial scripts) before).history)
    (hafter : (exec step (initial scripts) (before ++ .queueCompile id :: after)).history =
      events ++ .accepted request :: (exec step (initial scripts) before).history)
    (hevents : ∀ event ∈ events, subject event ≠ id) :
    (exec step (initial scripts) (before ++ .queueCompile id :: after)).shutdownStarted = true ∨
      Kept (after.flatMap roundsOf)
          (exec step (initial scripts) (before ++ .queueCompile id :: after)) request ∧
        ((exec step (initial scripts) (before ++ .queueCompile id :: after)).pending = [] →
          (exec step (initial scripts) (before ++ .queueCompile id :: after)).active = none →
          ∃ plan, PlannedIn (after.flatMap roundsOf) request plan ∧
            ((exec step (initial scripts) (before ++ .queueCompile id :: after)).scripts
              id).module = some plan.output ∧
            ((exec step (initial scripts) (before ++ .queueCompile id :: after)).scripts
              id).valid = true) := by
  have hstart : Accounted (fun _ ↦ []) (initial scripts) :=
    ⟨coherent_initial scripts, .inr fun _ hlast ↦ absurd hlast (Option.some_ne_none _).symm⟩
  obtain ⟨hcoherent, hbefore⟩ := accounted_exec before hstart
  rw [exec_concat] at haccepted
  obtain ⟨rfl, haccept, hopen⟩ := queueCompile_accepted haccepted
  replace hbefore := hbefore.resolve_left (by rw [hopen]; exact Bool.false_ne_true)
  have hqueued : Accounted _ (step (exec step (initial scripts) before) (.queueCompile id)) :=
    ⟨coherent_queueCompile id hcoherent, .inr (haccept ▸ noneLost_accept hcoherent hbefore id)⟩
  have hfinal := (accounted_exec after hqueued).2
  rw [exec_append, exec_cons] at hafter ⊢
  refine hfinal.imp_right fun h ↦ ?_
  have hlast : lastEvent (exec step (step (exec step (initial scripts) before)
      (.queueCompile id)) after).history id =
        some (.accepted ((exec step (initial scripts) before).requestFor id)) := by
    rw [hafter, lastEvent_append hevents]
    exact lastEvent_cons_self (.accepted _) _
  have hkept : Kept (after.flatMap roundsOf) (exec step (step (exec step (initial scripts) before)
      (.queueCompile id)) after) ((exec step (initial scripts) before).requestFor id) := by
    refine (h _ hlast).mono ?_
    have hnone : Function.update (fun _ ↦ [] ++ before.flatMap roundsOf) id [] id = [] := by
      rw [Function.update_self]
    show Function.update (fun _ ↦ [] ++ before.flatMap roundsOf) id [] id ++
      after.flatMap roundsOf ⊆ after.flatMap roundsOf
    rw [hnone, List.nil_append]
    exact List.Subset.refl _
  refine ⟨hkept, fun hempty hidle ↦ ?_⟩
  cases hkept with
  | waiting queued hqueued hbare =>
    rw [hempty] at hqueued
    cases hqueued
  | running completed hrunning hbare =>
    rw [hidle] at hrunning
    cases hrunning
  | current plan hplan hvalid hmodule => exact ⟨plan, hplan, hmodule, hvalid⟩

/-- A file system in which every plan is for one output, which is in the cache. -/
def cachedEnvironment : Environment where
  prepare _ _ := some ⟨"key", "module"⟩
  prepareAgain _ _ := some ⟨"key", "module"⟩
  tryLock _ := .acquired
  cacheStampMatches _ := true
  replaceOutput _ := true
  load _ := true
  outputExists _ := true
  writeAdapter _ := true
  startCompiler _ := true
  exitCode _ := 0

/-- The first round publishes the module. The source changes then, and the round for the second
request finds that the script has the module of its plan. -/
theorem second_request_current :
    ∃ plan, PlannedIn [cachedEnvironment] ⟨0, "res://a.zig", "b", 2, none⟩ plan ∧
      ((exec step (initial fun _ ↦ ⟨"res://a.zig", "a", 0, none, false⟩)
        [.queueCompile 0, .pump [cachedEnvironment] none, .setSource 0 "b", .queueCompile 0,
          .pump [cachedEnvironment] none]).scripts 0).module = some plan.output ∧
      ((exec step (initial fun _ ↦ ⟨"res://a.zig", "a", 0, none, false⟩)
        [.queueCompile 0, .pump [cachedEnvironment] none, .setSource 0 "b", .queueCompile 0,
          .pump [cachedEnvironment] none]).scripts 0).valid = true := by
  have hrun := no_request_lost (fun _ ↦ ⟨"res://a.zig", "a", 0, none, false⟩)
    [.queueCompile 0, .pump [cachedEnvironment] none, .setSource 0 "b"]
    [.pump [cachedEnvironment] none] 0 ⟨0, "res://a.zig", "b", 2, none⟩ [] (by decide +kernel)
    (by decide +kernel) (List.forall_mem_nil _)
  exact (hrun.resolve_left (by decide +kernel)).2 (by decide +kernel) (by decide +kernel)

end Gzscript.Build.NoRequestLost
