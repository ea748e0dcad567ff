import Gzscript.Build.PlannedModules

/-!
# Only the last request of a script is published

Requests leave the queue and enter it again in several ways while generations advance. `Coherent` is
what survives all of them: the queue holds at most one request of a script, which is the last one
accepted for it and carries the script's generation, and a running compile either is for the last
request of its script or has a successor in the queue. `Handled` says what one round of `start_next`
or one completion may do with the request it is given; `noStalePublish` follows by induction over
the run. Which plan the module of a script comes from is said there too.
-/

set_option autoImplicit false
set_option relaxedAutoImplicit false

namespace Gzscript.Build.Publication

open Manager GzBuildManager PlannedModules Library.Transition

/-- The last request accepted for a script, in a history that is newest first. -/
def lastAccepted (history : List Event) (id : ScriptId) : Option CompileRequest :=
  match history with
  | [] => none
  | .accepted request :: older =>
    if request.script = id then some request else lastAccepted older id
  | _ :: older => lastAccepted older id

/-- An event that publishes a module publishes one for the last request accepted before it, and what
was compiled is what would be compiled now. -/
def Warranted (older : List Event) : Event → Prop
  | .publishedCached request _ => lastAccepted older request.script = some request.bare
  | .publishedCompiled request plan recomputed =>
    lastAccepted older request.script = some request.bare ∧ recomputed.key = plan.key
  | _ => True

/-- Every event of a history is warranted by the events before it. -/
def AllWarranted (history : List Event) : Prop :=
  ∀ event older, event :: older <:+ history → Warranted older event

/-- The request is the last one accepted for its script and has the script's generation. -/
def Latest (manager : GzBuildManager) (request : CompileRequest) : Prop :=
  lastAccepted manager.history request.script = some request.bare ∧
    request.generation = (manager.scripts request.script).compileGeneration

/-- What holds between any two operations of a manager. -/
structure Coherent (manager : GzBuildManager) : Prop where
  distinct : (manager.pending.map CompileRequest.script).Nodup
  queued : ∀ request ∈ manager.pending, Latest manager request
  running : ∀ completed, manager.active = some completed → Latest manager completed.request ∨
    ∃ queued ∈ manager.pending, queued.script = completed.request.script
  warranted : AllWarranted manager.history

theorem allWarranted_cons {event : Event} {older : List Event} (hevent : Warranted older event)
    (holder : AllWarranted older) : AllWarranted (event :: older) := by
  intro other before hsuffix
  rcases List.suffix_cons_iff.mp hsuffix with heq | hsuffix
  · cases heq
    exact hevent
  · exact holder other before hsuffix

/-! ### What may happen to a request -/

/-- Nothing is accepted and no generation changes. -/
structure Quiet (before after : GzBuildManager) : Prop where
  generations : ∀ id, (after.scripts id).compileGeneration = (before.scripts id).compileGeneration
  accepted : ∀ id, lastAccepted after.history id = lastAccepted before.history id

/-- What a round or a completion may do with a request: besides what is quiet, put it back or start
a compiler for it, and publish a module for it if it is the last accepted one. -/
structure Handled (request : CompileRequest) (before after : GzBuildManager) : Prop where
  quiet : Quiet before after
  stopped : after.shutdownStarted = before.shutdownStarted
  paths : ∀ id, (after.scripts id).path = (before.scripts id).path
  outcome : (after.pending = before.pending ∧ after.active = before.active) ∨
    (∃ again : CompileRequest, again.bare = request.bare ∧
      after.pending = again :: before.pending ∧ after.active = before.active) ∨
    ∃ started : ActiveCompile, started.request.bare = request.bare ∧
      after.pending = before.pending ∧ after.active = some started
  warranted : lastAccepted before.history request.script = some request.bare →
    AllWarranted before.history → AllWarranted after.history

theorem script_eq_of_bare {first second : CompileRequest} (h : first.bare = second.bare) :
    first.script = second.script :=
  show first.bare.script = second.bare.script from h ▸ rfl

theorem source_eq_of_bare {first second : CompileRequest} (h : first.bare = second.bare) :
    first.source = second.source :=
  show first.bare.source = second.bare.source from h ▸ rfl

theorem resourcePath_eq_of_bare {first second : CompileRequest} (h : first.bare = second.bare) :
    first.resourcePath = second.resourcePath :=
  show first.bare.resourcePath = second.bare.resourcePath from h ▸ rfl

theorem generation_eq_of_bare {first second : CompileRequest} (h : first.bare = second.bare) :
    first.generation = second.generation :=
  show first.bare.generation = second.bare.generation from h ▸ rfl

theorem setScript_generation (manager : GzBuildManager) (id other : ScriptId)
    (script : GzScript)
    (h : script.compileGeneration = (manager.scripts id).compileGeneration) :
    ((manager.setScript id script).scripts other).compileGeneration =
      (manager.scripts other).compileGeneration := by
  by_cases hother : other = id
  · subst hother
    simp [setScript, h]
  · simp [setScript, hother]

theorem setScript_path (manager : GzBuildManager) (id other : ScriptId) (script : GzScript)
    (h : script.path = (manager.scripts id).path) :
    ((manager.setScript id script).scripts other).path = (manager.scripts other).path := by
  by_cases hother : other = id
  · subst hother
    simp [setScript, h]
  · simp [setScript, hother]

theorem handled_refl (request : CompileRequest) (manager : GzBuildManager) :
    Handled request manager manager :=
  ⟨⟨fun _ ↦ rfl, fun _ ↦ rfl⟩, rfl, fun _ ↦ rfl, .inl ⟨rfl, rfl⟩, fun _ h ↦ h⟩

theorem handled_markValid (request : CompileRequest) (manager : GzBuildManager) (id : ScriptId) :
    Handled request manager
      (manager.setScript id { manager.scripts id with valid := true }) where
  quiet := ⟨fun other ↦ setScript_generation manager id other _ rfl, fun _ ↦ rfl⟩
  stopped := rfl
  paths other := setScript_path manager id other _ rfl
  outcome := .inl ⟨rfl, rfl⟩
  warranted _ h := h

theorem handled_giveUp (request : CompileRequest) (manager : GzBuildManager) (id : ScriptId) :
    Handled request manager (manager.giveUp id) where
  quiet := ⟨fun other ↦ setScript_generation manager id other _ rfl, fun _ ↦ rfl⟩
  stopped := rfl
  paths other := setScript_path manager id other _ rfl
  outcome := .inl ⟨rfl, rfl⟩
  warranted _ h := allWarranted_cons trivial h

theorem handled_pushFront (request again : CompileRequest) (manager : GzBuildManager)
    (h : again.bare = request.bare) : Handled request manager (manager.pushFront again) where
  quiet := ⟨fun _ ↦ rfl, fun _ ↦ rfl⟩
  stopped := rfl
  paths _ := rfl
  outcome := .inr (.inl ⟨again, h, rfl, rfl⟩)
  warranted _ h := h

theorem handled_publishCached (request again : CompileRequest) (plan : CompilePlan)
    (manager : GzBuildManager) (h : again.bare = request.bare) :
    Handled request manager
      ((manager.publishModule again.script plan.output).log (.publishedCached again plan)) where
  quiet := ⟨fun other ↦ setScript_generation manager _ other _ rfl, fun _ ↦ rfl⟩
  stopped := rfl
  paths other := setScript_path manager _ other _ rfl
  outcome := .inl ⟨rfl, rfl⟩
  warranted hlast hbefore := by
    refine allWarranted_cons ?_ hbefore
    change lastAccepted manager.history again.script = some again.bare
    rw [script_eq_of_bare h, hlast, h]

theorem handled_publishCompiled (completed : ActiveCompile) (recomputed : CompilePlan)
    (manager : GzBuildManager) (hkey : recomputed.key = completed.plan.key) :
    Handled completed.request manager
      ((manager.publishModule completed.request.script completed.plan.output).log
        (.publishedCompiled completed.request completed.plan recomputed)) where
  quiet := ⟨fun other ↦ setScript_generation manager _ other _ rfl, fun _ ↦ rfl⟩
  stopped := rfl
  paths other := setScript_path manager _ other _ rfl
  outcome := .inl ⟨rfl, rfl⟩
  warranted hlast hbefore := allWarranted_cons ⟨hlast, hkey⟩ hbefore

theorem handled_runPlan (environment : Environment) (request again : CompileRequest)
    (plan : CompilePlan) (manager : GzBuildManager) (h : again.bare = request.bare) :
    Handled request manager (manager.runPlan environment again plan) := by
  rw [runPlan]
  split
  · split
    · exact handled_markValid request manager _
    · split
      · exact handled_publishCached request again plan manager h
      · split
        · exact handled_giveUp request manager _
        · exact handled_pushFront request again manager h
  · split
    · exact handled_giveUp request manager _
    · split
      · exact handled_giveUp request manager _
      · exact ⟨⟨fun _ ↦ rfl, fun _ ↦ rfl⟩, rfl, fun _ ↦ rfl,
          .inr (.inr ⟨⟨again, plan⟩, h, rfl, rfl⟩), fun _ h ↦ h⟩

/-- One round of `start_next`. -/
theorem handled_startRequest (environment : Environment) (request : CompileRequest)
    (manager : GzBuildManager) :
    Handled request manager (startRequest environment request manager).1 := by
  rw [startRequest]
  split
  · exact handled_refl request manager
  · split
    · split
      · exact handled_giveUp request manager _
      · split
        · exact handled_pushFront request _ manager rfl
        · exact handled_giveUp request manager _
        · exact handled_runPlan environment request request _ manager rfl
    · dsimp only
      split
      · exact handled_pushFront request _ manager rfl
      · exact handled_giveUp request manager _
      · split
        · exact handled_giveUp request manager _
        · split
          · exact handled_pushFront request _ manager rfl
          · exact handled_runPlan environment request _ _ manager rfl

/-- A completion. -/
theorem handled_settleActive (environment : Environment) (completed : ActiveCompile)
    (manager : GzBuildManager) :
    Handled completed.request manager (settleActive environment completed manager) := by
  rw [settleActive]
  split
  · exact handled_refl _ manager
  · split
    · exact handled_giveUp _ manager _
    · split
      · exact handled_refl _ manager
      · split
        · exact handled_giveUp _ manager _
        · split
          · exact handled_pushFront _ _ manager rfl
          next hkey =>
            rw [finishActive]
            split
            · exact handled_publishCompiled completed _ manager (not_not.mp hkey)
            · exact handled_giveUp _ manager _

/-! ### Coherence is kept -/

theorem Quiet.latest {before after : GzBuildManager} (h : Quiet before after)
    {request again : CompileRequest} (hbare : again.bare = request.bare)
    (hlatest : Latest before request) : Latest after again := by
  obtain ⟨hlast, hgeneration⟩ := hlatest
  refine ⟨?_, ?_⟩
  · rw [h.accepted, script_eq_of_bare hbare, hlast, hbare]
  · rw [h.generations, generation_eq_of_bare hbare, script_eq_of_bare hbare, hgeneration]

/-- Handling the last request of a script, with no other of that script queued and no compiler
running, keeps coherence. -/
theorem coherent_handled {request : CompileRequest} {before after : GzBuildManager}
    (hbefore : Coherent before) (hactive : before.active = none)
    (hlatest : Latest before request)
    (hfresh : ∀ queued ∈ before.pending, queued.script ≠ request.script)
    (h : Handled request before after) : Coherent after where
  distinct := by
    rcases h.outcome with ⟨hpending, -⟩ | ⟨again, hbare, hpending, -⟩ | ⟨started, -, hpending, -⟩
    · rw [hpending]
      exact hbefore.distinct
    · rw [hpending, List.map_cons, List.nodup_cons]
      refine ⟨fun hmember ↦ ?_, hbefore.distinct⟩
      obtain ⟨queued, hqueued, hscript⟩ := List.mem_map.mp hmember
      exact hfresh queued hqueued (hscript.trans (script_eq_of_bare hbare))
    · rw [hpending]
      exact hbefore.distinct
  queued queued hqueued := by
    rcases h.outcome with ⟨hpending, -⟩ | ⟨again, hbare, hpending, -⟩ | ⟨started, -, hpending, -⟩
    · rw [hpending] at hqueued
      exact h.quiet.latest rfl (hbefore.queued queued hqueued)
    · rw [hpending] at hqueued
      rcases List.mem_cons.mp hqueued with rfl | hqueued
      · exact h.quiet.latest hbare hlatest
      · exact h.quiet.latest rfl (hbefore.queued queued hqueued)
    · rw [hpending] at hqueued
      exact h.quiet.latest rfl (hbefore.queued queued hqueued)
  running completed hcompleted := by
    rcases h.outcome with ⟨-, hnone⟩ | ⟨again, -, -, hnone⟩ | ⟨started, hbare, -, hstarted⟩
    · rw [hnone, hactive] at hcompleted
      cases hcompleted
    · rw [hnone, hactive] at hcompleted
      cases hcompleted
    · rw [hstarted] at hcompleted
      cases hcompleted
      exact .inl (h.quiet.latest hbare hlatest)
  warranted := h.warranted hlatest.1 hbefore.warranted

/-- The queue without its first request. -/
theorem coherent_pop {manager : GzBuildManager} (h : Coherent manager)
    (hactive : manager.active = none) {request : CompileRequest} {pending : List CompileRequest}
    (hpending : manager.pending = request :: pending) :
    Coherent { manager with pending := pending } ∧
      ∀ queued ∈ pending, queued.script ≠ request.script := by
  have hdistinct := h.distinct
  rw [hpending, List.map_cons, List.nodup_cons] at hdistinct
  refine ⟨⟨hdistinct.2, fun queued hqueued ↦ ?_, fun completed hcompleted ↦ ?_, h.warranted⟩,
    fun queued hqueued hscript ↦ hdistinct.1 ?_⟩
  · exact h.queued queued (by rw [hpending]; exact List.mem_cons_of_mem _ hqueued)
  · rw [hactive] at hcompleted
    cases hcompleted
  · exact List.mem_map.mpr ⟨queued, hqueued, hscript⟩

theorem coherent_startRequest (environment : Environment) {manager : GzBuildManager}
    (h : Coherent manager) (hactive : manager.active = none) {request : CompileRequest}
    {pending : List CompileRequest} (hpending : manager.pending = request :: pending) :
    Coherent (startRequest environment request { manager with pending := pending }).1 := by
  obtain ⟨hpopped, hfresh⟩ := coherent_pop h hactive hpending
  have hlatest : Latest manager request := h.queued request (by simp [hpending])
  exact coherent_handled hpopped hactive hlatest hfresh (handled_startRequest _ _ _)

/-- A completion whose script has a successor in the queue changes neither queue nor history, unless
to note a failure. -/
theorem settleActive_superseded (environment : Environment) (completed : ActiveCompile)
    (manager : GzBuildManager)
    (h : ∃ queued ∈ manager.pending, queued.script = completed.request.script) :
    settleActive environment completed manager = manager ∨
      settleActive environment completed manager = manager.giveUp completed.request.script := by
  have hany : (manager.pending.any fun queued ↦ queued.script = completed.request.script) =
      true := by simpa using h
  rw [settleActive]
  split
  · exact .inl rfl
  · split
    · exact .inr rfl
    · exact .inl rfl

/-- What is quiet and leaves queue and compiler alone keeps coherence. -/
theorem coherent_quiet {before after : GzBuildManager} (hbefore : Coherent before)
    (hquiet : Quiet before after) (hpending : after.pending = before.pending)
    (hactive : after.active = before.active ∨ after.active = none)
    (hwarranted : AllWarranted after.history) : Coherent after where
  distinct := by
    rw [hpending]
    exact hbefore.distinct
  queued queued hqueued := by
    rw [hpending] at hqueued
    exact hquiet.latest rfl (hbefore.queued queued hqueued)
  running completed hcompleted := by
    rcases hactive with hactive | hactive
    · rw [hactive] at hcompleted
      rw [hpending]
      exact (hbefore.running completed hcompleted).imp_left (hquiet.latest rfl)
    · rw [hactive] at hcompleted
      cases hcompleted
  warranted := hwarranted

theorem coherent_settleActive (environment : Environment) {completed : ActiveCompile}
    {manager : GzBuildManager} (h : Coherent manager) (hactive : manager.active = some completed) :
    Coherent (settleActive environment completed { manager with active := none }) := by
  have hstopped : Coherent { manager with active := none } :=
    coherent_quiet h ⟨fun _ ↦ rfl, fun _ ↦ rfl⟩ rfl (.inr rfl) h.warranted
  by_cases hqueued : ∃ queued ∈ manager.pending, queued.script = completed.request.script
  · rcases settleActive_superseded environment completed { manager with active := none } hqueued
      with hsame | hfailed
    · rw [hsame]
      exact hstopped
    · rw [hfailed]
      have hgiveUp := handled_giveUp completed.request { manager with active := none }
        completed.request.script
      exact coherent_quiet hstopped hgiveUp.quiet rfl (.inl rfl)
        (allWarranted_cons trivial h.warranted)
  · have hlatest := (h.running completed hactive).resolve_right hqueued
    exact coherent_handled hstopped rfl hlatest
      (fun queued hmember hscript ↦ hqueued ⟨queued, hmember, hscript⟩)
      (handled_settleActive environment completed _)

theorem coherent_pump (environments : List Environment)
    (completion : Option (Environment × List Environment)) {manager : GzBuildManager}
    (h : Coherent manager) : Coherent (manager.pump environments completion) :=
  pump_keeps Coherent (fun _ ↦ True)
    (fun environment _ _ _ _ hbefore hactive hpending ↦
      coherent_startRequest environment hbefore hactive hpending)
    (fun environment _ _ _ hbefore hactive ↦ coherent_settleActive environment hbefore hactive)
    (fun _ _ ↦ trivial) (fun _ _ _ ↦ ⟨trivial, fun _ _ ↦ trivial⟩) h

/-! ### Queueing -/

/-- A request that is already queued for its script is replaced where it stands. -/
theorem replaceQueued_some {request : CompileRequest} {pending replaced : List CompileRequest}
    (h : replaceQueued request pending = some replaced) :
    replaced.map CompileRequest.script = pending.map CompileRequest.script ∧ request ∈ replaced ∧
      (∀ queued ∈ replaced, queued = request ∨ queued ∈ pending) ∧
      ∀ queued ∈ pending, queued.script = request.script ∨ queued ∈ replaced := by
  induction pending generalizing replaced with
  | nil => cases h
  | cons first pending ih =>
    rw [replaceQueued] at h
    split at h
    next hscript =>
      cases h
      simp only [List.map_cons, hscript, List.mem_cons]
      refine ⟨trivial, .inl trivial, fun queued hqueued ↦ ?_, fun queued hqueued ↦ ?_⟩
      · exact hqueued.imp_right .inr
      · rcases hqueued with rfl | hqueued
        · exact .inl hscript
        · exact .inr (.inr hqueued)
    next =>
      obtain ⟨rest, hrest, rfl⟩ := Option.map_eq_some_iff.mp h
      obtain ⟨hscripts, hmember, hfrom, hkept⟩ := ih hrest
      simp only [List.map_cons, hscripts, List.mem_cons]
      refine ⟨trivial, .inr hmember, fun queued hqueued ↦ ?_, fun queued hqueued ↦ ?_⟩
      · rcases hqueued with rfl | hqueued
        · exact .inr (.inl rfl)
        · exact (hfrom queued hqueued).imp_right .inr
      · rcases hqueued with rfl | hqueued
        · exact .inr (.inl rfl)
        · exact (hkept queued hqueued).imp_right .inr

theorem replaceQueued_none {request : CompileRequest} {pending : List CompileRequest}
    (h : replaceQueued request pending = none) :
    ∀ queued ∈ pending, queued.script ≠ request.script := by
  induction pending with
  | nil => simp
  | cons first pending ih =>
    rw [replaceQueued] at h
    split at h
    · cases h
    next hscript =>
      intro queued hqueued
      rcases List.mem_cons.mp hqueued with rfl | hqueued
      · exact hscript
      · exact ih (Option.map_eq_none_iff.mp h) queued hqueued

/-- The queue with a request in it: it is there, in place of any other of its script. -/
theorem enqueue_spec (request : CompileRequest) {pending : List CompileRequest}
    (hdistinct : (pending.map CompileRequest.script).Nodup) :
    (((replaceQueued request pending).getD (pending ++ [request])).map
        CompileRequest.script).Nodup ∧
      ∀ queued, queued ∈ (replaceQueued request pending).getD (pending ++ [request]) ↔
        queued = request ∨ (queued ∈ pending ∧ queued.script ≠ request.script) := by
  cases hreplaced : replaceQueued request pending with
  | none =>
    have hnone := replaceQueued_none hreplaced
    rw [Option.getD_none, List.map_append, List.nodup_append]
    refine ⟨⟨hdistinct, by simp, fun id hid other hother ↦ ?_⟩, fun queued ↦ ?_⟩
    · obtain ⟨queued, hqueued, rfl⟩ := List.mem_map.mp hid
      rw [List.map_singleton, List.mem_singleton] at hother
      rw [hother]
      exact hnone queued hqueued
    · rw [List.mem_append, List.mem_singleton, or_comm]
      exact or_congr_right ⟨fun hqueued ↦ ⟨hqueued, hnone queued hqueued⟩, And.left⟩
  | some replaced =>
    obtain ⟨hscripts, hmember, hfrom, hkept⟩ := replaceQueued_some hreplaced
    rw [Option.getD_some, hscripts]
    refine ⟨hdistinct, fun queued ↦ ⟨fun hqueued ↦ ?_, ?_⟩⟩
    · by_cases hsame : queued = request
      · exact .inl hsame
      · refine .inr ⟨(hfrom queued hqueued).resolve_left hsame, fun hscript ↦ hsame ?_⟩
        have hnodup : (replaced.map CompileRequest.script).Nodup := by rwa [hscripts]
        exact List.inj_on_of_nodup_map hnodup hqueued hmember hscript
    · rintro (rfl | ⟨hqueued, hscript⟩)
      · exact hmember
      · exact (hkept queued hqueued).resolve_left hscript

theorem accept_mem_iff {manager : GzBuildManager} (h : Coherent manager) (id : ScriptId)
    (queued : CompileRequest) : queued ∈ (manager.accept id).pending ↔
      queued = manager.requestFor id ∨ (queued ∈ manager.pending ∧ queued.script ≠ id) :=
  (enqueue_spec (manager.requestFor id) h.distinct).2 queued

/-- An accepted request is the last of its script. -/
theorem latest_requestFor (manager : GzBuildManager) (id : ScriptId) :
    Latest (manager.accept id) (manager.requestFor id) := by
  refine ⟨?_, ?_⟩
  · change lastAccepted (.accepted (manager.requestFor id) :: manager.history) id = _
    rw [lastAccepted, if_pos (by rfl)]
    rfl
  · simp [accept, log, setScript, requestFor]

/-- A request of another script is the last of it as before. -/
theorem latest_accept {manager : GzBuildManager} {request : CompileRequest}
    (h : Latest manager request) {id : ScriptId} (hne : request.script ≠ id) :
    Latest (manager.accept id) request := by
  refine ⟨?_, ?_⟩
  · change lastAccepted (.accepted (manager.requestFor id) :: manager.history) _ = _
    rw [lastAccepted, if_neg (fun hid ↦ hne hid.symm)]
    exact h.1
  · rw [h.2]
    simp [accept, log, setScript, hne]

theorem coherent_accept (id : ScriptId) {manager : GzBuildManager} (h : Coherent manager) :
    Coherent (manager.accept id) where
  distinct := (enqueue_spec (manager.requestFor id) h.distinct).1
  queued queued hqueued := by
    rcases (accept_mem_iff h id queued).mp hqueued with rfl | ⟨hmember, hne⟩
    · exact latest_requestFor manager id
    · exact latest_accept (h.queued queued hmember) hne
  running completed hcompleted := by
    by_cases hscript : completed.request.script = id
    · exact .inr ⟨manager.requestFor id, (accept_mem_iff h id _).mpr (.inl rfl), hscript.symm⟩
    · refine (h.running completed hcompleted).imp (fun hlatest ↦ latest_accept hlatest hscript) ?_
      rintro ⟨queued, hqueued, hsame⟩
      exact ⟨queued, (accept_mem_iff h id queued).mpr (.inr ⟨hqueued, hsame ▸ hscript⟩), hsame⟩
  warranted := allWarranted_cons trivial h.warranted

theorem coherent_queueCompile (id : ScriptId) {manager : GzBuildManager} (h : Coherent manager) :
    Coherent (manager.queueCompile id) := by
  simp only [queueCompile]
  split_ifs
  · exact h
  · exact h
  · exact h
  · exact h
  · exact coherent_accept id h

/-! ### Runs -/

theorem coherent_step (manager : GzBuildManager) (op : ManagerOp) (h : Coherent manager) :
    Coherent (step manager op) := by
  cases op with
  | queueCompile id => exact coherent_queueCompile id h
  | pump environments completion => exact coherent_pump environments completion h
  | setSource id source =>
    exact coherent_quiet h ⟨fun other ↦ setScript_generation manager id other _ rfl, fun _ ↦ rfl⟩
      rfl (.inl rfl) h.warranted
  | setPath id path =>
    exact coherent_quiet h ⟨fun other ↦ setScript_generation manager id other _ rfl, fun _ ↦ rfl⟩
      rfl (.inl rfl) h.warranted
  | shutdown => exact ⟨by simp [step, shutdown], by simp [step, shutdown], nofun, h.warranted⟩

theorem coherent_initial (scripts : ScriptId → GzScript) : Coherent (initial scripts) := by
  refine ⟨by simp [initial], by simp [initial], nofun, fun event older hsuffix ↦ ?_⟩
  simp [initial] at hsuffix

/-- After every run, no two queued requests are for one script, every queued request carries the
generation of its script, and every module was published for the last request accepted for its
script, by `complete_active` only when the key it computes again is that of the compiled plan.
Whatever the next step then changes about the modules of scripts is in the history, and what it
publishes is the output of a plan made of the path and the source of that request. -/
theorem noStalePublish (scripts : ScriptId → GzScript) (ops : List ManagerOp) :
    ((exec step (initial scripts) ops).pending.map CompileRequest.script).Nodup ∧
      (∀ request ∈ (exec step (initial scripts) ops).pending, request.generation =
        ((exec step (initial scripts) ops).scripts request.script).compileGeneration) ∧
      (∀ event older, event :: older <:+ (exec step (initial scripts) ops).history →
        Warranted older event) ∧
      ∀ op, ∃ events, Recorded (ops.flatMap roundsOf) (roundsOf op) events
        (exec step (initial scripts) ops) (step (exec step (initial scripts) ops) op) := by
  have hcoherent : Coherent (exec step (initial scripts) ops) :=
    exec_invariant step Coherent coherent_step (coherent_initial scripts) ops
  exact ⟨hcoherent.distinct, fun request hrequest ↦ (hcoherent.queued request hrequest).2,
    hcoherent.warranted, recorded_step (runningPlanned_exec scripts ops)⟩

end Gzscript.Build.Publication
