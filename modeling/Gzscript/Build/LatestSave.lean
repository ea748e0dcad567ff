import Gzscript.Build.SoleScript

/-!
# The latest save

A save of a script sets its source, writes it to disk and queues a compile. When the manager has
become idle, the script has the module of the source that was saved last, unless that save was
overtaken: it restored the source that was just being compiled, while a request for another source
waited in the queue. Such a save queues nothing, the running compile is dropped in favour of the
queued request, and that request is refused because its source is no longer on disk.

A save that is not overtaken makes a promise that every later round and completion keeps
(`promised_effect`), and an overtaken one is lost for good (`Lost`). Together they give
`latestSave_built_iff`; `restoredSource_not_built` is a script that is saved three times.
-/

set_option autoImplicit false
set_option relaxedAutoImplicit false

namespace Gzscript.Build.LatestSave

open Manager GzBuildManager Publication SoleScript Library.Transition

/-! ### Runs -/

/-- The manager and the text of the script on disk. -/
structure World where
  manager : GzBuildManager
  disk : String

inductive SaveOp
  | save (source : String)
  | pump (environments : List Environment) (completion : Option (Environment × List Environment))

/-- Set the source, write it to disk and queue a compile. -/
def save (id : ScriptId) (world : World) (source : String) : World where
  manager := (world.manager.setSource id source).queueCompile id
  disk := source

def step (id : ScriptId) (world : World) : SaveOp → World
  | .save source => save id world source
  | .pump environments completion =>
    { world with manager := world.manager.pump environments completion }

/-- A pump meets only undisturbed answers. -/
def Calm (toolchain : Toolchain) (succeeds : String → Prop) (world : World) : SaveOp → Prop
  | .save _ => True
  | .pump environments completion =>
    (∀ environment ∈ environments, Undisturbed toolchain succeeds world.disk environment) ∧
      ∀ environment later, completion = some (environment, later) →
        Undisturbed toolchain succeeds world.disk environment ∧
          ∀ other ∈ later, Undisturbed toolchain succeeds world.disk other

/-- No compiler runs and nothing is queued. -/
def Idle (manager : GzBuildManager) : Prop := manager.active = none ∧ manager.pending = []

/-- The source is the one that is being compiled, another source waits in the queue, and the module
of the script is not built from the source either. -/
def Overtaken (toolchain : Toolchain) (id : ScriptId) (manager : GzBuildManager)
    (source : String) : Prop :=
  (∃ completed, manager.active = some completed ∧ completed.request.source = source) ∧
    (∃ queued ∈ manager.pending, normalizeSource queued.source ≠ normalizeSource source) ∧
    (manager.scripts id).module ≠ some (toolchain.moduleOf source)

variable {toolchain : Toolchain} {succeeds : String → Prop} {id : ScriptId} {path : String}

/-! ### A promise that is kept -/

variable (toolchain id)

/-- The script has the module of the source on disk, or a request for it will be handled. -/
def Promised (disk : String) (manager : GzBuildManager) : Prop :=
  (manager.scripts id).module = some (toolchain.moduleOf disk) ∨
    (∃ queued ∈ manager.pending, normalizeSource queued.source = normalizeSource disk) ∨
    manager.pending = [] ∧ ∃ completed, manager.active = some completed ∧
      normalizeSource completed.request.source = normalizeSource disk

variable {toolchain id}

/-- Handling the request that a promise rests on keeps the promise. -/
theorem promised_effect {disk : String} {request : CompileRequest} {before after : GzBuildManager}
    (hbuilds : succeeds (normalizeSource disk))
    (heffect : Effect toolchain succeeds id disk request before after)
    (hpromise : (before.scripts id).module = some (toolchain.moduleOf disk) ∨
      (∃ queued ∈ before.pending, normalizeSource queued.source = normalizeSource disk) ∨
      before.pending = [] ∧ Latest before request ∧
        normalizeSource request.source = normalizeSource disk) :
    Promised toolchain id disk after := by
  cases heffect with
  | dropped hpending _ hmodule hlost =>
    rcases hpromise with hhas | hqueued | ⟨hempty, hlatest, hsource⟩
    · exact .inl (hmodule.trans hhas)
    · exact .inr (.inl (by rwa [hpending]))
    · exact absurd hbuilds (hlost hlatest (by simp [hempty]) hsource)
  | again again hsame _ hpending _ hmodule =>
    rcases hpromise with hhas | ⟨queued, hqueued, hsource⟩ | ⟨-, -, hsource⟩
    · exact .inl (hmodule.trans hhas)
    · exact .inr (.inl ⟨queued, by rw [hpending]; exact List.mem_cons_of_mem _ hqueued, hsource⟩)
    · refine .inr (.inl ⟨again, by rw [hpending]; exact List.mem_cons_self, ?_⟩)
      rw [source_eq_of_bare hsame, hsource]
  | built _ _ _ hmodule => exact .inl hmodule
  | started completed hsame _ hdisk hpending hactive hmodule =>
    rcases hpromise with hhas | hqueued | ⟨hempty, -, -⟩
    · exact .inl (hmodule.trans hhas)
    · exact .inr (.inl (by rwa [hpending]))
    · refine .inr (.inr ⟨hpending.trans hempty, completed, hactive, ?_⟩)
      rw [source_eq_of_bare hsame, hdisk]

theorem promised_round {disk : String} {environment : Environment} {manager : GzBuildManager}
    {request : CompileRequest} {pending : List CompileRequest}
    (henvironment : Undisturbed toolchain succeeds disk environment)
    (hbuilds : succeeds (normalizeSource disk))
    (h : OneScript toolchain succeeds id path manager) (hactive : manager.active = none)
    (hpending : manager.pending = request :: pending)
    (hpromise : Promised toolchain id disk manager) :
    Promised toolchain id disk
      (startRequest environment request { manager with pending := pending }).1 := by
  obtain ⟨hscript, -, hprepared⟩ := h.queued request (by simp [hpending])
  obtain ⟨hempty, -⟩ := h.pop hactive hpending
  have hlatest : Latest manager request := h.coherent.queued request (by simp [hpending])
  refine promised_effect hbuilds (effect_startRequest henvironment hscript hprepared) ?_
  rcases hpromise with hhas | ⟨queued, hqueued, hsource⟩ | ⟨hnone, -⟩
  · exact .inl hhas
  · obtain rfl := h.eq_of_queued hqueued (by simp [hpending] : request ∈ manager.pending)
    exact .inr (.inr ⟨hempty, hlatest, hsource⟩)
  · rw [hpending] at hnone
    cases hnone

theorem promised_completion {disk : String} {environment : Environment} {manager : GzBuildManager}
    {completed : ActiveCompile} (henvironment : Undisturbed toolchain succeeds disk environment)
    (hbuilds : succeeds (normalizeSource disk))
    (h : OneScript toolchain succeeds id path manager) (hactive : manager.active = some completed)
    (hpromise : Promised toolchain id disk manager) :
    Promised toolchain id disk
      (settleActive environment completed { manager with active := none }) := by
  obtain ⟨hscript, -, hplan⟩ := h.running completed hactive
  refine promised_effect hbuilds (effect_settleActive henvironment hscript hplan) ?_
  rcases hpromise with hhas | hqueued | ⟨hempty, running, hrunning, hsource⟩
  · exact .inl hhas
  · exact .inr (.inl hqueued)
  · obtain rfl := Option.some.inj (hactive.symm.trans hrunning)
    have hlatest : Latest manager completed.request :=
      (h.coherent.running completed hactive).resolve_right (by simp [hempty])
    exact .inr (.inr ⟨hempty, hlatest, hsource⟩)

/-! ### A save that is lost -/

variable (toolchain id)

/-- The script does not have the module of the source on disk, nothing in the queue is for it, and a
running compiler has a successor in the queue. -/
structure Lost (disk : String) (manager : GzBuildManager) : Prop where
  module_ne : (manager.scripts id).module ≠ some (toolchain.moduleOf disk)
  queued_ne : ∀ queued ∈ manager.pending, normalizeSource queued.source ≠ normalizeSource disk
  succeeded : manager.active ≠ none → manager.pending ≠ []

variable {toolchain id}

theorem lost_round {disk : String} {environment : Environment} {manager : GzBuildManager}
    {request : CompileRequest} {pending : List CompileRequest}
    (henvironment : Undisturbed toolchain succeeds disk environment)
    (h : OneScript toolchain succeeds id path manager) (hactive : manager.active = none)
    (hpending : manager.pending = request :: pending) (hlost : Lost toolchain id disk manager) :
    Lost toolchain id disk
      (startRequest environment request { manager with pending := pending }).1 := by
  obtain ⟨hscript, -, hprepared⟩ := h.queued request (by simp [hpending])
  have hrequest := hlost.queued_ne request (by simp [hpending])
  have hrest : ∀ queued ∈ pending, normalizeSource queued.source ≠ normalizeSource disk :=
    fun queued hqueued ↦ hlost.queued_ne queued (by simp [hpending, hqueued])
  have heffect : Effect toolchain succeeds id disk request { manager with pending := pending } _ :=
    effect_startRequest henvironment hscript hprepared
  cases heffect with
  | dropped hafter hnone hmodule =>
    refine ⟨by rw [hmodule]; exact hlost.module_ne, by rw [hafter]; exact hrest, fun hsome ↦ ?_⟩
    exact absurd (hnone.trans hactive) hsome
  | again again hsame _ hafter hnone hmodule =>
    refine ⟨by rw [hmodule]; exact hlost.module_ne, fun queued hqueued ↦ ?_, fun hsome ↦ ?_⟩
    · rw [hafter] at hqueued
      rcases List.mem_cons.mp hqueued with rfl | hqueued
      · rw [source_eq_of_bare hsame]
        exact hrequest
      · exact hrest queued hqueued
    · exact absurd (hnone.trans hactive) hsome
  | built hsource => exact absurd hsource hrequest
  | started _ _ _ hsource => exact absurd hsource hrequest

theorem lost_completion {disk : String} (environment : Environment) {manager : GzBuildManager}
    {completed : ActiveCompile} (h : OneScript toolchain succeeds id path manager)
    (hactive : manager.active = some completed) (hlost : Lost toolchain id disk manager) :
    Lost toolchain id disk
      (settleActive environment completed { manager with active := none }) := by
  obtain ⟨hscript, -, -⟩ := h.running completed hactive
  obtain ⟨queued, hqueued⟩ := List.exists_mem_of_ne_nil _ (hlost.succeeded (by simp [hactive]))
  have hsuccessor : ∃ queued ∈ manager.pending, queued.script = completed.request.script :=
    ⟨queued, hqueued, (h.queued queued hqueued).1.trans hscript.symm⟩
  rcases settleActive_superseded environment completed { manager with active := none } hsuccessor
    with hsame | hfailed
  · rw [hsame]
    exact ⟨hlost.module_ne, hlost.queued_ne, fun hsome ↦ absurd rfl hsome⟩
  · rw [hfailed]
    refine ⟨?_, hlost.queued_ne, fun hsome ↦ absurd rfl hsome⟩
    rw [module_giveUp]
    exact hlost.module_ne

/-! ### Saving -/

/-- Setting the source keeps to the script. -/
theorem oneScript_setSource {manager : GzBuildManager}
    (h : OneScript toolchain succeeds id path manager) (source : String) :
    OneScript toolchain succeeds id path (manager.setSource id source) where
  coherent := coherent_step manager (.setSource id source) h.coherent
  started := h.started
  scriptPath := by simp [setSource, setScript, h.scriptPath]
  queued := h.queued
  running := h.running

theorem oneScript_accept {manager : GzBuildManager}
    (h : OneScript toolchain succeeds id path manager) :
    OneScript toolchain succeeds id path (manager.accept id) where
  coherent := coherent_accept id h.coherent
  started := h.started
  scriptPath := by simp [accept, log, setScript, h.scriptPath]
  queued queued hqueued := by
    rcases (accept_mem_iff h.coherent id queued).mp hqueued with rfl | ⟨hmember, -⟩
    · exact ⟨rfl, h.scriptPath, fun _ hprepared ↦ by cases hprepared⟩
    · exact h.queued queued hmember
  running := h.running

theorem asksFor_iff {manager : GzBuildManager} {request : CompileRequest}
    (hpath : (manager.scripts id).path = path)
    (hrequest : request.script = id ∧ request.resourcePath = path) :
    asksFor request id (manager.scripts id) = true ↔
      request.source = (manager.scripts id).source := by
  simp [asksFor, hrequest, hpath]

/-- A request is queued, unless one for the same source is running or queued already. -/
theorem queueCompile_cases {manager : GzBuildManager}
    (h : OneScript toolchain succeeds id path manager) (hpath : path ≠ "") :
    (∃ completed, manager.active = some completed ∧
        completed.request.source = (manager.scripts id).source) ∧
      manager.queueCompile id = manager ∨
    (∃ queued ∈ manager.pending, queued.source = (manager.scripts id).source) ∧
      manager.queueCompile id = manager ∨
    (¬ ∃ completed, manager.active = some completed ∧
        completed.request.source = (manager.scripts id).source) ∧
      manager.queueCompile id = manager.accept id := by
  have hrunning : (manager.active.any fun active ↦
        asksFor active.request id (manager.scripts id)) = true ↔
      ∃ completed, manager.active = some completed ∧
        completed.request.source = (manager.scripts id).source := by
    rw [Option.any_eq_true]
    refine exists_congr fun completed ↦ and_congr_right fun hactive ↦ ?_
    obtain ⟨hscript, hresource, -⟩ := h.running completed hactive
    exact asksFor_iff h.scriptPath ⟨hscript, hresource⟩
  have hqueued : (manager.pending.any fun queued ↦ asksFor queued id (manager.scripts id)) = true ↔
      ∃ queued ∈ manager.pending, queued.source = (manager.scripts id).source := by
    rw [List.any_eq_true]
    refine exists_congr fun queued ↦ and_congr_right fun hmember ↦ ?_
    obtain ⟨hscript, hresource, -⟩ := h.queued queued hmember
    exact asksFor_iff h.scriptPath ⟨hscript, hresource⟩
  have hstarted : ¬ manager.shutdownStarted = true := by simp [h.started]
  simp only [queueCompile, if_neg hstarted, h.scriptPath, if_neg hpath]
  split
  next hactive => exact .inl ⟨hrunning.mp hactive, rfl⟩
  next hactive =>
    split
    next hpending => exact .inr (.inl ⟨hqueued.mp hpending, rfl⟩)
    next => exact .inr (.inr ⟨fun hsome ↦ hactive (hrunning.mpr hsome), rfl⟩)

theorem oneScript_save {world : World}
    (h : OneScript toolchain succeeds id path world.manager) (hpath : path ≠ "") (source : String) :
    OneScript toolchain succeeds id path (save id world source).manager := by
  have hset := oneScript_setSource h source
  rcases queueCompile_cases hset hpath with ⟨-, hsame⟩ | ⟨-, hsame⟩ | ⟨-, haccept⟩
  · rw [save, hsame]
    exact hset
  · rw [save, hsame]
    exact hset
  · rw [save, haccept]
    exact oneScript_accept hset

/-- A save that is not overtaken makes a promise. -/
theorem promised_save {world : World}
    (h : OneScript toolchain succeeds id path world.manager) (hpath : path ≠ "") {source : String}
    (hkept : ¬ Overtaken toolchain id world.manager source) :
    Promised toolchain id source (save id world source).manager := by
  have hset := oneScript_setSource h source
  rcases queueCompile_cases hset hpath with ⟨⟨completed, hactive, hsame⟩, hunchanged⟩ |
    ⟨⟨queued, hqueued, hsame⟩, hunchanged⟩ | ⟨-, haccept⟩
  · rw [save, hunchanged]
    rw [setSource_source] at hsame
    by_cases hwaits : ∃ queued ∈ world.manager.pending,
        normalizeSource queued.source = normalizeSource source
    · exact .inr (.inl hwaits)
    · cases hpending : world.manager.pending with
      | nil => exact .inr (.inr ⟨hpending, completed, hactive, by rw [hsame]⟩)
      | cons queued rest =>
        refine .inl ((setSource_module _ _ _).trans ?_)
        by_contra hne
        have hmember : queued ∈ world.manager.pending := by simp [hpending]
        exact hkept ⟨⟨completed, hactive, hsame⟩,
          ⟨queued, hmember, fun heq ↦ hwaits ⟨queued, hmember, heq⟩⟩, hne⟩
  · rw [save, hunchanged]
    exact .inr (.inl ⟨queued, hqueued, by rw [hsame, setSource_source]⟩)
  · rw [save, haccept]
    refine .inr (.inl ⟨_, (accept_mem_iff hset.coherent id _).mpr (.inl rfl), ?_⟩)
    rw [requestFor, setSource_source]

/-- An overtaken save is lost. -/
theorem lost_save {world : World} (h : OneScript toolchain succeeds id path world.manager)
    (hpath : path ≠ "") {source : String}
    (hovertaken : Overtaken toolchain id world.manager source) :
    Lost toolchain id source (save id world source).manager := by
  have hset := oneScript_setSource h source
  obtain ⟨⟨completed, hactive, hsame⟩, ⟨queued, hqueued, hother⟩, hmodule⟩ := hovertaken
  have hsole : ∀ other ∈ world.manager.pending,
      normalizeSource other.source ≠ normalizeSource source := fun other hmember ↦ by
    rw [h.eq_of_queued hmember hqueued]
    exact hother
  have hunchanged : (world.manager.setSource id source).queueCompile id =
      world.manager.setSource id source := by
    rcases queueCompile_cases hset hpath with ⟨-, hunchanged⟩ | ⟨-, hunchanged⟩ | ⟨hidle, -⟩
    · exact hunchanged
    · exact hunchanged
    · exact absurd ⟨completed, hactive, by rw [setSource_source, hsame]⟩ hidle
  rw [save, hunchanged]
  refine ⟨?_, hsole, fun _ ↦ List.ne_nil_of_mem hqueued⟩
  rw [setSource_module]
  exact hmodule

/-! ### Runs of saves -/

theorem oneScript_step (hpath : path ≠ "") (world : World) (op : SaveOp)
    (hcalm : Calm toolchain succeeds world op)
    (h : OneScript toolchain succeeds id path world.manager) :
    OneScript toolchain succeeds id path (step id world op).manager := by
  cases op with
  | save source => exact oneScript_save h hpath source
  | pump environments completion =>
    obtain ⟨henvironments, hlater⟩ := hcalm
    exact pump_keeps (OneScript toolchain succeeds id path)
      (Undisturbed toolchain succeeds world.disk)
      (fun environment manager request pending henvironment hbefore hactive hpending ↦
        oneScript_round henvironment hbefore hactive hpending)
      (fun environment manager completed henvironment hbefore hactive ↦
        oneScript_completion henvironment hbefore hactive) henvironments hlater h

theorem oneScript_exec (hpath : path ≠ "") {world : World} {ops : List SaveOp}
    (hcalm : Along (step id) (Calm toolchain succeeds) world ops)
    (h : OneScript toolchain succeeds id path world.manager) :
    OneScript toolchain succeeds id path (exec (step id) world ops).manager :=
  exec_along (step id) (Calm toolchain succeeds)
    (fun world ↦ OneScript toolchain succeeds id path world.manager) (oneScript_step hpath) hcalm h

/-- What every round and every completion keeps while nothing is saved. -/
theorem exec_pumps (property : GzBuildManager → Prop) {disk : String}
    (hround : ∀ environment manager request pending,
      Undisturbed toolchain succeeds disk environment → property manager → manager.active = none →
      manager.pending = request :: pending →
      property (startRequest environment request { manager with pending := pending }).1)
    (hcompletion : ∀ environment manager completed,
      Undisturbed toolchain succeeds disk environment → property manager →
      manager.active = some completed →
      property (settleActive environment completed { manager with active := none }))
    {world : World} {ops : List SaveOp}
    (hcalm : Along (step id) (Calm toolchain succeeds) world ops)
    (hpumps : ∀ op ∈ ops, ∀ source, op ≠ .save source) (hdisk : world.disk = disk)
    (h : property world.manager) : property (exec (step id) world ops).manager := by
  induction ops generalizing world with
  | nil => exact h
  | cons op ops ih =>
    obtain ⟨hop, hrest⟩ := hcalm
    cases op with
    | save source => exact absurd rfl (hpumps _ List.mem_cons_self source)
    | pump environments completion =>
      subst hdisk
      exact ih hrest (fun op hop ↦ hpumps op (List.mem_cons_of_mem _ hop)) rfl
        (pump_keeps property (Undisturbed toolchain succeeds world.disk) hround hcompletion hop.1
          hop.2 h)

theorem oneScript_initial (scripts : ScriptId → GzScript) (id : ScriptId) :
    OneScript toolchain succeeds id (scripts id).path (initial scripts) where
  coherent := coherent_initial scripts
  started := rfl
  scriptPath := rfl
  queued := by simp [initial]
  running := nofun

/-- Whenever the manager is idle, the script has the module of the source that was saved last,
exactly when that save was not overtaken. -/
theorem latestSave_built_iff (toolchain : Toolchain) (succeeds : String → Prop) (id : ScriptId)
    (scripts : ScriptId → GzScript) (disk : String) (hpath : (scripts id).path ≠ "")
    (before : List SaveOp) (source : String) (after : List SaveOp)
    (hcalm : Along (step id) (Calm toolchain succeeds) ⟨initial scripts, disk⟩
      (before ++ .save source :: after))
    (hlast : ∀ op ∈ after, ∀ other, op ≠ .save other)
    (hsucceeds : succeeds (normalizeSource source))
    (hidle : Idle (exec (step id) ⟨initial scripts, disk⟩
      (before ++ .save source :: after)).manager) :
    ((exec (step id) ⟨initial scripts, disk⟩ (before ++ .save source :: after)).manager.scripts
        id).module = some (toolchain.moduleOf source) ↔
      ¬ Overtaken toolchain id (exec (step id) ⟨initial scripts, disk⟩ before).manager source := by
  obtain ⟨hcalmBefore, -, hcalmAfter⟩ := (along_append _ _ _ _ _).mp hcalm
  rw [exec_append, exec_cons] at hidle ⊢
  set world := exec (step id) ⟨initial scripts, disk⟩ before
  have hbefore : OneScript toolchain succeeds id (scripts id).path world.manager :=
    oneScript_exec hpath hcalmBefore (oneScript_initial scripts id)
  have hsaved := oneScript_save hbefore hpath source
  constructor
  · intro hmodule hovertaken
    have hfinal := exec_pumps
      (fun manager ↦ OneScript toolchain succeeds id (scripts id).path manager ∧
        Lost toolchain id source manager)
      (fun environment manager request pending henvironment h hactive hpending ↦
        ⟨oneScript_round henvironment h.1 hactive hpending,
          lost_round henvironment h.1 hactive hpending h.2⟩)
      (fun environment manager completed henvironment h hactive ↦
        ⟨oneScript_completion henvironment h.1 hactive,
          lost_completion environment h.1 hactive h.2⟩)
      hcalmAfter hlast rfl ⟨hsaved, lost_save hbefore hpath hovertaken⟩
    exact hfinal.2.module_ne hmodule
  · intro hkept
    have hfinal := exec_pumps
      (fun manager ↦ OneScript toolchain succeeds id (scripts id).path manager ∧
        Promised toolchain id source manager)
      (fun environment manager request pending henvironment h hactive hpending ↦
        ⟨oneScript_round henvironment h.1 hactive hpending,
          promised_round henvironment hsucceeds h.1 hactive hpending h.2⟩)
      (fun environment manager completed henvironment h hactive ↦
        ⟨oneScript_completion henvironment h.1 hactive,
          promised_completion henvironment hsucceeds h.1 hactive h.2⟩)
      hcalmAfter hlast rfl ⟨hsaved, promised_save hbefore hpath hkept⟩
    rcases hfinal.2 with hmodule | ⟨queued, hqueued, -⟩ | ⟨-, completed, hactive, -⟩
    · exact hmodule
    · rw [hidle.2] at hqueued
      cases hqueued
    · rw [hidle.1] at hactive
      cases hactive

/-! ### Three saves -/

/-- Keys that are the normalized sources, and outputs named after them. -/
def sampleToolchain : Toolchain where
  key source := source
  key_injective := fun _ _ h ↦ h
  output key := "/cache/script_" ++ key ++ ".so"
  output_injective first second h := by
    have hchars := congrArg String.toList h
    simp only [String.toList_append, List.append_assoc, List.append_cancel_left_eq,
      List.append_cancel_right_eq] at hchars
    exact String.toList_inj.mp hchars

/-- A compiler that always succeeds, an empty cache and free locks. -/
def obliging (toolchain : Toolchain) (disk : String) : Environment where
  prepare _ source :=
    if normalizeSource source = normalizeSource disk then some (toolchain.plan source) else none
  prepareAgain _ source :=
    if normalizeSource source = normalizeSource disk then some (toolchain.plan source) else none
  tryLock _ := .acquired
  cacheStampMatches _ := false
  replaceOutput _ := true
  load _ := true
  outputExists _ := true
  writeAdapter _ := true
  startCompiler _ := true
  exitCode _ := 0

theorem undisturbed_obliging (toolchain : Toolchain) (succeeds : String → Prop) (disk : String) :
    Undisturbed toolchain succeeds disk (obliging toolchain disk) where
  prepare_some _ source plan h := by
    simp only [obliging] at h
    split_ifs at h with hsame
    exact ⟨hsame, (Option.some.inj h).symm⟩
  prepare_isSome _ source h _ := by simp [obliging, h]
  prepareAgain_some _ source plan h := by
    simp only [obliging] at h
    split_ifs at h with hsame
    exact ⟨hsame, (Option.some.inj h).symm⟩
  prepareAgain_isSome _ source h _ := by simp [obliging, h]
  tryLock _ _ := nofun
  load _ _ := rfl
  writeAdapter _ _ := rfl
  startCompiler _ _ := rfl
  exitCode _ _ := rfl
  replaceOutput _ _ := rfl

def sampleScripts : ScriptId → GzScript := fun _ ↦ ⟨"res://a.zig", "", 0, none, false⟩

/-- A pump while a source is on disk, at whose end the compiler has ended or not. -/
def samplePump (disk : String) (ends : Bool) : SaveOp :=
  .pump [obliging sampleToolchain disk]
    (if ends then some (obliging sampleToolchain disk, [obliging sampleToolchain disk]) else none)

theorem calm_samplePump (succeeds : String → Prop) {world : World} {disk : String}
    (hdisk : world.disk = disk) (ends : Bool) :
    Calm sampleToolchain succeeds world (samplePump disk ends) := by
  subst hdisk
  have hundisturbed := undisturbed_obliging sampleToolchain succeeds world.disk
  refine ⟨fun environment henvironment ↦ ?_, fun environment later hcompletion ↦ ?_⟩
  · obtain rfl := List.mem_singleton.mp henvironment
    exact hundisturbed
  · obtain ⟨-, hpair⟩ := Option.ite_none_right_eq_some.mp hcompletion
    obtain ⟨rfl, rfl⟩ := Prod.mk.inj (Option.some.inj hpair)
    refine ⟨hundisturbed, fun other hother ↦ ?_⟩
    obtain rfl := List.mem_singleton.mp hother
    exact hundisturbed

/-- Restoring a source that is being compiled, after another one was saved, leaves the script
without a module. -/
theorem restoredSource_not_built :
    ¬ ∀ (toolchain : Toolchain) (succeeds : String → Prop) (id : ScriptId)
      (scripts : ScriptId → GzScript) (disk : String) (before : List SaveOp) (source : String)
      (after : List SaveOp), (scripts id).path ≠ "" →
      Along (step id) (Calm toolchain succeeds) ⟨initial scripts, disk⟩
        (before ++ .save source :: after) →
      (∀ op ∈ after, ∀ other, op ≠ .save other) → succeeds (normalizeSource source) →
      Idle (exec (step id) ⟨initial scripts, disk⟩ (before ++ .save source :: after)).manager →
      ((exec (step id) ⟨initial scripts, disk⟩ (before ++ .save source :: after)).manager.scripts
        id).module = some (toolchain.moduleOf source) := by
  intro h
  have hmodule := h sampleToolchain (fun _ ↦ True) 0 sampleScripts ""
    [.save "A", samplePump "A" false, .save "B"] "A" [samplePump "A" true] (by decide)
    ⟨trivial, calm_samplePump _ rfl false, trivial, trivial, calm_samplePump _ rfl true, trivial⟩
    (by simp [samplePump]) trivial ⟨by decide +kernel, by decide +kernel⟩
  exact absurd hmodule (by decide +kernel)

/-- A source that is saved and compiled is built. -/
theorem latestSave_built_iff_single :
    ((exec (step 0) ⟨initial sampleScripts, ""⟩
        [.save "A", samplePump "A" false, samplePump "A" true]).manager.scripts 0).module =
      some (sampleToolchain.moduleOf "A") ↔
    ¬ Overtaken sampleToolchain 0 (exec (step 0) ⟨initial sampleScripts, ""⟩ []).manager "A" :=
  latestSave_built_iff sampleToolchain (fun _ ↦ True) 0 sampleScripts "" (by decide) [] "A"
    [samplePump "A" false, samplePump "A" true]
    ⟨trivial, calm_samplePump _ rfl false, calm_samplePump _ rfl true, trivial⟩
    (by simp [samplePump]) trivial ⟨by decide +kernel, by decide +kernel⟩

end Gzscript.Build.LatestSave
