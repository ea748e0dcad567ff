import Gzscript.Build.Publication

/-!
# Compiling one script

What rounds and completions do when the only requests are for one script and nothing disturbs the
compiler. The plan of a request then depends on its source alone, up to line breaks and surrounding
space, and `prepare` accepts the source that is on disk and no other (`Undisturbed`). `Effect` lists
what can become of a request; its last case analysis of `start_next` and `complete_active` is done
here (`effect_startRequest`, `effect_settleActive`).
-/

set_option autoImplicit false
set_option relaxedAutoImplicit false

namespace Gzscript.Build.SoleScript

open Manager GzBuildManager Publication

/-! ### Sources and plans -/

/-- Replace every carriage return that precedes a line feed with it. -/
def joinLineBreaks : List Char → List Char
  | [] => []
  | [c] => [c]
  | c :: next :: rest =>
    if c = Char.ofNat 13 ∧ next = Char.ofNat 10 then next :: joinLineBreaks rest
    else c :: joinLineBreaks (next :: rest)

/-- `strip_edges`: without space and control characters at both ends. -/
def stripEdges (text : List Char) : List Char :=
  let blank := fun c : Char ↦ decide (c.toNat ≤ 32)
  ((text.dropWhile blank).reverse.dropWhile blank).reverse

/-- `normalize_source`. -/
def normalizeSource (source : String) : String :=
  String.ofList (stripEdges (joinLineBreaks source.toList))

/-- How a plan depends on the source of a script while its path, its imports and the compiler stay
the same: the key hashes the normalized source, and names the output. -/
structure Toolchain where
  key : String → String
  key_injective : Function.Injective key
  output : String → String
  output_injective : Function.Injective output

def Toolchain.plan (toolchain : Toolchain) (source : String) : CompilePlan where
  key := toolchain.key (normalizeSource source)
  output := toolchain.output (toolchain.key (normalizeSource source))

/-- The module that is built from a source. -/
def Toolchain.moduleOf (toolchain : Toolchain) (source : String) : String :=
  (toolchain.plan source).output

theorem plan_congr (toolchain : Toolchain) {first second : String}
    (h : normalizeSource first = normalizeSource second) :
    toolchain.plan first = toolchain.plan second := by
  rw [Toolchain.plan, Toolchain.plan, h]

/-- The answers while a source is on disk: `prepare` accepts that source only, and for the sources
that build, which `succeeds` names in their normal form, nothing fails. -/
structure Undisturbed (toolchain : Toolchain) (succeeds : String → Prop) (disk : String)
    (environment : Environment) : Prop where
  prepare_some : ∀ path source plan, environment.prepare path source = some plan →
    normalizeSource source = normalizeSource disk ∧ plan = toolchain.plan source
  prepare_isSome : ∀ path source, normalizeSource source = normalizeSource disk →
    succeeds (normalizeSource source) → (environment.prepare path source).isSome
  prepareAgain_some : ∀ path source plan, environment.prepareAgain path source = some plan →
    normalizeSource source = normalizeSource disk ∧ plan = toolchain.plan source
  prepareAgain_isSome : ∀ path source, normalizeSource source = normalizeSource disk →
    succeeds (normalizeSource source) → (environment.prepareAgain path source).isSome
  tryLock : ∀ source, succeeds (normalizeSource source) →
    environment.tryLock (toolchain.plan source) ≠ .error
  load : ∀ source, succeeds (normalizeSource source) →
    environment.load (toolchain.plan source) = true
  writeAdapter : ∀ source, succeeds (normalizeSource source) →
    environment.writeAdapter (toolchain.plan source) = true
  startCompiler : ∀ source, succeeds (normalizeSource source) →
    environment.startCompiler (toolchain.plan source) = true
  exitCode : ∀ source, succeeds (normalizeSource source) →
    environment.exitCode (toolchain.plan source) = 0
  replaceOutput : ∀ source, succeeds (normalizeSource source) →
    environment.replaceOutput (toolchain.plan source) = true

/-! ### Requests of one script -/

variable (toolchain : Toolchain) (succeeds : String → Prop) (id : ScriptId)

/-- A plan that a request keeps is the plan of its source, unless the source does not build. -/
def Prepared (request : CompileRequest) : Prop :=
  ∀ plan, request.prepared = some plan →
    plan = toolchain.plan request.source ∨ ¬ succeeds (normalizeSource request.source)

/-- What holds of a manager that has had only saves of one script. -/
structure OneScript (path : String) (manager : GzBuildManager) : Prop where
  coherent : Coherent manager
  started : manager.shutdownStarted = false
  scriptPath : (manager.scripts id).path = path
  queued : ∀ request ∈ manager.pending, request.script = id ∧ request.resourcePath = path ∧
    Prepared toolchain succeeds request
  running : ∀ completed, manager.active = some completed →
    completed.request.script = id ∧ completed.request.resourcePath = path ∧
      completed.plan = toolchain.plan completed.request.source

/-- What a round or a completion does with a request for a source while a source is on disk. -/
inductive Effect (disk : String) (request : CompileRequest) (before after : GzBuildManager) : Prop
  /-- The request is dropped, which does not happen to the last request of a source that is on disk
  and builds. -/
  | dropped (hpending : after.pending = before.pending) (hactive : after.active = before.active)
      (hmodule : (after.scripts id).module = (before.scripts id).module)
      (hlost : Latest before request → (∀ queued ∈ before.pending, queued.script ≠ id) →
        normalizeSource request.source = normalizeSource disk →
        ¬ succeeds (normalizeSource disk))
  /-- The request is put back. -/
  | again (queued : CompileRequest) (hsame : queued.bare = request.bare)
      (hprepared : Prepared toolchain succeeds queued)
      (hpending : after.pending = queued :: before.pending) (hactive : after.active = before.active)
      (hmodule : (after.scripts id).module = (before.scripts id).module)
  /-- The script has the module of the source. -/
  | built (hsource : normalizeSource request.source = normalizeSource disk)
      (hpending : after.pending = before.pending) (hactive : after.active = before.active)
      (hmodule : (after.scripts id).module = some (toolchain.moduleOf disk))
  /-- A compiler runs for the source. -/
  | started (completed : ActiveCompile) (hsame : completed.request.bare = request.bare)
      (hplan : completed.plan = toolchain.plan request.source)
      (hdisk : normalizeSource request.source = normalizeSource disk)
      (hpending : after.pending = before.pending) (hactive : after.active = some completed)
      (hmodule : (after.scripts id).module = (before.scripts id).module)

/-! ### What becomes of a request -/

variable {toolchain succeeds id}

omit toolchain id in
theorem succeeds_of_disk {disk source : String}
    (hdisk : normalizeSource source = normalizeSource disk)
    (hbuilds : succeeds (normalizeSource disk)) : succeeds (normalizeSource source) := by
  rwa [hdisk]

theorem module_giveUp (manager : GzBuildManager) (other : ScriptId) :
    ((manager.giveUp other).scripts id).module = (manager.scripts id).module := by
  by_cases hother : id = other
  · subst hother
    simp [giveUp, log, setScript]
  · simp [giveUp, log, setScript, hother]

theorem effect_runPlan {environment : Environment} {disk : String} {request again : CompileRequest}
    {manager : GzBuildManager} (henvironment : Undisturbed toolchain succeeds disk environment)
    (hscript : request.script = id) (hsame : again.bare = request.bare)
    (hdisk : normalizeSource request.source = normalizeSource disk) :
    Effect toolchain succeeds id disk request manager
      (manager.runPlan environment again (toolchain.plan request.source)) := by
  have houtput : (toolchain.plan request.source).output = toolchain.moduleOf disk := by
    rw [plan_congr toolchain hdisk, Toolchain.moduleOf]
  have hagain : again.script = id := (script_eq_of_bare hsame).trans hscript
  have hdropped (answer : CompilePlan → Bool)
      (hsucceeds : ∀ source, succeeds (normalizeSource source) →
        answer (toolchain.plan source) = true)
      (hanswer : ¬ answer (toolchain.plan request.source) = true) :
      Effect toolchain succeeds id disk request manager (manager.giveUp again.script) :=
    .dropped rfl rfl (module_giveUp manager _) fun _ _ _ hbuilds ↦
      hanswer (hsucceeds request.source (succeeds_of_disk hdisk hbuilds))
  rw [runPlan]
  split
  · split
    next hmodule =>
      refine .built hdisk rfl rfl ?_
      rw [hagain, houtput] at hmodule
      simp [setScript, hagain, hmodule]
    · split
      · refine .built hdisk rfl rfl ?_
        simp [publishModule, log, setScript, hagain, houtput]
      next hload =>
        split
        · exact hdropped environment.load henvironment.load hload
        · refine .again again hsame (fun _ _ ↦ .inr fun hbuilds ↦ hload ?_) rfl rfl rfl
          rw [← source_eq_of_bare hsame]
          exact henvironment.load again.source hbuilds
  · split
    next hwrite => exact hdropped environment.writeAdapter henvironment.writeAdapter hwrite
    · split
      next hstart => exact hdropped environment.startCompiler henvironment.startCompiler hstart
      · exact .started ⟨again, toolchain.plan request.source⟩ hsame rfl hdisk rfl rfl rfl

/-- One round of `start_next`. -/
theorem effect_startRequest {environment : Environment} {disk : String} {request : CompileRequest}
    {manager : GzBuildManager} (henvironment : Undisturbed toolchain succeeds disk environment)
    (hscript : request.script = id) (hprepared : Prepared toolchain succeeds request) :
    Effect toolchain succeeds id disk request manager
      (startRequest environment request manager).1 := by
  have hdropped (hcontra : normalizeSource request.source = normalizeSource disk →
      ¬ succeeds (normalizeSource disk)) :
      Effect toolchain succeeds id disk request manager (manager.giveUp request.script) :=
    .dropped rfl rfl (module_giveUp manager _) fun _ _ ↦ hcontra
  rw [startRequest]
  split
  next hgeneration => exact .dropped rfl rfl rfl fun hlatest ↦ absurd hlatest.2 hgeneration
  · split
    next hnone =>
      split
      next hprepare =>
        refine hdropped fun hdisk hbuilds ↦ ?_
        have hsome := henvironment.prepare_isSome request.resourcePath _ hdisk
          (succeeds_of_disk hdisk hbuilds)
        rw [hprepare] at hsome
        cases hsome
      next plan hprepare =>
        obtain ⟨hdisk, rfl⟩ := henvironment.prepare_some _ _ _ hprepare
        split
        · exact .again { request with prepared := some (toolchain.plan request.source) } rfl
            (fun _ hkept ↦ .inl (Option.some.inj hkept).symm) rfl rfl rfl
        next hlock =>
          exact hdropped fun _ hbuilds ↦
            henvironment.tryLock _ (succeeds_of_disk hdisk hbuilds) hlock
        · exact effect_runPlan henvironment hscript rfl hdisk
    next plan hplan =>
      dsimp only
      split
      · exact .again { request with prepared := some plan } rfl
          (fun _ hkept ↦ hprepared _ (hplan.trans hkept)) rfl rfl rfl
      next hlock =>
        refine hdropped fun hdisk hbuilds ↦ ?_
        rcases hprepared plan hplan with rfl | hfails
        · exact henvironment.tryLock _ (succeeds_of_disk hdisk hbuilds) hlock
        · exact hfails (succeeds_of_disk hdisk hbuilds)
      · split
        next hprepare =>
          refine hdropped fun hdisk hbuilds ↦ ?_
          have hsome :=
            henvironment.prepareAgain_isSome request.resourcePath _ hdisk
              (succeeds_of_disk hdisk hbuilds)
          rw [hprepare] at hsome
          cases hsome
        next current hprepare =>
          obtain ⟨hdisk, rfl⟩ := henvironment.prepareAgain_some _ _ _ hprepare
          split
          · exact .again { request with prepared := some (toolchain.plan request.source) } rfl
              (fun _ hkept ↦ .inl (Option.some.inj hkept).symm) rfl rfl rfl
          · exact effect_runPlan henvironment hscript rfl hdisk

/-- A completion, which never puts its request back. -/
theorem effect_settleActive {environment : Environment} {disk : String}
    {completed : ActiveCompile} {manager : GzBuildManager}
    (henvironment : Undisturbed toolchain succeeds disk environment)
    (hscript : completed.request.script = id)
    (hplan : completed.plan = toolchain.plan completed.request.source) :
    Effect toolchain succeeds id disk completed.request manager
      (settleActive environment completed manager) := by
  have hdropped (hcontra : normalizeSource completed.request.source = normalizeSource disk →
      ¬ succeeds (normalizeSource disk)) :
      Effect toolchain succeeds id disk completed.request manager
        (manager.giveUp completed.request.script) :=
    .dropped rfl rfl (module_giveUp manager _) fun _ _ ↦ hcontra
  rw [settleActive]
  split
  next hgeneration => exact .dropped rfl rfl rfl fun hlatest ↦ absurd hlatest.2 hgeneration
  · split
    next hexit =>
      refine hdropped fun hdisk hbuilds ↦ hexit ?_
      rw [hplan]
      exact henvironment.exitCode _ (succeeds_of_disk hdisk hbuilds)
    · split
      next hqueued =>
        refine .dropped rfl rfl rfl fun _ hfresh ↦ ?_
        obtain ⟨queued, hmember, hsame⟩ := List.any_eq_true.mp hqueued
        exact absurd ((of_decide_eq_true hsame).trans hscript) (hfresh queued hmember)
      · split
        next hprepare =>
          refine hdropped fun hdisk hbuilds ↦ ?_
          have hsome := henvironment.prepare_isSome completed.request.resourcePath _ hdisk
            (succeeds_of_disk hdisk hbuilds)
          rw [hprepare] at hsome
          cases hsome
        next current hprepare =>
          obtain ⟨hdisk, rfl⟩ := henvironment.prepare_some _ _ _ hprepare
          rw [if_neg (by rw [hplan]; exact fun hne ↦ hne rfl), finishActive]
          split
          · refine .built hdisk rfl rfl ?_
            have houtput : completed.plan.output = toolchain.moduleOf disk := by
              rw [hplan, plan_congr toolchain hdisk, Toolchain.moduleOf]
            simp [publishModule, log, setScript, hscript, houtput]
          next hfailed =>
            refine hdropped fun _ hbuilds ↦ hfailed ?_
            rw [hplan]
            exact ⟨henvironment.replaceOutput _ (succeeds_of_disk hdisk hbuilds),
              henvironment.load _ (succeeds_of_disk hdisk hbuilds)⟩

/-! ### One script -/

variable {path : String}

/-- Handling a request of the script, with no compiler running, keeps to the script. -/
theorem oneScript_effect {disk : String} {request : CompileRequest} {before after : GzBuildManager}
    (hbefore : OneScript toolchain succeeds id path before) (hactive : before.active = none)
    (hscript : request.script = id) (hpath : request.resourcePath = path)
    (hcoherent : Coherent after) (hhandled : Handled request before after)
    (heffect : Effect toolchain succeeds id disk request before after) :
    OneScript toolchain succeeds id path after where
  coherent := hcoherent
  started := hhandled.stopped.trans hbefore.started
  scriptPath := (hhandled.paths id).trans hbefore.scriptPath
  queued queued hqueued := by
    cases heffect with
    | dropped hpending => exact hbefore.queued queued (hpending ▸ hqueued)
    | again again hsame hprepared hpending =>
      rw [hpending] at hqueued
      rcases List.mem_cons.mp hqueued with rfl | hqueued
      · exact ⟨(script_eq_of_bare hsame).trans hscript,
          (resourcePath_eq_of_bare hsame).trans hpath, hprepared⟩
      · exact hbefore.queued queued hqueued
    | built _ hpending => exact hbefore.queued queued (hpending ▸ hqueued)
    | started _ _ _ _ hpending => exact hbefore.queued queued (hpending ▸ hqueued)
  running completed hcompleted := by
    cases heffect with
    | dropped _ hsame =>
      rw [hsame, hactive] at hcompleted
      cases hcompleted
    | again _ _ _ _ hsame =>
      rw [hsame, hactive] at hcompleted
      cases hcompleted
    | built _ _ hsame =>
      rw [hsame, hactive] at hcompleted
      cases hcompleted
    | started running hsame hplan _ _ hrunning =>
      rw [hrunning] at hcompleted
      cases hcompleted
      rw [source_eq_of_bare hsame]
      exact ⟨(script_eq_of_bare hsame).trans hscript, (resourcePath_eq_of_bare hsame).trans hpath,
        hplan⟩

/-- At most one request is queued. -/
theorem OneScript.eq_of_queued {manager : GzBuildManager}
    (h : OneScript toolchain succeeds id path manager) {first second : CompileRequest}
    (hfirst : first ∈ manager.pending) (hsecond : second ∈ manager.pending) : first = second :=
  List.inj_on_of_nodup_map h.coherent.distinct hfirst hsecond
    ((h.queued first hfirst).1.trans (h.queued second hsecond).1.symm)

/-- The manager with its queue emptied for a round. -/
theorem OneScript.pop {manager : GzBuildManager}
    (h : OneScript toolchain succeeds id path manager) (hactive : manager.active = none)
    {request : CompileRequest} {pending : List CompileRequest}
    (hpending : manager.pending = request :: pending) :
    pending = [] ∧
      OneScript toolchain succeeds id path { manager with pending := pending } := by
  obtain ⟨hcoherent, hfresh⟩ := coherent_pop h.coherent hactive hpending
  have hempty : pending = [] := by
    refine List.eq_nil_iff_forall_not_mem.mpr fun queued hqueued ↦ hfresh queued hqueued ?_
    rw [(h.queued queued (by simp [hpending, hqueued])).1,
      (h.queued request (by simp [hpending])).1]
  refine ⟨hempty, hcoherent, h.started, h.scriptPath, ?_, ?_⟩
  · simp [hempty]
  · simp [hactive]

theorem OneScript.stop {manager : GzBuildManager}
    (h : OneScript toolchain succeeds id path manager) :
    OneScript toolchain succeeds id path { manager with active := none } :=
  ⟨coherent_quiet h.coherent ⟨fun _ ↦ rfl, fun _ ↦ rfl⟩ rfl (.inr rfl) h.coherent.warranted,
    h.started, h.scriptPath, h.queued, nofun⟩

theorem oneScript_round {disk : String} {environment : Environment} {manager : GzBuildManager}
    {request : CompileRequest} {pending : List CompileRequest}
    (henvironment : Undisturbed toolchain succeeds disk environment)
    (h : OneScript toolchain succeeds id path manager) (hactive : manager.active = none)
    (hpending : manager.pending = request :: pending) :
    OneScript toolchain succeeds id path
      (startRequest environment request { manager with pending := pending }).1 := by
  obtain ⟨hscript, hpath, hprepared⟩ := h.queued request (by simp [hpending])
  exact oneScript_effect (h.pop hactive hpending).2 hactive hscript hpath
    (coherent_startRequest environment h.coherent hactive hpending)
    (handled_startRequest environment request _)
    (effect_startRequest henvironment hscript hprepared)

theorem oneScript_completion {disk : String} {environment : Environment}
    {manager : GzBuildManager} {completed : ActiveCompile}
    (henvironment : Undisturbed toolchain succeeds disk environment)
    (h : OneScript toolchain succeeds id path manager)
    (hactive : manager.active = some completed) :
    OneScript toolchain succeeds id path
      (settleActive environment completed { manager with active := none }) := by
  obtain ⟨hscript, hpath, hplan⟩ := h.running completed hactive
  exact oneScript_effect h.stop rfl hscript hpath
    (coherent_settleActive environment h.coherent hactive)
    (handled_settleActive environment completed _) (effect_settleActive henvironment hscript hplan)

end Gzscript.Build.SoleScript
