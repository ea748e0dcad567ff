import Gzscript.Script.SceneSteps

/-!
# No module is used after it is unloaded

A function that runs in an instance finds it as it was when it returns, if the run frees no instance
while a function runs in it (`stageStep_sheltered`). So in every such run the log is accepted
(`run_lifetimes`): nothing happens in a module that is not loaded, or with an instance that is
destroyed, and a library is open exactly as long as its module is in use. In `freedByItself` a
function frees the object that it is called on, and the log is not accepted.
-/

set_option autoImplicit false
set_option relaxedAutoImplicit false

namespace Gzscript.Script.ModuleLifetimes

open Abi.Descriptor Instances ModuleOwners ModuleLog ModulePointers Refresh SceneSteps
open SilentMigration
open Library.SharedPointers Library.Transition

variable {Module Object F32 F64 : Type} [DecidableEq Module]
variable {runtime : Runtime Module Object F32 F64}

/-! ### Functions that run -/

/-- What holds between two operations, also while functions run. -/
structure Sheltered (stage : Stage Module) : Prop where
  kept : Kept stage.scene
  released : ReleasedWhenGone stage.scene
  /-- A function runs in an instance that is still the one it was called in. -/
  running : ∀ data ∈ stage.running, stage.scene.script.find data.address = some data

theorem callBegins_sheltered {stage : Stage Module} (address : InstanceId)
    (h : Sheltered stage) : Sheltered (stage.callBegins address) := by
  unfold Stage.callBegins
  cases hfind : stage.scene.script.find address with
  | none => exact h
  | some data =>
    obtain rfl := find_address hfind
    obtain ⟨hkept, hsame⟩ := useInstance_kept h.kept hfind
    exact
      { kept := hkept
        released := h.released.frame hsame rfl rfl
        running := List.forall_mem_cons.mpr ⟨hfind, h.running⟩ }

variable (runtime) in
/-- The function returns to the instance in which it was called, and the objects of this instance
are read. -/
theorem callReturns_sheltered (putBack : ℕ → Bool) {stage : Stage Module} (h : Sheltered stage) :
    Sheltered (stage.callReturns runtime putBack) := by
  unfold Stage.callReturns
  cases hrunning : stage.running with
  | nil => exact h
  | cons data running =>
    have hall := h.running
    rw [hrunning, List.forall_mem_cons] at hall
    obtain ⟨hfind, hrest⟩ := hall
    have hlive : (data.module, data.zigInstance) ∈ liveOf stage.scene.script :=
      List.mem_map_of_mem (find_mem hfind)
    have hreturned : Sound (stage.scene.memory.notes [.used data.module data.zigInstance])
        (liveOf stage.scene.script) :=
      h.kept.sound.quiet hlive
    have hsynced := (hreturned.entered (h.kept.agrees.held hfind)).sync runtime putBack hlive
    simp only [hfind]
    exact
      { kept := ⟨hsynced, by simpa [Scene.syncRetainedObjects] using h.kept.agrees⟩
        released := h.released.frame (by simp [Scene.syncRetainedObjects]) rfl rfl
        running := hrest }

variable (runtime) in
/-- Every operation that frees no instance in which a function runs. -/
theorem stageStep_sheltered (isEditorHint : Bool) (stage : Stage Module)
    (op : StageOp Module F32 F64) (hspares : Spares stage op) (h : Sheltered stage) :
    Sheltered (stageStep runtime isEditorHint stage op) := by
  cases op with
  | scene op =>
    obtain ⟨hkept, hreleased⟩ := step_kept runtime isEditorHint stage.scene op ⟨h.kept, h.released⟩
    refine ⟨hkept, hreleased, fun data hdata ↦ ?_⟩
    refine find_sceneStep runtime isEditorHint h.kept (h.running data hdata) ?_ ?_
    · rintro address rfl rfl
      exact hspares (List.mem_map_of_mem hdata)
    · rintro call putBack rfl
      exact List.ne_nil_of_mem hdata hspares
  | callBegins address => exact callBegins_sheltered address h
  | callReturns putBack => exact callReturns_sheltered runtime putBack h

/-! ### Runs -/

/-- A module is the one of the script, the one it refreshes to, or that of one of its instances. -/
def Uses (script : GzScript Module) (module : Module) : Prop :=
  script.module = some module ∨ script.pendingModule = some module ∨
    ∃ data ∈ script.instances, data.module = module

theorem isHeld_iff_uses {scene : Scene Module} (h : Kept scene) (module : Module) :
    scene.memory.pointers.IsHeld module ↔ Uses scene.script module := by
  constructor
  · rintro ⟨slot, hslot⟩
    cases slot with
    | module => exact .inl (h.agrees.module.symm.trans hslot)
    | pendingModule => exact .inr (.inl (h.agrees.pendingModule.symm.trans hslot))
    | ofInstance address =>
      rw [h.agrees.instances] at hslot
      obtain ⟨data, hfind, hmodule⟩ := Option.map_eq_some_iff.mp hslot
      exact .inr (.inr ⟨data, find_mem hfind, hmodule⟩)
    | finished => exact nomatch h.agrees.finished.symm.trans hslot
    | nextModule => exact nomatch h.agrees.nextModule.symm.trans hslot
    | previousModule => exact nomatch h.agrees.previousModule.symm.trans hslot
  · rintro (hmodule | hpending | ⟨data, hdata, rfl⟩)
    · exact ⟨.module, h.agrees.module.trans hmodule⟩
    · exact ⟨.pendingModule, h.agrees.pendingModule.trans hpending⟩
    · exact isHeld_of_instances h.agrees.instances h.agrees.distinct _ (List.mem_map_of_mem hdata)

/-- The instances hold a `Ref` each. -/
theorem isHeld_references_iff {scene : Scene Module} (h : Kept scene) :
    scene.memory.references.IsHeld () ↔
      (∃ user, scene.memory.references.held (.user user) = some ()) ∨
        scene.script.instances ≠ [] := by
  constructor
  · rintro ⟨holder, hholder⟩
    cases holder with
    | user user => exact .inl ⟨user, hholder⟩
    | ofInstance address =>
      rw [h.agrees.references] at hholder
      obtain ⟨data, hfind, -⟩ := Option.map_eq_some_iff.mp hholder
      exact .inr (List.ne_nil_of_mem (find_mem hfind))
  · rintro (⟨user, huser⟩ | hsome)
    · exact ⟨.user user, huser⟩
    · obtain ⟨data, hdata⟩ := List.exists_mem_of_ne_nil _ hsome
      exact ⟨.ofInstance data.address, h.agrees.referenced (find_of_mem h.agrees.distinct hdata)⟩

/-- What is loaded is in use, and only that. -/
structure Lifetimes (scene : Scene Module) (watched : Watched Module) : Prop where
  loaded : ∀ module, module ∈ watched.loaded ↔ Uses scene.script module
  live : watched.live.Perm (liveOf scene.script)
  script : watched.script = true ↔
    (∃ user, scene.memory.references.held (.user user) = some ()) ∨ scene.script.instances ≠ []
  released : watched.script = false → watched.loaded = [] ∧ watched.live = []

variable (runtime) in
/-- In every run that frees no instance while a function runs in it, and refreshes the instances
when none runs, in the editor and outside, no event is an error: no code of a module runs, and no
descriptor is read, before its library is loaded or after it is closed, no instance inside a module
is used after it is destroyed, no pointer is followed that is null or whose object is deleted, and
the script is not touched after it is gone. The libraries that are open are those of the modules in
use, and when the last `Ref` to the script is gone, all of them are closed. -/
theorem run_lifetimes (isEditorHint : Bool) (ops : List (StageOp Module F32 F64))
    (hspares : Along (stageStep runtime isEditorHint) Spares (initialStage Module) ops) :
    ∃ watched, watchAll (unwatched Module)
        (exec (stageStep runtime isEditorHint) (initialStage Module) ops).scene.memory.log =
          some watched ∧
      Lifetimes (exec (stageStep runtime isEditorHint) (initialStage Module) ops).scene
        watched := by
  have hinitial : Sheltered (initialStage Module) :=
    ⟨kept_initial.1, kept_initial.2, List.forall_mem_nil _⟩
  obtain ⟨hkept, hreleased, -⟩ := exec_along (stageStep runtime isEditorHint) Spares Sheltered
    (stageStep_sheltered runtime isEditorHint) hspares hinitial
  generalize (exec (stageStep runtime isEditorHint) (initialStage Module) ops).scene = scene at *
  obtain ⟨watched, haccepted, hmirrors⟩ := hkept.sound.accepted
  refine ⟨watched, haccepted, fun module ↦ ?_, hmirrors.live, ?_, fun hgone ↦ ?_⟩
  · rw [hmirrors.loaded, isHeld_iff_uses hkept]
  · rw [hmirrors.script, isHeld_references_iff hkept]
  · have hunheld : ¬ scene.memory.references.IsHeld () := by
      rw [← hmirrors.script, hgone]
      exact Bool.false_ne_true
    obtain ⟨hmodule, hpending⟩ := hreleased hunheld
    rw [isHeld_references_iff hkept, not_or, not_not] at hunheld
    have hnothing : liveOf scene.script = [] := by
      rw [liveOf, hunheld.2, List.map_nil]
    constructor
    · refine List.eq_nil_iff_forall_not_mem.mpr fun module hmem ↦ ?_
      rw [hmirrors.loaded, isHeld_iff_uses hkept, Uses, hmodule, hpending, hunheld.2] at hmem
      simp at hmem
    · exact List.perm_nil.mp (hnothing ▸ hmirrors.live)

/-! ### Functions that come back to the scene -/

/-- A function publishes another module and makes an instance of it, which is called, and freed when
it has returned. The object of the function is freed later. -/
def nestedCalls : List (StageOp (Fin 3) UInt32 UInt64) :=
  [.scene (.complete 0 0), .scene (.instanceCreate (some 42) (some 1) 100 fun _ ↦ false),
    .callBegins 100, .scene (.complete 1 2),
    .scene (.instanceCreate (some 43) (some 2) 200 fun _ ↦ false), .callBegins 200,
    .callReturns fun _ ↦ false, .scene (.instanceFree 200), .callReturns fun _ ↦ false,
    .scene (.applyPendingRefresh willing fun _ ↦ false), .scene (.instanceFree 100),
    .scene (.unreference 0)]

theorem run_lifetimes_nested :
    ∃ watched, watchAll (unwatched (Fin 3))
        (exec (stageStep sampleRuntime true) (initialStage (Fin 3)) nestedCalls).scene.memory.log =
          some watched ∧
      Lifetimes (exec (stageStep sampleRuntime true) (initialStage (Fin 3)) nestedCalls).scene
        watched := by
  refine run_lifetimes sampleRuntime true nestedCalls ⟨trivial, trivial, trivial, trivial, trivial,
    trivial, trivial, ?_, trivial, ?_, ?_, trivial, trivial⟩
  all_goals
    dsimp only [Spares]
    decide +kernel

/-- An object that is freed by the function that it is called on. -/
def freedByItself : List (StageOp (Fin 3) UInt32 UInt64) :=
  [.scene (.complete 0 0), .scene (.instanceCreate (some 42) (some 1) 100 fun _ ↦ false),
    .callBegins 100, .scene (.instanceFree 100), .callReturns fun _ ↦ false]

-- The condition is needed: the function comes to its end in an instance that is destroyed, and the
-- objects of an `InstanceData` that is deleted are read.
example :
    let log := (exec (stageStep sampleRuntime true) (initialStage (Fin 3))
      freedByItself).scene.memory.log
    log.drop 6 = [.entered 0, .used 0 1, .touched, .destroyed 0 1, .used 0 1, .nullAccess] ∧
      watchAll (unwatched (Fin 3)) (log.take 10) ≠ none ∧
      watchAll (unwatched (Fin 3)) (log.take 11) = none := by
  decide +kernel

end Gzscript.Script.ModuleLifetimes
