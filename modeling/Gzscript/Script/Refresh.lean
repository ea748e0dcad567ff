import Gzscript.Library.Transition
import Gzscript.Script.Instances

/-!
# Announcing changed exports

When an instance moves to a module with other exports, its owner has to be told, so that the
inspector lists the properties of the new one. Whether a refresh tells the owners is decided when it
is published, from the module of the script, while an instance can be several modules behind: a
newer publish has taken the place of its refresh, or its migration has failed.

`SeesDifferences` is the condition under which that does no harm. While the publishes of a run meet
it, every change of exports is announced: `Following` is the invariant, which each operation keeps
(`following_step`), and so does a run (`following_exec`).
-/

set_option autoImplicit false
set_option relaxedAutoImplicit false

namespace Gzscript.Script.Refresh

open Instances Library.Transition

variable {Module Object F32 F64 : Type}
variable (runtime : Runtime Module Object F32 F64)

/-- The owner is told of every migration to a module with other exports, in the same step. -/
def Announced (script : GzScript Module) : Prop :=
  ∀ migration ∈ script.migrations,
    sameExports runtime migration.before migration.after = false → migration.notified = true

/-- When the next module has the same exports as the one of the script, it has the same exports as
those of all the instances that do not use it. -/
def SeesDifferences (script : GzScript Module) (next : Module) : Prop :=
  ∀ current, script.module = some current → sameExports runtime current next = true →
    ∀ data ∈ script.instances, data.module ≠ next → sameExports runtime data.module next = true

/-- The condition on a step of a run. -/
def PublishSeesDifferences (script : GzScript Module) : Op Module F32 F64 → Prop
  | .publishModule (some next) => SeesDifferences runtime script next
  | _ => True

/-- The pending module is the current one, and unless the refresh tells the owners, it has the
exports of every instance that is behind. -/
structure Following (script : GzScript Module) : Prop where
  current : ∀ next, script.pendingModule = some next → script.module = some next
  quiet : ∀ next, script.pendingModule = some next → script.pendingExportsChanged = false →
    ∀ data ∈ script.instances, data.module ≠ next → sameExports runtime data.module next = true
  announced : Announced runtime script

variable {runtime}

theorem following_initial : Following runtime (initial Module) where
  current _ h := by cases h
  quiet _ h := by cases h
  announced _ h := by cases h

/-! ### Changes that keep the invariant -/

/-- What is pending stays, and an instance that appears uses the module of the script. -/
theorem Following.frame {before after : GzScript Module} (h : Following runtime before)
    (hmodule : after.module = before.module)
    (hpending : after.pendingModule = before.pendingModule)
    (hchanged : after.pendingExportsChanged = before.pendingExportsChanged)
    (hinstances : ∀ data ∈ after.instances,
      data ∈ before.instances ∨ some data.module = before.module)
    (hmigrations : after.migrations = before.migrations) : Following runtime after where
  current next hnext := by rw [hmodule]; exact h.current next (hpending ▸ hnext)
  quiet next hnext hsilent data hdata hne := by
    rw [hpending] at hnext
    obtain hold | hnew := hinstances data hdata
    · exact h.quiet next hnext (hchanged ▸ hsilent) data hold hne
    · exact absurd (Option.some.inj (hnew.trans (h.current next hnext))) hne
  announced migration hmem := h.announced migration (hmigrations ▸ hmem)

theorem schedulePendingRefresh_eq (script : GzScript Module) :
    ∃ scheduled calls, script.schedulePendingRefresh =
      { script with refreshCallScheduled := scheduled, deferredCalls := calls } := by
  unfold GzScript.schedulePendingRefresh
  split_ifs
  · exact ⟨script.refreshCallScheduled, script.deferredCalls, rfl⟩
  · exact ⟨true, script.deferredCalls + 1, rfl⟩

theorem following_schedule {script : GzScript Module} (h : Following runtime script) :
    Following runtime script.schedulePendingRefresh := by
  obtain ⟨scheduled, calls, heq⟩ := schedulePendingRefresh_eq script
  rw [heq]
  exact h.frame rfl rfl rfl (fun _ hdata ↦ .inl hdata) rfl

/-- With nothing pending only the migrations so far count. -/
theorem following_idle {script : GzScript Module} (hpending : script.pendingModule = none)
    (hannounced : Announced runtime script) : Following runtime script where
  current next hnext := by rw [hpending] at hnext; cases hnext
  quiet next hnext := by rw [hpending] at hnext; cases hnext
  announced := hannounced

/-! ### One migration -/

theorem find_mem {script : GzScript Module} {address : InstanceId} {data : InstanceData Module}
    (hfind : script.find address = some data) : data ∈ script.instances :=
  List.mem_of_find?_eq_some hfind

theorem mem_setInstance {script : GzScript Module} {changed data : InstanceData Module}
    (hdata : data ∈ (script.setInstance changed).instances) :
    data = changed ∨ data ∈ script.instances := by
  obtain ⟨other, hother, rfl⟩ := List.mem_map.mp hdata
  split_ifs
  · exact .inl rfl
  · exact .inr hother

theorem migrateEditorInstance_eq {call : RefreshCall Module F32 F64}
    {data migrated : InstanceData Module} {next : Module}
    (h : GzScript.migrateEditorInstance runtime call data next = some migrated) :
    migrated.address = data.address ∧ migrated.module = next := by
  simp only [GzScript.migrateEditorInstance] at h
  split at h
  next => cases h
  next =>
    split_ifs at h
    cases h
    exact ⟨rfl, rfl⟩

variable (runtime) in
/-- What one pass of the loop does. -/
theorem refreshInstance_cases (call : RefreshCall Module F32 F64) (script : GzScript Module)
    (data : InstanceData Module) (next : Module) :
    (∃ migrated, migrated.address = data.address ∧ migrated.module = next ∧
      script.refreshInstance runtime call data next =
        { script.setInstance migrated with
          migrations :=
            ⟨data.owner, data.module, next, script.pendingExportsChanged⟩ :: script.migrations }) ∨
      script.refreshInstance runtime call data next = script := by
  unfold GzScript.refreshInstance
  split
  next migrated hmigrated =>
    obtain ⟨haddress, hmodule⟩ := migrateEditorInstance_eq hmigrated
    exact .inl ⟨migrated, haddress, hmodule, rfl⟩
  next => exact .inr rfl

@[simp] theorem refreshInstance_pendingModule (call : RefreshCall Module F32 F64)
    (script : GzScript Module) (data : InstanceData Module) (next : Module) :
    (script.refreshInstance runtime call data next).pendingModule = script.pendingModule := by
  obtain ⟨migrated, -, -, h⟩ | h := refreshInstance_cases runtime call script data next
  · rw [h]; rfl
  · rw [h]

@[simp] theorem refreshInstance_pendingExportsChanged (call : RefreshCall Module F32 F64)
    (script : GzScript Module) (data : InstanceData Module) (next : Module) :
    (script.refreshInstance runtime call data next).pendingExportsChanged =
      script.pendingExportsChanged := by
  obtain ⟨migrated, -, -, h⟩ | h := refreshInstance_cases runtime call script data next
  · rw [h]; rfl
  · rw [h]

/-- The owner of a migrated instance is told, or the exports are the same. -/
theorem following_refreshInstance {script : GzScript Module} {data : InstanceData Module}
    {next : Module} (h : Following runtime script) (hpending : script.pendingModule = some next)
    (hdata : data ∈ script.instances) (hstale : data.module ≠ next)
    (call : RefreshCall Module F32 F64) :
    Following runtime (script.refreshInstance runtime call data next) := by
  obtain ⟨migrated, -, hmodule, heq⟩ | heq :=
    refreshInstance_cases runtime call script data next
  · rw [heq]
    refine ⟨h.current, fun other hother hsilent behind hbehind hne ↦ ?_, fun migration hmem ↦ ?_⟩
    · obtain rfl | hold := mem_setInstance hbehind
      · cases hpending.symm.trans hother
        exact absurd hmodule hne
      · exact h.quiet other hother hsilent behind hold hne
    · obtain rfl | hold := List.mem_cons.mp hmem
      · intro hdiffers
        by_contra hsilent
        have hsame := h.quiet next hpending (by simpa using hsilent) data hdata hstale
        simp [hsame] at hdiffers
      · exact h.announced migration hold
  · rwa [heq]

/-! ### One operation -/

variable [DecidableEq Module]

/-- What each pass of the loop keeps holds after it, whatever is left of the instances that were
taken down. -/
theorem refreshLoop_invariant (call : RefreshCall Module F32 F64) (next : Module)
    (property : GzScript Module → Prop)
    (hindex : ∀ script : GzScript Module, property script →
      property { script with refreshIndex := script.refreshIndex + 1 })
    (hrefresh : ∀ (script : GzScript Module) (data : InstanceData Module), property script →
      data ∈ script.instances → data.module ≠ next →
        property (script.refreshInstance runtime call data next))
    (remaining : List InstanceId) (processed : ℕ) {script : GzScript Module} (h : property script) :
    property (script.refreshLoop runtime call next remaining processed) := by
  induction remaining generalizing script processed with
  | nil => exact h
  | cons address remaining ih =>
    simp only [GzScript.refreshLoop]
    split
    next => exact ih processed (hindex script h)
    next data hfind =>
      have hdata := find_mem hfind
      split_ifs with hcurrent hstop
      · exact ih processed (hindex script h)
      · exact hrefresh _ data (hindex script h) hdata hcurrent
      · exact ih (processed + 1) (hrefresh _ data (hindex script h) hdata hcurrent)

theorem following_refreshLoop (call : RefreshCall Module F32 F64) (next : Module)
    (remaining : List InstanceId) (processed : ℕ) {script : GzScript Module}
    (h : Following runtime script) (hpending : script.pendingModule = some next) :
    Following runtime (script.refreshLoop runtime call next remaining processed) := by
  refine (refreshLoop_invariant call next
    (fun script ↦ Following runtime script ∧ script.pendingModule = some next) ?_ ?_ remaining
    processed ⟨h, hpending⟩).1
  · rintro script ⟨hscript, hnext⟩
    exact ⟨hscript.frame rfl rfl rfl (fun _ hdata ↦ .inl hdata) rfl, hnext⟩
  · rintro script data ⟨hscript, hnext⟩ hdata hstale
    exact ⟨following_refreshInstance hscript hnext hdata hstale call, by simpa using hnext⟩

omit [DecidableEq Module] in
theorem exportsChanged_eq_false_iff (script : GzScript Module) (next : Module) :
    script.exportsChanged runtime next = false ↔
      ∃ current, script.module = some current ∧ sameExports runtime current next = true := by
  unfold GzScript.exportsChanged
  cases script.module with
  | none => simp
  | some current => simp

/-- A refresh that does not tell the owners takes a module with the exports of every instance. -/
theorem following_publishModule {script : GzScript Module} (h : Following runtime script)
    (next : Option Module)
    (hsees : ∀ published, next = some published → SeesDifferences runtime script published) :
    Following runtime (script.publishModule runtime true next) := by
  cases next with
  | none => exact h
  | some published =>
    simp only [GzScript.publishModule]
    split_ifs with hstale
    · cases hstale
    · exact following_idle rfl h.announced
    · refine following_schedule ⟨fun _ hnext ↦ hnext, ?_, h.announced⟩
      intro other hother hsilent data hdata hne
      cases hother
      obtain ⟨current, hcurrent, hsame⟩ := (exportsChanged_eq_false_iff script published).mp hsilent
      exact hsees published rfl current hcurrent hsame data hdata hne

theorem following_applyPendingRefresh (call : RefreshCall Module F32 F64)
    {script : GzScript Module} (h : Following runtime script) :
    Following runtime (script.applyPendingRefresh runtime call) := by
  have hcalled : Following runtime { script with refreshCallScheduled := false } :=
    h.frame rfl rfl rfl (fun _ hdata ↦ .inl hdata) rfl
  simp only [GzScript.applyPendingRefresh]
  split
  next next _ hpending =>
    have hrefreshed := following_refreshLoop call next
      (script.pendingRefreshInstances.drop script.refreshIndex) 0 hcalled hpending
    split_ifs
    · exact following_schedule hrefreshed
    · exact following_idle rfl hrefreshed.announced
  next => exact hcalled

/-- Every operation keeps the invariant, if it is no publish of a module whose differences would go
unseen. -/
theorem following_step (script : GzScript Module) (op : Op Module F32 F64)
    (hop : PublishSeesDifferences runtime script op) (h : Following runtime script) :
    Following runtime (step runtime script op) := by
  cases op with
  | publishModule next =>
    refine following_publishModule h next fun published hpublished ↦ ?_
    subst hpublished
    exact hop
  | applyPendingRefresh call => exact following_applyPendingRefresh call h
  | instanceCreate owner created address =>
    simp only [step, GzScript.instanceCreate]
    split
    next module owner zigInstance hmodule =>
      split_ifs
      · exact h
      · refine h.frame rfl rfl rfl (fun data hdata ↦ ?_) rfl
        obtain rfl | hold := List.mem_cons.mp hdata
        · exact .inr hmodule.symm
        · exact .inl hold
    next => exact h
  | instanceFree address =>
    exact h.frame rfl rfl rfl (fun _ hdata ↦ .inl (List.mem_of_mem_filter hdata)) rfl
  | rehash order =>
    simp only [step]
    split_ifs with hperm
    · exact h.frame rfl rfl rfl (fun _ hdata ↦ .inl (hperm.mem_iff.mp hdata)) rfl
    · exact h

theorem following_exec {ops : List (Op Module F32 F64)}
    (halong : Along (step runtime) (PublishSeesDifferences runtime) (initial Module) ops) :
    Following runtime (exec (step runtime) (initial Module) ops) :=
  exec_along (step runtime) (PublishSeesDifferences runtime) (Following runtime) following_step
    halong following_initial

end Gzscript.Script.Refresh
