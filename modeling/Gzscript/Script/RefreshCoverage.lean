import Gzscript.Script.SilentMigration

/-!
# A refresh misses no instance

The deferred call of `_apply_pending_refresh` waits in the engine's message queue, and the script
keeps a flag of its own for it. A step of the script in the editor is taken here together with that
queue, which makes a call only if it holds one, and with a record of the migrations that have
failed, which nothing reads.

Between steps, a refresh that is pending is one to the module of the script, and its call is in the
queue. An instance that uses another module is still to be reached by it, unless its migration to
that module has failed (`run_refreshComplete`). What each pass of the loop keeps is in
`refreshLoop_covers`: an instance that is behind is among those that remain, or has failed.
-/

set_option autoImplicit false
set_option relaxedAutoImplicit false

namespace Gzscript.Script.RefreshCoverage

open Instances Refresh SilentMigration Library.Transition

variable {Module Object F32 F64 : Type} [DecidableEq Module]
variable (runtime : Runtime Module Object F32 F64)

/-! ### The script and the message queue -/

/-- A live instance's migration to a module has failed. -/
structure Failure (Module : Type) where
  address : InstanceId
  module : Module
  deriving DecidableEq

structure Scene (Module : Type) where
  script : GzScript Module
  /-- The failed migrations of the instances that are live. Nothing reads it. -/
  failures : List (Failure Module)

def initialScene (Module : Type) : Scene Module := ⟨initial Module, []⟩

/-- An instance, if its migration fails. -/
def failureOf (call : RefreshCall Module F32 F64) (data : InstanceData Module) (next : Module) :
    List InstanceId :=
  match GzScript.migrateEditorInstance runtime call data next with
  | none => [data.address]
  | some _ => []

/-- The instances whose migration fails in the loop of `_apply_pending_refresh`. -/
def refreshFailures (call : RefreshCall Module F32 F64) (next : Module) :
    List InstanceId → ℕ → GzScript Module → List InstanceId
  | [], _, _ => []
  | address :: rest, processed, script =>
    let script := { script with refreshIndex := script.refreshIndex + 1 }
    match script.find address with
    | none => refreshFailures call next rest processed script
    | some data =>
      if data.module = next then refreshFailures call next rest processed script
      else
        if GzScript.minBatch ≤ processed + 1 ∧
            GzScript.timeBudgetUsec ≤ call.elapsed (processed + 1) then
          failureOf runtime call data next
        else
          failureOf runtime call data next ++ refreshFailures call next rest (processed + 1)
            (script.refreshInstance runtime call data next)

/-- The instances that the loop is still to reach. -/
def remaining (script : GzScript Module) : List InstanceId :=
  script.pendingRefreshInstances.drop script.refreshIndex

/-- The migrations that fail in a deferred call. -/
def callFailures (call : RefreshCall Module F32 F64) (script : GzScript Module) :
    List (Failure Module) :=
  match script.pendingRefresh, script.pendingModule with
  | true, some next =>
    (refreshFailures runtime call next (remaining script) 0
      { script with refreshCallScheduled := false }).map fun address ↦ ⟨address, next⟩
  | _, _ => []

/-- The queue takes a call out before it makes it. -/
def takeCall (script : GzScript Module) : GzScript Module :=
  { script with deferredCalls := script.deferredCalls - 1 }

/-- One operation in the editor. The queue makes the calls it holds, and no others are made. -/
def sceneStep (scene : Scene Module) : Op Module F32 F64 → Scene Module
  | .applyPendingRefresh call =>
    if scene.script.deferredCalls = 0 then scene
    else
      { script := (takeCall scene.script).applyPendingRefresh runtime call
        failures := callFailures runtime call (takeCall scene.script) ++ scene.failures }
  | .instanceFree address =>
    { script := scene.script.instanceFree address
      failures := scene.failures.filter fun failure ↦ failure.address ≠ address }
  | op => { scene with script := step runtime scene.script op }

/-- The loop of a deferred call, with the flag cleared. -/
def refreshed (call : RefreshCall Module F32 F64) (script : GzScript Module) (next : Module) :
    GzScript Module :=
  GzScript.refreshLoop runtime call next (remaining script) 0
    { script with refreshCallScheduled := false }

/-! ### The property -/

/-- The refresh of the script is still to reach an instance. -/
def IsPending (script : GzScript Module) (address : InstanceId) : Prop :=
  script.pendingRefresh = true ∧
    ∃ index, script.refreshIndex ≤ index ∧ script.pendingRefreshInstances[index]? = some address

structure RefreshComplete (scene : Scene Module) : Prop where
  /-- A pending refresh is one to the module of the script, and its call is to come. -/
  scheduled : scene.script.pendingRefresh = true →
    ∃ next, scene.script.pendingModule = some next ∧ scene.script.module = some next ∧
      scene.script.refreshCallScheduled = true ∧ 0 < scene.script.deferredCalls
  /-- An instance that is behind is pending, or its migration has failed. -/
  covered : ∀ data ∈ scene.script.instances, scene.script.module ≠ some data.module →
    IsPending scene.script data.address ∨
      ∃ current, scene.script.module = some current ∧
        ⟨data.address, current⟩ ∈ scene.failures

variable {runtime}

omit [DecidableEq Module] in
theorem isPending_iff (script : GzScript Module) (address : InstanceId) :
    IsPending script address ↔ script.pendingRefresh = true ∧
      address ∈ script.pendingRefreshInstances.drop script.refreshIndex := by
  refine and_congr_right fun _ ↦ ?_
  rw [List.mem_iff_getElem?]
  constructor
  · rintro ⟨index, hle, hindex⟩
    refine ⟨index - script.refreshIndex, ?_⟩
    rw [List.getElem?_drop, Nat.add_sub_cancel' hle]
    exact hindex
  · rintro ⟨offset, hoffset⟩
    rw [List.getElem?_drop] at hoffset
    exact ⟨script.refreshIndex + offset, Nat.le_add_right _ _, hoffset⟩

/-! ### The loop -/

/-- What the loop leaves alone: the module of the script, and what is pending. -/
structure SamePending (before after : GzScript Module) : Prop where
  module : after.module = before.module
  pendingModule : after.pendingModule = before.pendingModule
  pendingRefresh : after.pendingRefresh = before.pendingRefresh
  pendingRefreshInstances : after.pendingRefreshInstances = before.pendingRefreshInstances

theorem samePending_refreshLoop (call : RefreshCall Module F32 F64) (next : Module)
    (remaining : List InstanceId) (processed : ℕ) (script : GzScript Module) :
    SamePending script (script.refreshLoop runtime call next remaining processed) := by
  refine refreshLoop_invariant call next (SamePending script)
    (fun _ h ↦ ⟨h.module, h.pendingModule, h.pendingRefresh, h.pendingRefreshInstances⟩)
    (fun other data h _ _ ↦ ?_) remaining processed ⟨rfl, rfl, rfl, rfl⟩
  obtain ⟨migrated, -, -, heq⟩ | heq := refreshInstance_cases runtime call other data next
  · rw [heq]
    exact ⟨h.module, h.pendingModule, h.pendingRefresh, h.pendingRefreshInstances⟩
  · rwa [heq]

omit [DecidableEq Module] in
/-- After a pass, an instance that is behind was behind before, and it is not the one of the pass
unless the migration has failed. -/
theorem behind_refreshInstance {call : RefreshCall Module F32 F64} {script : GzScript Module}
    {data other : InstanceData Module} {next : Module}
    (hother : other ∈ (script.refreshInstance runtime call data next).instances)
    (hbehind : other.module ≠ next) :
    other ∈ script.instances ∧
      (other.address = data.address → data.address ∈ failureOf runtime call data next) := by
  unfold GzScript.refreshInstance at hother
  unfold failureOf
  split at hother
  next migrated hmigrated =>
    obtain ⟨haddress, hmodule⟩ := migrateEditorInstance_eq hmigrated
    obtain ⟨old, hold, rfl⟩ := List.mem_map.mp hother
    split_ifs at hbehind ⊢ with hsame
    · exact absurd hmodule hbehind
    · refine ⟨hold, fun hdata ↦ absurd ?_ hsame⟩
      rw [hdata, haddress]
  next hfailed =>
    rw [hfailed]
    exact ⟨hother, fun _ ↦ List.mem_singleton_self data.address⟩

/-- An instance that is behind is still to be reached, or has failed. -/
def Covered (script : GzScript Module) (next : Module) (failed : List InstanceId) : Prop :=
  ∀ data ∈ script.instances, data.module ≠ next →
    data.address ∈ remaining script ∨ data.address ∈ failed

omit [DecidableEq Module] in
/-- One more is reached: nothing is left to do there, or it has failed. -/
theorem Covered.advance {script after : GzScript Module} {next : Module}
    {failed more rest : List InstanceId} {address : InstanceId} (h : Covered script next failed)
    (hremaining : remaining script = address :: rest) (hafter : remaining after = rest)
    (hbehind : ∀ data ∈ after.instances, data.module ≠ next →
      data ∈ script.instances ∧ (data.address = address → address ∈ more)) :
    Covered after next (more ++ failed) := by
  intro data hdata hne
  obtain ⟨hold, hreached⟩ := hbehind data hdata hne
  obtain hwaiting | hfailed := h data hold hne
  · rw [hremaining] at hwaiting
    obtain hnow | hlater := List.mem_cons.mp hwaiting
    · exact .inr (List.mem_append_left _ (hnow ▸ hreached hnow))
    · exact .inl (hafter ▸ hlater)
  · exact .inr (List.mem_append_right _ hfailed)

omit [DecidableEq Module] in
theorem Covered.swap {script : GzScript Module} {next : Module}
    {first second failed : List InstanceId}
    (h : Covered script next (first ++ (second ++ failed))) :
    Covered script next (second ++ (first ++ failed)) := by
  intro data hdata hne
  refine (h data hdata hne).imp_right fun hmem ↦ ?_
  rwa [← List.append_assoc, List.append_assoc, (List.perm_append_comm_assoc ..).mem_iff]

omit [DecidableEq Module] in
theorem remaining_next {script : GzScript Module} {address : InstanceId} {rest : List InstanceId}
    (h : remaining script = address :: rest) :
    remaining { script with refreshIndex := script.refreshIndex + 1 } = rest := by
  show script.pendingRefreshInstances.drop (script.refreshIndex + 1) = rest
  rw [← List.tail_drop]
  show (remaining script).tail = rest
  rw [h, List.tail_cons]

omit [DecidableEq Module] in
@[simp] theorem remaining_refreshInstance (call : RefreshCall Module F32 F64)
    (script : GzScript Module) (data : InstanceData Module) (next : Module) :
    remaining (script.refreshInstance runtime call data next) = remaining script := by
  obtain ⟨migrated, -, -, h⟩ | h := refreshInstance_cases runtime call script data next
  · rw [h]
    rfl
  · rw [h]

/-- An instance that is behind after the loop is among those that remain, or it has failed. -/
theorem covered_refreshLoop (call : RefreshCall Module F32 F64) (next : Module)
    (rest : List InstanceId) (processed : ℕ) {script : GzScript Module}
    {failed : List InstanceId} (hdistinct : AddressesDistinct script)
    (hremaining : remaining script = rest) (hcovered : Covered script next failed) :
    Covered (script.refreshLoop runtime call next rest processed) next
      (refreshFailures runtime call next rest processed script ++ failed) := by
  induction rest generalizing script processed failed with
  | nil => exact hcovered
  | cons address rest ih =>
    have hnext := remaining_next hremaining
    have hsame : AddressesDistinct { script with refreshIndex := script.refreshIndex + 1 } :=
      hdistinct
    have hinstances : script.instances =
        { script with refreshIndex := script.refreshIndex + 1 : GzScript Module }.instances := rfl
    simp only [GzScript.refreshLoop, refreshFailures]
    generalize { script with refreshIndex := script.refreshIndex + 1 : GzScript Module } = reached
      at hnext hsame hinstances ⊢
    rcases hfind : reached.find address with _ | found
    · -- The instance is gone.
      have hcovers : Covered reached next ([] ++ failed) := by
        refine hcovered.advance hremaining hnext fun data hdata _ ↦
          ⟨hinstances ▸ hdata, fun haddress ↦ ?_⟩
        rw [← haddress, find_of_mem hsame hdata] at hfind
        exact absurd hfind (Option.some_ne_none data)
      exact ih processed hsame hnext hcovers
    · have haddress : found.address = address := find_address hfind
      show Covered (if found.module = next then _ else _) next
        ((if found.module = next then _ else _) ++ failed)
      by_cases hcurrent : found.module = next
      · -- It uses the module already, and it is the only one at its address.
        have hcovers : Covered reached next ([] ++ failed) := by
          refine hcovered.advance hremaining hnext fun data hdata hne ↦
            ⟨hinstances ▸ hdata, fun hdataAddress ↦ ?_⟩
          rw [← hdataAddress, find_of_mem hsame hdata] at hfind
          obtain rfl : data = found := Option.some.inj hfind
          exact absurd hcurrent hne
        rw [if_pos hcurrent, if_pos hcurrent]
        exact ih processed hsame hnext hcovers
      · have hcovers : Covered (reached.refreshInstance runtime call found next) next
            (failureOf runtime call found next ++ failed) := by
          refine hcovered.advance hremaining ((remaining_refreshInstance ..).trans hnext)
            fun data hdata hne ↦ ?_
          obtain ⟨hold, hfailed⟩ := behind_refreshInstance hdata hne
          refine ⟨hinstances ▸ hold, fun hdataAddress ↦ ?_⟩
          rw [← haddress]
          exact hfailed (hdataAddress.trans haddress.symm)
        rw [if_neg hcurrent, if_neg hcurrent]
        by_cases hstop : GzScript.minBatch ≤ processed + 1 ∧
            GzScript.timeBudgetUsec ≤ call.elapsed (processed + 1)
        · rw [if_pos hstop, if_pos hstop]
          exact hcovers
        · rw [if_neg hstop, if_neg hstop, List.append_assoc]
          exact (ih (processed + 1) (addressesDistinct_refreshInstance call found next hsame)
            ((remaining_refreshInstance ..).trans hnext) hcovers).swap

/-! ### The invariant -/

/-- The queue holds a call when the flag says so. -/
def CallQueued (script : GzScript Module) : Prop :=
  script.refreshCallScheduled = true → 0 < script.deferredCalls

/-- The flag is right about the queue, and addresses are distinct. -/
structure Consistent (scene : Scene Module) : Prop where
  complete : RefreshComplete scene
  queued : CallQueued scene.script
  distinct : AddressesDistinct scene.script

omit [DecidableEq Module] in
theorem consistent_initialScene : Consistent (initialScene Module) where
  complete :=
    { scheduled := fun h ↦ absurd h Bool.false_ne_true
      covered := fun _ h ↦ absurd h List.not_mem_nil }
  queued h := absurd h Bool.false_ne_true
  distinct := List.nodup_nil

omit [DecidableEq Module] in
/-- What is pending stays, and so do the queue and the failures of the instances that stay; an
instance that appears uses the module of the script. -/
theorem RefreshComplete.frame {before : Scene Module} (h : RefreshComplete before)
    {after : GzScript Module} {failures : List (Failure Module)}
    (hpending : SamePending before.script after)
    (hscheduled : after.refreshCallScheduled = before.script.refreshCallScheduled)
    (hcalls : after.deferredCalls = before.script.deferredCalls)
    (hindex : after.refreshIndex = before.script.refreshIndex)
    (hinstances : ∀ data ∈ after.instances, before.script.module ≠ some data.module →
      data ∈ before.script.instances ∧ ∀ module, ⟨data.address, module⟩ ∈ before.failures →
        ⟨data.address, module⟩ ∈ failures) :
    RefreshComplete ⟨after, failures⟩ where
  scheduled hrefresh := by
    rw [hpending.pendingRefresh] at hrefresh
    obtain ⟨next, hnext, hmodule, hflag, hqueued⟩ := h.scheduled hrefresh
    exact ⟨next, hpending.pendingModule.trans hnext, hpending.module.trans hmodule,
      hscheduled.trans hflag, hcalls ▸ hqueued⟩
  covered data hdata hbehind := by
    rw [show (Scene.mk after failures).script.module = before.script.module
      from hpending.module] at hbehind ⊢
    obtain ⟨hold, hfailures⟩ := hinstances data hdata hbehind
    obtain hwaiting | ⟨current, hcurrent, hfailed⟩ := h.covered data hold hbehind
    · left
      show after.pendingRefresh = true ∧ ∃ index, after.refreshIndex ≤ index ∧
        after.pendingRefreshInstances[index]? = some data.address
      rw [hpending.pendingRefresh, hindex, hpending.pendingRefreshInstances]
      exact hwaiting
    · exact .inr ⟨current, hcurrent, hfailures current hfailed⟩

/-! ### Publishing -/

omit [DecidableEq Module] in
theorem schedulePendingRefresh_scheduled {script : GzScript Module}
    (hpending : script.pendingRefresh = true) (hmodule : script.pendingModule.isSome = true) :
    script.schedulePendingRefresh.refreshCallScheduled = true := by
  unfold GzScript.schedulePendingRefresh
  split_ifs with hdone
  · rw [hpending, Option.isNone_eq_false_iff.mpr hmodule] at hdone
    simpa using hdone
  · rfl

omit [DecidableEq Module] in
theorem samePending_schedule (script : GzScript Module) :
    SamePending script script.schedulePendingRefresh ∧
      script.schedulePendingRefresh.instances = script.instances ∧
      remaining script.schedulePendingRefresh = remaining script := by
  obtain ⟨scheduled, calls, heq⟩ := schedulePendingRefresh_eq script
  rw [heq]
  exact ⟨⟨rfl, rfl, rfl, rfl⟩, rfl, rfl⟩

omit [DecidableEq Module] in
/-- The flag is set where the call is sent, so it stays right about the queue. -/
theorem callQueued_schedule {script : GzScript Module} (h : CallQueued script) :
    CallQueued script.schedulePendingRefresh := by
  unfold GzScript.schedulePendingRefresh
  split_ifs with hdone
  · exact h
  · exact fun _ ↦ Nat.succ_pos script.deferredCalls

/-- The addresses of the instances that use another module. -/
def behind (script : GzScript Module) (next : Module) : List InstanceId :=
  (script.instances.filter fun data ↦ data.module ≠ next).map (·.address)

theorem mem_behind {script : GzScript Module} {next : Module} {data : InstanceData Module}
    (hdata : data ∈ script.instances) (hne : data.module ≠ next) :
    data.address ∈ behind script next :=
  List.mem_map_of_mem (List.mem_filter.mpr ⟨hdata, decide_eq_true hne⟩)

variable (runtime) in
/-- A publish in the editor: nobody is behind, or all who are wait for a call that is scheduled. -/
theorem publishModule_cases (script : GzScript Module) (next : Module) :
    (script.publishModule runtime true (some next)).module = some next ∧
      (script.publishModule runtime true (some next)).instances = script.instances ∧
      (behind script next = [] ∧
          (script.publishModule runtime true (some next)).pendingRefresh = false ∨
        (script.publishModule runtime true (some next)).pendingRefresh = true ∧
          (script.publishModule runtime true (some next)).pendingModule = some next ∧
          (script.publishModule runtime true (some next)).refreshCallScheduled = true ∧
          remaining (script.publishModule runtime true (some next)) = behind script next) := by
  simp only [GzScript.publishModule, Bool.not_true, Bool.false_eq_true, if_false]
  split_ifs with hnone
  · exact ⟨rfl, rfl, .inl ⟨hnone, rfl⟩⟩
  · have hsame := samePending_schedule { script with
      module := some next
      pendingModule := some next
      pendingRefresh := true
      pendingExportsChanged := script.exportsChanged runtime next
      pendingRefreshInstances := behind script next
      refreshIndex := 0 }
    refine ⟨hsame.1.module, hsame.2.1, .inr ⟨hsame.1.pendingRefresh, hsame.1.pendingModule,
      schedulePendingRefresh_scheduled rfl rfl, hsame.2.2⟩⟩

theorem callQueued_publishModule {script : GzScript Module} (h : CallQueued script)
    (next : Option Module) : CallQueued (script.publishModule runtime true next) := by
  rcases next with _ | next
  · exact h
  · simp only [GzScript.publishModule, Bool.not_true, Bool.false_eq_true, if_false]
    split_ifs with hnone
    · exact h
    · exact callQueued_schedule h

theorem consistent_publishModule {scene : Scene Module} (h : Consistent scene)
    (next : Option Module) :
    Consistent (sceneStep runtime scene (.publishModule next : Op Module F32 F64)) := by
  have hdistinct : AddressesDistinct (scene.script.publishModule runtime true next) :=
    addressesDistinct_step scene.script (.publishModule next : Op Module F32 F64) h.distinct
  have hqueued : CallQueued (scene.script.publishModule runtime true next) :=
    callQueued_publishModule h.queued next
  refine ⟨?_, hqueued, hdistinct⟩
  rcases next with _ | next
  · refine ⟨fun hpending ↦ ?_, h.complete.covered⟩
    obtain ⟨next, hnext, hmodule, hflag, -⟩ := h.complete.scheduled hpending
    exact ⟨next, hnext, hmodule, hflag, hqueued hflag⟩
  · obtain ⟨hmodule, hinstances, hcases⟩ := publishModule_cases runtime scene.script next
    have hbehind : ∀ data ∈ (scene.script.publishModule runtime true (some next)).instances,
        (scene.script.publishModule runtime true (some next)).module ≠ some data.module →
          data.address ∈ behind scene.script next := by
      intro data hdata hne
      rw [hinstances] at hdata
      rw [hmodule] at hne
      exact mem_behind hdata fun hsame ↦ hne (by rw [hsame])
    obtain ⟨hnone, hidle⟩ | ⟨hpending, hnext, hflag, hremaining⟩ := hcases
    · refine ⟨fun hpending ↦ absurd (hidle.symm.trans hpending) Bool.false_ne_true, ?_⟩
      intro data hdata hne
      have hmem := hbehind data hdata hne
      rw [hnone] at hmem
      exact absurd hmem List.not_mem_nil
    · refine ⟨fun _ ↦ ⟨next, hnext, hmodule, hflag, hqueued hflag⟩, fun data hdata hne ↦ .inl ?_⟩
      refine (isPending_iff _ _).mpr ⟨hpending, ?_⟩
      show data.address ∈ remaining (scene.script.publishModule runtime true (some next))
      rw [hremaining]
      exact hbehind data hdata hne

/-! ### The deferred call -/

variable (runtime) in
/-- A call for a pending refresh: it goes on later, or all instances were reached. -/
theorem applyPendingRefresh_cases (call : RefreshCall Module F32 F64) {script : GzScript Module}
    {next : Module} (hpending : script.pendingRefresh = true)
    (hnext : script.pendingModule = some next) :
    (script.applyPendingRefresh runtime call).module = (refreshed runtime call script next).module ∧
      (script.applyPendingRefresh runtime call).instances =
        (refreshed runtime call script next).instances ∧
      (script.applyPendingRefresh runtime call =
          (refreshed runtime call script next).schedulePendingRefresh ∨
        (script.applyPendingRefresh runtime call).pendingRefresh = false ∧
          remaining (refreshed runtime call script next) = []) := by
  have happly : script.applyPendingRefresh runtime call =
      if (refreshed runtime call script next).refreshIndex <
          (refreshed runtime call script next).pendingRefreshInstances.length then
        (refreshed runtime call script next).schedulePendingRefresh
      else
        { refreshed runtime call script next with
          pendingRefresh := false
          pendingExportsChanged := false
          pendingModule := none
          pendingRefreshInstances := []
          refreshIndex := 0 } := by
    simp only [GzScript.applyPendingRefresh]
    split
    next found _ hfound =>
      obtain rfl : next = found := Option.some.inj (hnext.symm.trans hfound)
      rfl
    next hnone => exact absurd hnext (hnone next hpending)
  rw [happly]
  split_ifs with hmore
  · have hsame := samePending_schedule (refreshed runtime call script next)
    exact ⟨hsame.1.module, hsame.2.1, .inl rfl⟩
  · exact ⟨rfl, rfl, .inr ⟨rfl, List.drop_eq_nil_iff.mpr (Nat.le_of_not_lt hmore)⟩⟩

variable (runtime) in
/-- A call that leaves a refresh pending has scheduled the next one. -/
theorem scheduled_applyPendingRefresh (call : RefreshCall Module F32 F64) {script : GzScript Module}
    {next : Module} (hrefresh : script.pendingRefresh = true)
    (hnext : script.pendingModule = some next)
    (hpending : (script.applyPendingRefresh runtime call).pendingRefresh = true) :
    (script.applyPendingRefresh runtime call).pendingModule = some next ∧
      (script.applyPendingRefresh runtime call).refreshCallScheduled = true := by
  have hsame : SamePending _ (refreshed runtime call script next) := samePending_refreshLoop ..
  obtain ⟨-, -, hlater | ⟨hidle, -⟩⟩ := applyPendingRefresh_cases runtime call hrefresh hnext
  · have hpendingModule : (refreshed runtime call script next).pendingModule = some next :=
      hsame.pendingModule.trans hnext
    rw [hlater]
    refine ⟨(samePending_schedule _).1.pendingModule.trans hpendingModule, ?_⟩
    refine schedulePendingRefresh_scheduled (hsame.pendingRefresh.trans hrefresh) ?_
    rw [hpendingModule]
    rfl
  · exact absurd (hidle.symm.trans hpending) Bool.false_ne_true

variable (runtime) in
/-- What the loop of a call leaves to be reached is pending after the call. -/
theorem isPending_applyPendingRefresh (call : RefreshCall Module F32 F64) {script : GzScript Module}
    {next : Module} (hrefresh : script.pendingRefresh = true)
    (hnext : script.pendingModule = some next) {address : InstanceId}
    (hwaiting : address ∈ remaining (refreshed runtime call script next)) :
    IsPending (script.applyPendingRefresh runtime call) address := by
  have hsame : SamePending _ (refreshed runtime call script next) := samePending_refreshLoop ..
  refine (isPending_iff _ _).mpr ?_
  show (script.applyPendingRefresh runtime call).pendingRefresh = true ∧
    address ∈ remaining (script.applyPendingRefresh runtime call)
  obtain ⟨-, -, hlater | ⟨-, hdone⟩⟩ := applyPendingRefresh_cases runtime call hrefresh hnext
  · rw [hlater, (samePending_schedule _).2.2]
    refine ⟨(samePending_schedule _).1.pendingRefresh.trans ?_, hwaiting⟩
    exact hsame.pendingRefresh.trans hrefresh
  · rw [hdone] at hwaiting
    exact absurd hwaiting List.not_mem_nil

variable (runtime) in
theorem mem_callFailures (call : RefreshCall Module F32 F64) {script : GzScript Module}
    {next : Module} {address : InstanceId} (hpending : script.pendingRefresh = true)
    (hnext : script.pendingModule = some next)
    (hfailed : address ∈ refreshFailures runtime call next (remaining script) 0
      { script with refreshCallScheduled := false }) :
    ⟨address, next⟩ ∈ callFailures runtime call script := by
  unfold callFailures
  split
  next found _ hfound =>
    obtain rfl : next = found := Option.some.inj (hnext.symm.trans hfound)
    exact List.mem_map_of_mem hfailed
  next hnone => exact absurd hnext (hnone next hpending)

variable (runtime) in
theorem applyPendingRefresh_idle (call : RefreshCall Module F32 F64) {script : GzScript Module}
    (hpending : script.pendingRefresh = false) :
    script.applyPendingRefresh runtime call = { script with refreshCallScheduled := false } ∧
      callFailures runtime call script = [] := by
  unfold GzScript.applyPendingRefresh callFailures
  simp only [hpending, and_self]

/-- After a call an instance that is behind is among those that remain, or it has failed. -/
theorem covered_refreshed {scene : Scene Module} (h : Consistent scene) {next : Module}
    (hmodule : scene.script.module = some next) (call : RefreshCall Module F32 F64)
    {data : InstanceData Module}
    (hdata : data ∈ (refreshed runtime call (takeCall scene.script) next).instances)
    (hne : data.module ≠ next) :
    data.address ∈ remaining (refreshed runtime call (takeCall scene.script) next) ∨
      data.address ∈ refreshFailures runtime call next (remaining (takeCall scene.script)) 0
          { takeCall scene.script with refreshCallScheduled := false } ∨
      ⟨data.address, next⟩ ∈ scene.failures := by
  have hcovered : Covered { takeCall scene.script with refreshCallScheduled := false } next
      ((scene.failures.filter fun failure ↦ failure.module = next).map Failure.address) := by
    intro other hother hbehind
    have hstale : scene.script.module ≠ some other.module := by
      rw [hmodule]
      exact fun hsame ↦ hbehind (Option.some.inj hsame).symm
    obtain hwaiting | ⟨current, hcurrent, hfailed⟩ := h.complete.covered other hother hstale
    · exact .inl ((isPending_iff _ _).mp hwaiting).2
    · obtain rfl : next = current := Option.some.inj (hmodule.symm.trans hcurrent)
      exact .inr (List.mem_map_of_mem (List.mem_filter.mpr ⟨hfailed, decide_eq_true rfl⟩))
  have hdistinct :
      AddressesDistinct { takeCall scene.script with refreshCallScheduled := false } := h.distinct
  refine (covered_refreshLoop call next (remaining (takeCall scene.script)) 0 hdistinct rfl hcovered
    data hdata hne).imp_right fun hmem ↦ (List.mem_append.mp hmem).imp_right fun hold ↦ ?_
  obtain ⟨⟨address, module⟩, hfailure, haddress⟩ := List.mem_map.mp hold
  obtain ⟨hkept, hcurrent⟩ := List.mem_filter.mp hfailure
  obtain rfl : module = next := of_decide_eq_true hcurrent
  obtain rfl : address = data.address := haddress
  exact hkept

variable (runtime) in
/-- The flag is cleared first, and set again only where another call is sent. -/
theorem callQueued_applyPendingRefresh (call : RefreshCall Module F32 F64)
    (script : GzScript Module) : CallQueued (script.applyPendingRefresh runtime call) := by
  have hcleared : CallQueued { script with refreshCallScheduled := false } :=
    fun hflag ↦ absurd hflag Bool.false_ne_true
  simp only [GzScript.applyPendingRefresh]
  split
  next next _ _ =>
    have hloop : CallQueued (refreshed runtime call script next) := by
      refine refreshLoop_invariant call next CallQueued (fun _ h ↦ h) (fun other data h _ _ ↦ ?_)
        (remaining script) 0 hcleared
      obtain ⟨migrated, -, -, heq⟩ | heq := refreshInstance_cases runtime call other data next
      · rw [heq]
        exact h
      · rwa [heq]
    split_ifs
    · exact callQueued_schedule hloop
    · exact hloop
  next => exact hcleared

theorem consistent_applyPendingRefresh {scene : Scene Module} (h : Consistent scene)
    (call : RefreshCall Module F32 F64) :
    Consistent (sceneStep runtime scene (.applyPendingRefresh call)) := by
  have hdistinct : AddressesDistinct ((takeCall scene.script).applyPendingRefresh runtime call) :=
    addressesDistinct_step (takeCall scene.script) (.applyPendingRefresh call) h.distinct
  have hqueued : CallQueued ((takeCall scene.script).applyPendingRefresh runtime call) :=
    callQueued_applyPendingRefresh runtime call (takeCall scene.script)
  simp only [sceneStep]
  split_ifs with hempty
  · exact h
  · refine ⟨?_, hqueued, hdistinct⟩
    rcases hrefresh : (takeCall scene.script).pendingRefresh with _ | _
    · -- Nothing is pending, and what is behind has failed.
      obtain ⟨happly, hnone⟩ := applyPendingRefresh_idle runtime call hrefresh
      rw [happly, hnone]
      refine ⟨fun hpending ↦ absurd (hrefresh.symm.trans hpending) Bool.false_ne_true, ?_⟩
      exact h.complete.covered
    · obtain ⟨next, hnext, hmodule, -, -⟩ := h.complete.scheduled hrefresh
      obtain ⟨hafter, hinstances, -⟩ := applyPendingRefresh_cases runtime call hrefresh hnext
      have hsame : SamePending _ (refreshed runtime call (takeCall scene.script) next) :=
        samePending_refreshLoop ..
      have hcurrent : ((takeCall scene.script).applyPendingRefresh runtime call).module =
          some next := hafter.trans (hsame.module.trans hmodule)
      refine ⟨fun hpending ↦ ?_, fun data hdata hbehind ↦ ?_⟩
      · obtain ⟨hpendingModule, hflag⟩ :=
          scheduled_applyPendingRefresh runtime call hrefresh hnext hpending
        exact ⟨next, hpendingModule, hcurrent, hflag, hqueued hflag⟩
      · have hne : data.module ≠ next := fun heq ↦
          hbehind (hcurrent.trans (congrArg some heq.symm))
        have hmem : data ∈ (refreshed runtime call (takeCall scene.script) next).instances :=
          hinstances ▸ hdata
        obtain hwaiting | hfailed | hold := covered_refreshed h hmodule call hmem hne
        · exact .inl (isPending_applyPendingRefresh runtime call hrefresh hnext hwaiting)
        · refine .inr ⟨next, hcurrent, List.mem_append_left _ ?_⟩
          exact mem_callFailures runtime call hrefresh hnext hfailed
        · exact .inr ⟨next, hcurrent, List.mem_append_right _ hold⟩

/-! ### Runs -/

omit [DecidableEq Module] in
/-- An instance that is created uses the module of the script. -/
theorem instanceCreate_cases (script : GzScript Module) (owner : Option UInt64)
    (created : Option ZigInstance) (address : InstanceId) :
    script.instanceCreate owner created address = script ∨
      ∃ data, script.module = some data.module ∧
        script.instanceCreate owner created address =
          { script with instances := data :: script.instances } := by
  unfold GzScript.instanceCreate
  split
  next module owner zigInstance hmodule =>
    split_ifs
    · exact .inl rfl
    · exact .inr ⟨_, hmodule, rfl⟩
  next => exact .inl rfl

theorem consistent_sceneStep (scene : Scene Module) (op : Op Module F32 F64)
    (h : Consistent scene) : Consistent (sceneStep runtime scene op) := by
  have hdistinct : AddressesDistinct (step runtime scene.script op) :=
    addressesDistinct_step scene.script op h.distinct
  cases op with
  | publishModule next => exact consistent_publishModule h next
  | applyPendingRefresh call => exact consistent_applyPendingRefresh h call
  | instanceCreate owner created address =>
    obtain hsame | ⟨created, hmodule, hcreated⟩ :=
      instanceCreate_cases scene.script owner created address
    · show Consistent { scene with script := scene.script.instanceCreate owner _ address }
      rw [hsame]
      exact h
    · replace hdistinct :
          AddressesDistinct (scene.script.instanceCreate owner _ address) := hdistinct
      show Consistent { scene with script := scene.script.instanceCreate owner _ address }
      rw [hcreated] at hdistinct ⊢
      refine ⟨h.complete.frame ⟨rfl, rfl, rfl, rfl⟩ rfl rfl rfl ?_, h.queued, hdistinct⟩
      intro data hdata hbehind
      obtain rfl | hold := List.mem_cons.mp hdata
      · exact absurd hmodule hbehind
      · exact ⟨hold, fun _ hfailed ↦ hfailed⟩
  | instanceFree address =>
    refine ⟨h.complete.frame ⟨rfl, rfl, rfl, rfl⟩ rfl rfl rfl ?_, h.queued, hdistinct⟩
    intro data hdata _
    obtain ⟨hold, hother⟩ := List.mem_filter.mp hdata
    exact ⟨hold, fun _ hfailed ↦ List.mem_filter.mpr ⟨hfailed, hother⟩⟩
  | rehash order =>
    show Consistent { scene with
      script := if order.Perm scene.script.instances then { scene.script with instances := order }
        else scene.script }
    by_cases hperm : order.Perm scene.script.instances
    · rw [step, if_pos hperm] at hdistinct
      rw [if_pos hperm]
      refine ⟨h.complete.frame ⟨rfl, rfl, rfl, rfl⟩ rfl rfl rfl ?_, h.queued, hdistinct⟩
      intro data hdata _
      exact ⟨hperm.mem_iff.mp hdata, fun _ hfailed ↦ hfailed⟩
    · rw [if_neg hperm]
      exact h

/-- After every run a pending refresh is one to the module of the script, and its call is scheduled;
an instance that uses another module is pending, or has failed its migration to that module. -/
theorem run_refreshComplete (ops : List (Op Module F32 F64)) :
    RefreshComplete (exec (sceneStep runtime) (initialScene Module) ops) :=
  (exec_invariant (sceneStep runtime) Consistent consistent_sceneStep consistent_initialScene
    ops).complete

end Gzscript.Script.RefreshCoverage
