import Gzscript.Script.Refresh

/-!
# A silent migration

A publish whose differences go unseen leaves an instance that the next deferred call can migrate
without a word to its owner (`exists_silent_call`). So the condition of `Script.Refresh` is exact:
a run announces every change of exports, wherever it is cut and whatever the deferred calls find
that follow, exactly when all its publishes meet the condition (`announced_iff`). In `changedTwice`
the module changes twice before the refresh comes, and its exports only the first time.
-/

set_option autoImplicit false
set_option relaxedAutoImplicit false

namespace Gzscript.Script.SilentMigration

open Abi Abi.Value Abi.Descriptor Instances Refresh Library.Bytes Library.Transition

variable {Module Object F32 F64 : Type} {runtime : Runtime Module Object F32 F64}

/-! ### Addresses -/

/-- No two instances have one address. -/
def AddressesDistinct (script : GzScript Module) : Prop :=
  (script.instances.map (·.address)).Nodup

theorem find_of_mem {script : GzScript Module} (h : AddressesDistinct script)
    {data : InstanceData Module} (hdata : data ∈ script.instances) :
    script.find data.address = some data := by
  unfold AddressesDistinct at h
  unfold GzScript.find
  generalize script.instances = instances at h hdata
  induction instances with
  | nil => cases hdata
  | cons head tail ih =>
    rw [List.map_cons, List.nodup_cons] at h
    obtain rfl | htail := List.mem_cons.mp hdata
    · exact List.find?_cons_of_pos (by simp)
    · have hne : head.address ≠ data.address := fun heq ↦
        h.1 (heq ▸ List.mem_map_of_mem htail)
      rw [List.find?_cons_of_neg (by simpa using hne)]
      exact ih h.2 htail

theorem find_address {script : GzScript Module} {address : InstanceId}
    {data : InstanceData Module} (hfind : script.find address = some data) :
    data.address = address := by
  simpa using List.find?_some hfind

/-- Another instance is found as before. -/
theorem find_setInstance {script : GzScript Module} {changed : InstanceData Module}
    {address : InstanceId} (hne : changed.address ≠ address) :
    (script.setInstance changed).find address = script.find address := by
  simp only [GzScript.find, GzScript.setInstance]
  induction script.instances with
  | nil => rfl
  | cons head tail ih =>
    rw [List.map_cons]
    by_cases hchanged : head.address = changed.address
    · have hother : head.address ≠ address := hchanged ▸ hne
      rw [if_pos hchanged, List.find?_cons_of_neg (by simpa using hne),
        List.find?_cons_of_neg (by simpa using hother), ih]
    · rw [if_neg hchanged, List.find?_cons, List.find?_cons, ih]

theorem addressesDistinct_setInstance {script : GzScript Module} (changed : InstanceData Module)
    (h : AddressesDistinct script) : AddressesDistinct (script.setInstance changed) := by
  have hsame : (script.setInstance changed).instances.map (·.address) =
      script.instances.map (·.address) := by
    simp only [GzScript.setInstance, List.map_map]
    refine List.map_congr_left fun data _ ↦ ?_
    simp only [Function.comp_apply]
    split_ifs with haddress
    · exact haddress.symm
    · rfl
  rw [AddressesDistinct, hsame]
  exact h

theorem addressesDistinct_schedule {script : GzScript Module} (h : AddressesDistinct script) :
    AddressesDistinct script.schedulePendingRefresh := by
  obtain ⟨scheduled, calls, heq⟩ := schedulePendingRefresh_eq script
  rw [heq]
  exact h

theorem addressesDistinct_refreshInstance {script : GzScript Module}
    (call : RefreshCall Module F32 F64) (data : InstanceData Module) (next : Module)
    (h : AddressesDistinct script) :
    AddressesDistinct (script.refreshInstance runtime call data next) := by
  obtain ⟨migrated, -, -, heq⟩ | heq := refreshInstance_cases runtime call script data next
  · rw [heq]
    exact addressesDistinct_setInstance migrated h
  · rwa [heq]

variable [DecidableEq Module]

theorem addressesDistinct_step (script : GzScript Module) (op : Op Module F32 F64)
    (h : AddressesDistinct script) : AddressesDistinct (step runtime script op) := by
  cases op with
  | publishModule next =>
    cases next with
    | none => exact h
    | some published =>
      simp only [step, GzScript.publishModule]
      split_ifs
      · exact h
      · exact h
      · exact addressesDistinct_schedule h
  | applyPendingRefresh call =>
    simp only [step, GzScript.applyPendingRefresh]
    split
    next next _ _ =>
      have hrefreshed : AddressesDistinct (GzScript.refreshLoop runtime call next
          (script.pendingRefreshInstances.drop script.refreshIndex) 0
          { script with refreshCallScheduled := false }) := by
        refine refreshLoop_invariant call next AddressesDistinct (fun _ hscript ↦ hscript) ?_ _ _ h
        intro before data hbefore _ _
        exact addressesDistinct_refreshInstance call data next hbefore
      split_ifs
      · exact addressesDistinct_schedule hrefreshed
      · exact hrefreshed
    next => exact h
  | instanceCreate owner created address =>
    simp only [step, GzScript.instanceCreate]
    split
    next =>
      split_ifs with hused
      · exact h
      · refine List.nodup_cons.mpr ⟨fun hmem ↦ ?_, h⟩
        obtain ⟨data, hdata, rfl⟩ := List.mem_map.mp hmem
        exact hused (by simp [find_of_mem h hdata])
    next => exact h
  | instanceFree address => exact h.sublist (List.filter_sublist.map _)
  | rehash order =>
    simp only [step]
    split_ifs with hperm
    · exact (hperm.map _).nodup_iff.mpr h
    · exact h

theorem addressesDistinct_exec (ops : List (Op Module F32 F64)) :
    AddressesDistinct (exec (step runtime) (initial Module) ops) := by
  have hinitial : AddressesDistinct (initial Module) := List.nodup_nil
  exact exec_invariant (step runtime) AddressesDistinct addressesDistinct_step hinitial ops

/-! ### A call that migrates -/

/-- A deferred call that finds every function of a module to succeed, and takes no time. -/
def willing : RefreshCall Module F32 F64 where
  createInstance _ _ := some 0
  getProperty _ _ _ := some .nil
  setProperty _ _ _ _ := true
  elapsed _ := 0

variable (runtime) in
omit [DecidableEq Module] in
theorem find_refreshInstance (call : RefreshCall Module F32 F64) (script : GzScript Module)
    {data : InstanceData Module} (next : Module) {address : InstanceId}
    (hne : data.address ≠ address) :
    (script.refreshInstance runtime call data next).find address = script.find address := by
  obtain ⟨migrated, hmigrated, -, heq⟩ | heq :=
    refreshInstance_cases runtime call script data next
  · rw [heq]
    exact find_setInstance (by rwa [hmigrated])
  · rw [heq]

omit [DecidableEq Module] in
theorem copyProperties_willing (data : InstanceData Module) (next : Module)
    (nextInstance : ZigInstance) (properties : List (PropertyDescriptor F32 F64)) (index : ℕ) :
    GzScript.copyProperties runtime willing data next nextInstance properties index = true := by
  induction properties generalizing index with
  | nil => rfl
  | cons property properties ih =>
    simp only [GzScript.copyProperties, ih, Bool.and_true]
    split
    next => rfl
    next =>
      split_ifs
      · rfl
      · rfl

omit [DecidableEq Module] in
theorem refreshInstance_willing (script : GzScript Module) (data : InstanceData Module)
    (next : Module) :
    ⟨data.owner, data.module, next, script.pendingExportsChanged⟩ ∈
      (script.refreshInstance runtime willing data next).migrations := by
  simp only [GzScript.refreshInstance, GzScript.migrateEditorInstance, copyProperties_willing]
  exact List.mem_cons_self

variable (runtime) in
/-- The call migrates every instance that was taken down and is behind. -/
theorem refreshLoop_willing (next : Module) (remaining : List InstanceId) (processed : ℕ)
    {script : GzScript Module} {data : InstanceData Module} (hmem : data.address ∈ remaining)
    (hfind : script.find data.address = some data) (hstale : data.module ≠ next) :
    ⟨data.owner, data.module, next, script.pendingExportsChanged⟩ ∈
      (script.refreshLoop runtime willing next remaining processed).migrations := by
  have hcontinues : ∀ processed, ¬ (GzScript.minBatch ≤ processed + 1 ∧ GzScript.timeBudgetUsec ≤
      (willing : RefreshCall Module F32 F64).elapsed (processed + 1)) :=
    fun _ hstops ↦ absurd hstops.2 (Nat.not_succ_le_zero _)
  induction remaining generalizing script processed with
  | nil => cases hmem
  | cons address remaining ih =>
    simp only [GzScript.refreshLoop, if_neg (hcontinues _)]
    by_cases haddress : address = data.address
    · -- Its own turn: the later passes only add migrations.
      subst haddress
      rw [show GzScript.find { script with refreshIndex := script.refreshIndex + 1 } data.address =
        some data from hfind]
      simp only [if_neg hstale]
      refine refreshLoop_invariant willing next
        (fun script ↦ (⟨data.owner, data.module, next, _⟩ : Migration Module) ∈ script.migrations)
        (fun _ hscript ↦ hscript) ?_ remaining _ (refreshInstance_willing _ data next)
      intro before other hbefore _ _
      obtain ⟨migrated, -, -, heq⟩ | heq :=
        refreshInstance_cases runtime willing before other next
      · rw [heq]
        exact List.mem_cons_of_mem _ hbefore
      · rwa [heq]
    · -- The turn of another one leaves it where it is.
      have hrest : data.address ∈ remaining := List.mem_of_ne_of_mem (Ne.symm haddress) hmem
      split
      next => exact ih processed hrest hfind
      next other hother =>
        split_ifs
        · exact ih processed hrest hfind
        · have hkept := find_refreshInstance runtime willing
            { script with refreshIndex := script.refreshIndex + 1 } next
            (show other.address ≠ data.address from find_address hother ▸ haddress)
          have hrefreshed := ih (processed + 1) hrest (hkept.trans hfind)
          rwa [refreshInstance_pendingExportsChanged] at hrefreshed

/-! ### The condition is exact -/

/-- What is pending after a refresh that does not tell the owners was taken down. -/
structure SilentRefresh (script : GzScript Module) (next : Module) (data : InstanceData Module) :
    Prop where
  pending : script.pendingRefresh = true
  pendingModule : script.pendingModule = some next
  silent : script.pendingExportsChanged = false
  awaited : data.address ∈ script.pendingRefreshInstances.drop script.refreshIndex
  found : script.find data.address = some data

/-- A publish of a module with the exports of the current one takes down the instances that are
behind, and does not tell their owners. -/
theorem silentRefresh_publishModule {script : GzScript Module} {current next : Module}
    {data : InstanceData Module} (haddresses : AddressesDistinct script)
    (hcurrent : script.module = some current) (hsame : sameExports runtime current next = true)
    (hdata : data ∈ script.instances) (hstale : data.module ≠ next) :
    SilentRefresh (script.publishModule runtime true (some next)) next data := by
  have hmem : data.address ∈
      (script.instances.filter fun data ↦ data.module ≠ next).map (·.address) :=
    List.mem_map_of_mem (List.mem_filter.mpr ⟨hdata, by simpa using hstale⟩)
  have hsilent := (exportsChanged_eq_false_iff script next).mpr ⟨current, hcurrent, hsame⟩
  simp only [GzScript.publishModule, hsilent, Bool.not_true, Bool.false_eq_true, if_false,
    if_neg (List.ne_nil_of_mem hmem)]
  obtain ⟨scheduled, calls, heq⟩ := schedulePendingRefresh_eq
    { script with
      module := some next
      pendingModule := some next
      pendingRefresh := true
      pendingExportsChanged := false
      pendingRefreshInstances :=
        (script.instances.filter fun data ↦ data.module ≠ next).map (·.address)
      refreshIndex := 0 }
  rw [heq]
  exact ⟨rfl, rfl, rfl, hmem, find_of_mem haddresses hdata⟩

theorem applyPendingRefresh_migrations (call : RefreshCall Module F32 F64)
    {script : GzScript Module} {next : Module} (hrefresh : script.pendingRefresh = true)
    (hpending : script.pendingModule = some next) :
    (script.applyPendingRefresh runtime call).migrations =
      (GzScript.refreshLoop runtime call next
        (script.pendingRefreshInstances.drop script.refreshIndex) 0
        { script with refreshCallScheduled := false }).migrations := by
  simp only [GzScript.applyPendingRefresh, hrefresh, hpending]
  split_ifs
  · obtain ⟨scheduled, calls, heq⟩ := schedulePendingRefresh_eq _
    rw [heq]
  · rfl

/-- A publish leaves an instance behind whose exports differ, unseen, and the next deferred call can
migrate it without telling its owner. -/
theorem exists_silent_call {script : GzScript Module} (haddresses : AddressesDistinct script)
    {next : Module} (hunseen : ¬ SeesDifferences runtime script next) :
    ¬ Announced runtime
      ((script.publishModule runtime true (some next)).applyPendingRefresh runtime willing) := by
  simp only [SeesDifferences, not_forall, exists_prop] at hunseen
  obtain ⟨current, hcurrent, hsame, data, hdata, hstale, hdiffers⟩ := hunseen
  have hpublished := silentRefresh_publishModule haddresses hcurrent hsame hdata hstale
  generalize script.publishModule runtime true (some next) = published at hpublished ⊢
  have hfound : GzScript.find { published with refreshCallScheduled := false } data.address =
      some data := hpublished.found
  have hmigrated := refreshLoop_willing runtime next _ 0 hpublished.awaited hfound hstale
  intro hannounced
  rw [Announced, applyPendingRefresh_migrations willing hpublished.pending
    hpublished.pendingModule] at hannounced
  have hnotified := hannounced _ hmigrated (by simpa using hdiffers)
  exact absurd (hpublished.silent.symm.trans hnotified) (by decide)

/-- Wherever a run is cut and whatever the deferred calls find that follow, every change of exports
is announced: exactly when each publish of the run meets the condition. -/
theorem announced_iff (runtime : Runtime Module Object F32 F64) (ops : List (Op Module F32 F64)) :
    (∀ before after, ops = before ++ after → ∀ calls : List (RefreshCall Module F32 F64),
      Announced runtime (exec (step runtime) (initial Module)
        (before ++ calls.map .applyPendingRefresh))) ↔
      Along (step runtime) (PublishSeesDifferences runtime) (initial Module) ops := by
  constructor
  · intro hannounced
    refine (along_iff_split _ _ _ _).mpr fun before op after heq ↦ ?_
    by_contra hop
    cases op with
    | publishModule next =>
      cases next with
      | none => exact hop trivial
      | some next =>
        have hcalled := hannounced (before ++ [.publishModule (some next)]) after (by simp [heq])
          [willing]
        rw [List.map_cons, List.map_nil, exec_concat, exec_concat] at hcalled
        exact exists_silent_call (addressesDistinct_exec before) hop hcalled
    | _ => exact hop trivial
  · rintro halong before after rfl calls
    have hbefore := ((along_append _ _ _ _ _).mp halong).1
    have hcalls : ∀ script, Along (step runtime) (PublishSeesDifferences runtime) script
        (calls.map .applyPendingRefresh) := by
      induction calls with
      | nil => exact fun _ ↦ trivial
      | cons call calls ih => exact fun script ↦ ⟨trivial, ih _⟩
    exact (following_exec ((along_append _ _ _ _ _).mpr ⟨hbefore, hcalls _⟩)).announced

/-! ### A change that is not announced -/

/-- A script without exports, and two that export the same number. -/
def sampleRuntime : Runtime (Fin 3) Empty UInt32 UInt64 where
  descriptor module :=
    if module = 0 then ⟨ascii "Node", [], []⟩
    else
      ⟨ascii "Node", [⟨ascii "speed", 2, 0, [], [], 0, 0, 0, .int 0⟩],
        [⟨inspectorEntryProperty, 0, [], []⟩]⟩
  engine := ValueCodec.sampleEngine
  equality :=
    { double lhs rhs := lhs = rhs
      variant lhs rhs := match lhs, rhs with
        | .int lhs, .int rhs => lhs = rhs
        | _, _ => false }

/-- The exports change while an instance lives, and the module changes once more before the deferred
call. -/
def changedTwice : List (Op (Fin 3) UInt32 UInt64) :=
  [.publishModule (some 0), .instanceCreate (some 42) (some 1) 100, .publishModule (some 1),
    .publishModule (some 2), .applyPendingRefresh willing]

/-- The instance gets a property that its owner is not told of. -/
theorem announced_fails :
    let script := exec (step sampleRuntime) (initial (Fin 3)) changedTwice
    script.migrations = [⟨42, 0, 2, false⟩] ∧ sameExports sampleRuntime 0 2 = false ∧
      ¬ Announced sampleRuntime script := by
  have hmigrations : (exec (step sampleRuntime) (initial (Fin 3)) changedTwice).migrations =
      [⟨42, 0, 2, false⟩] := by decide +kernel
  have hdiffers : sameExports sampleRuntime 0 2 = false := by decide +kernel
  refine ⟨hmigrations, hdiffers, fun hannounced ↦ ?_⟩
  rw [Announced, hmigrations] at hannounced
  exact absurd (hannounced _ List.mem_cons_self hdiffers) (by decide)

end Gzscript.Script.SilentMigration
