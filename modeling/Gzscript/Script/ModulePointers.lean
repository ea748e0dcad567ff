import Gzscript.Script.ModuleLog
import Gzscript.Script.SilentMigration

/-!
# The pointers of a script

Between two operations the slots hold what the script and its instances use (`Agrees`), and the
memory is sound for the instances that they own (`Kept`). Here this is kept by what publishes a
module (`publishModule_kept`), and by what takes the instances to it: the migration of one
(`migrateEditorInstance_kept`), in which the module of the instance that is replaced is held until
the instance is destroyed, the loop (`refreshLoop_kept`), and the deferred call
(`applyPendingRefresh_kept`).
-/

set_option autoImplicit false
set_option relaxedAutoImplicit false

namespace Gzscript.Script.ModulePointers

open Abi.Descriptor Instances ModuleOwners ModuleLog Refresh SilentMigration
open Library.SharedPointers

variable {Module Object F32 F64 : Type} [DecidableEq Module]
variable {memory : Memory Module} {live : List (Module × ZigInstance)}

/-! ### The pointers and the script -/

/-- The instances inside the modules that the instances of a script own. -/
def liveOf (script : GzScript Module) : List (Module × ZigInstance) :=
  script.instances.map fun data ↦ (data.module, data.zigInstance)

/-- The slots hold what the script and its instances use, and the parameter of `publish_module`. -/
structure Agrees (held : Slot → Option Module) (referenced : Holder → Option Unit)
    (script : GzScript Module) (next : Option Module) : Prop where
  module : held .module = script.module
  pendingModule : held .pendingModule = script.pendingModule
  finished : held .finished = none
  nextModule : held .nextModule = next
  previousModule : held .previousModule = none
  instances : ∀ address, held (.ofInstance address) = (script.find address).map (·.module)
  references : ∀ address,
    referenced (.ofInstance address) = (script.find address).map fun _ ↦ ()
  distinct : AddressesDistinct script

omit [DecidableEq Module] in
theorem find_congr {before after : GzScript Module} (h : after.instances = before.instances)
    (address : InstanceId) : after.find address = before.find address := by
  rw [GzScript.find, GzScript.find, h]

omit [DecidableEq Module] in
/-- The module of every instance is held by the instance. -/
theorem isHeld_of_instances {pointers : Pointers Slot Module} {script : GzScript Module}
    (hinstances : ∀ address,
      pointers.held (.ofInstance address) = (script.find address).map (·.module))
    (hdistinct : AddressesDistinct script) :
    ∀ entry ∈ liveOf script, pointers.IsHeld entry.1 := by
  intro entry hentry
  obtain ⟨data, hdata, rfl⟩ := List.mem_map.mp hentry
  refine ⟨.ofInstance data.address, ?_⟩
  rw [hinstances, find_of_mem hdistinct hdata, Option.map_some]

omit [DecidableEq Module] in
/-- What is written elsewhere leaves the slots of the instances alone. -/
theorem isHeld_of_same {pointers : Pointers Slot Module} {held : Slot → Option Module}
    {referenced : Holder → Option Unit} {script : GzScript Module} {next : Option Module}
    (h : Agrees held referenced script next)
    (hsame : ∀ address, pointers.held (.ofInstance address) = held (.ofInstance address)) :
    ∀ entry ∈ liveOf script, pointers.IsHeld entry.1 :=
  isHeld_of_instances (fun address ↦ (hsame address).trans (h.instances address)) h.distinct

omit [DecidableEq Module] in
/-- An instance holds its module. -/
theorem Agrees.held {held : Slot → Option Module} {referenced : Holder → Option Unit}
    {script : GzScript Module} {next : Option Module} {address : InstanceId}
    {data : InstanceData Module} (h : Agrees held referenced script next)
    (hfind : script.find address = some data) : held (.ofInstance address) = some data.module := by
  rw [h.instances, hfind, Option.map_some]

omit [DecidableEq Module] in
/-- An instance holds a `Ref` to its script. -/
theorem Agrees.referenced {held : Slot → Option Module} {referenced : Holder → Option Unit}
    {script : GzScript Module} {next : Option Module} {address : InstanceId}
    {data : InstanceData Module} (h : Agrees held referenced script next)
    (hfind : script.find address = some data) : referenced (.ofInstance address) = some () := by
  rw [h.references, hfind, Option.map_some]

omit [DecidableEq Module] in
/-- A step that leaves the instances alone. -/
theorem Agrees.frame {held written : Slot → Option Module}
    {referenced counted : Holder → Option Unit} {before after : GzScript Module}
    {given : Option Module} (h : Agrees held referenced before given)
    (hinstances : after.instances = before.instances)
    (hcounted : ∀ address, counted (.ofInstance address) = referenced (.ofInstance address))
    (hsame : ∀ address, written (.ofInstance address) = held (.ofInstance address))
    (hmodule : written .module = after.module)
    (hpending : written .pendingModule = after.pendingModule)
    (hfinished : written .finished = none) (hnext : written .nextModule = none)
    (hprevious : written .previousModule = none) : Agrees written counted after none where
  module := hmodule
  pendingModule := hpending
  finished := hfinished
  nextModule := hnext
  previousModule := hprevious
  instances address := by rw [hsame, h.instances, find_congr hinstances]
  references address := by rw [hcounted, h.references, find_congr hinstances]
  distinct := by
    rw [AddressesDistinct, hinstances]
    exact h.distinct

omit [DecidableEq Module] in
/-- A step that writes no pointer to a module, and no `Ref` of an instance. -/
theorem Agrees.keep {held : Slot → Option Module} {referenced counted : Holder → Option Unit}
    {before after : GzScript Module} (h : Agrees held referenced before none)
    (hinstances : after.instances = before.instances) (hmodule : after.module = before.module)
    (hpending : after.pendingModule = before.pendingModule)
    (hcounted : ∀ address, counted (.ofInstance address) = referenced (.ofInstance address)) :
    Agrees held counted after none :=
  h.frame hinstances hcounted (fun _ ↦ rfl) (h.module.trans hmodule.symm)
    (h.pendingModule.trans hpending.symm) h.finished h.nextModule h.previousModule

/-- What holds between two operations. -/
structure Kept (scene : Scene Module) : Prop where
  sound : Sound scene.memory (liveOf scene.script)
  agrees : Agrees scene.memory.pointers.held scene.memory.references.held scene.script none

/-! ### Publishing -/

variable (runtime : Runtime Module Object F32 F64)

theorem publishModule_editor (script : GzScript Module) (next : Module) :
    (script.publishModule runtime true (some next)).instances = script.instances ∧
    (script.publishModule runtime true (some next)).module = some next ∧
    (script.publishModule runtime true (some next)).pendingModule =
      if (script.publishModule runtime true (some next)).pendingRefresh then some next
      else none := by
  simp only [GzScript.publishModule, Bool.not_true, Bool.false_eq_true, if_false]
  split
  next => exact ⟨rfl, rfl, rfl⟩
  next =>
    unfold GzScript.schedulePendingRefresh
    split <;> exact ⟨rfl, rfl, rfl⟩

variable {runtime}

variable (runtime) in
/-- The published module takes the place of the one before it. -/
theorem publishModule_kept {script : GzScript Module} (isEditorHint : Bool) (placeholders : ℕ)
    (next : Module) (hsound : Sound memory (liveOf script))
    (hagrees : Agrees memory.pointers.held memory.references.held script (some next)) :
    Kept (Scene.publishModule runtime isEditorHint placeholders ⟨script, memory⟩) ∧
      (Scene.publishModule runtime isEditorHint placeholders ⟨script, memory⟩).memory.references =
        memory.references := by
  have hcompared := hsound.compareExports hagrees.nextModule
  obtain ⟨shown, hshown⟩ : ∃ shown, shown =
      if script.exportsChanged runtime next then placeholders else 0 := ⟨_, rfl⟩
  cases isEditorHint with
  | false =>
    have hpublished : Scene.publishModule runtime false placeholders ⟨script, memory⟩ =
        ⟨script.publishModule runtime false (some next), Scene.updateExports shown
          ((Scene.compareExports memory).move .module .nextModule)⟩ := by
      simp [Scene.publishModule, hagrees.nextModule, hshown]
    have hmoved : Sound ((Scene.compareExports memory).move .module .nextModule)
        (liveOf script) :=
      hcompared.move nofun (isHeld_of_same hagrees fun address ↦ by simp)
    rw [hpublished]
    refine ⟨⟨hmoved.updateExports shown, hagrees.frame rfl (fun address ↦ ?_)
      (fun address ↦ ?_) ?_ ?_ ?_ ?_ ?_⟩, ?_⟩
    all_goals simp [GzScript.publishModule, hagrees.nextModule, hagrees.pendingModule,
      hagrees.finished, hagrees.previousModule]
  | true =>
    obtain ⟨hinstances, hmodule, hpending⟩ :=
      publishModule_editor runtime script next
    have hlive : liveOf (script.publishModule runtime true (some next)) =
        liveOf script := by
      rw [liveOf, hinstances, liveOf]
    have hcopied : Sound ((Scene.compareExports memory).copy .pendingModule .nextModule)
        (liveOf script) :=
      hcompared.copy (isHeld_of_same hagrees fun address ↦ by simp)
    have hmoved : Sound (((Scene.compareExports memory).copy .pendingModule
        .nextModule).move .module .nextModule) (liveOf script) :=
      hcopied.move nofun (isHeld_of_same hagrees fun address ↦ by simp)
    have hexported : Sound (Scene.updateExports shown (((Scene.compareExports memory).copy
        .pendingModule .nextModule).move .module .nextModule)) (liveOf script) :=
      hmoved.updateExports shown
    have hreset : Sound ((Scene.updateExports shown (((Scene.compareExports memory).copy
        .pendingModule .nextModule).move .module .nextModule)).reset .pendingModule)
        (liveOf script) :=
      hexported.reset (isHeld_of_same hagrees fun address ↦ by simp)
    simp only [Scene.publishModule, hagrees.nextModule, Bool.not_true, Bool.false_eq_true,
      if_false, ← hshown]
    -- The pointer to the pending module stays only if a refresh is pending.
    split_ifs with hrefresh
    all_goals
      simp only [hrefresh, if_true, Bool.false_eq_true, if_false] at hpending
      refine ⟨⟨by rwa [hlive], hagrees.frame hinstances (fun address ↦ ?_) (fun address ↦ ?_)
        ?_ ?_ ?_ ?_ ?_⟩, ?_⟩
      all_goals simp [hmodule, hpending, hagrees.nextModule, hagrees.finished,
        hagrees.previousModule]

variable (runtime) in
theorem complete_kept {scene : Scene Module} (isEditorHint : Bool) (placeholders : ℕ)
    (next : Module) (h : Kept scene) (hreferenced : scene.memory.references.IsHeld ()) :
    Kept (scene.complete runtime isEditorHint placeholders next) ∧
      (scene.complete runtime isEditorHint placeholders next).memory.references =
        scene.memory.references := by
  unfold Scene.complete
  split_ifs with hknown
  · exact ⟨h, rfl⟩
  · have hloaded := h.sound.load h.agrees.finished hknown
    have htouched : Sound ((scene.memory.load next).notes [.touched]) (liveOf scene.script) :=
      hloaded.quiet (by simpa [Quiet] using hreferenced)
    have hmoved : Sound (((scene.memory.load next).notes [.touched]).move .nextModule .finished)
        (liveOf scene.script) :=
      htouched.move nofun (isHeld_of_same h.agrees fun address ↦ by simp)
    have hpublished := publishModule_kept runtime isEditorHint placeholders next hmoved
      { module := by simp [h.agrees.module]
        pendingModule := by simp [h.agrees.pendingModule]
        finished := by simp
        nextModule := by simp
        previousModule := by simp [h.agrees.previousModule]
        instances := fun address ↦ by simpa using h.agrees.instances address
        references := fun address ↦ by simpa using h.agrees.references address
        distinct := h.agrees.distinct }
    simpa using hpublished

theorem compilePath_kept {scene : Scene Module} (next : Module) (h : Kept scene) :
    Kept (scene.compilePath next) ∧ (scene.compilePath next).script = scene.script ∧
      (scene.compilePath next).memory.references = scene.memory.references := by
  unfold Scene.compilePath
  split_ifs with hknown
  · exact ⟨h, rfl, rfl⟩
  · have hloaded := h.sound.load h.agrees.finished hknown
    have hreset : Sound ((scene.memory.load next).reset .finished) (liveOf scene.script) :=
      hloaded.reset (isHeld_of_same h.agrees fun address ↦ by simp)
    refine ⟨⟨hreset, h.agrees.frame rfl (fun address ↦ ?_) (fun address ↦ ?_) ?_ ?_ ?_ ?_ ?_⟩, rfl,
      ?_⟩
    all_goals simp [h.agrees.module, h.agrees.pendingModule, h.agrees.nextModule,
      h.agrees.previousModule]

/-! ### Migration -/

omit [DecidableEq Module] in
/-- The instances are the one at an address, and those at other addresses. -/
theorem instances_perm {script : GzScript Module} {address : InstanceId}
    {data : InstanceData Module} (hdistinct : AddressesDistinct script)
    (hfind : script.find address = some data) :
    script.instances.Perm (data :: (script.instanceFree address).instances) := by
  have haddress : data.address = address := find_address hfind
  have hmem := find_mem hfind
  unfold AddressesDistinct at hdistinct
  rw [GzScript.instanceFree]
  generalize script.instances = instances at hdistinct hmem
  induction instances with
  | nil => cases hmem
  | cons head tail ih =>
    rw [List.map_cons, List.nodup_cons] at hdistinct
    rcases List.mem_cons.mp hmem with rfl | htail
    · have hothers : tail.filter (fun other ↦ other.address ≠ address) = tail := by
        refine List.filter_eq_self.mpr fun other hother ↦ ?_
        rw [decide_eq_true_eq]
        rintro heq
        exact hdistinct.1 (haddress ▸ heq ▸ List.mem_map_of_mem hother)
      rw [List.filter_cons_of_neg (by simpa using haddress), hothers]
    · have hne : head.address ≠ address := fun heq ↦
        hdistinct.1 (heq ▸ haddress ▸ List.mem_map_of_mem htail)
      rw [List.filter_cons_of_pos (by simpa using hne)]
      exact ((ih hdistinct.2 htail).cons head).trans (List.Perm.swap ..)

omit [DecidableEq Module] in
theorem liveOf_perm {script : GzScript Module} {address : InstanceId} {data : InstanceData Module}
    (hdistinct : AddressesDistinct script) (hfind : script.find address = some data) :
    (liveOf script).Perm
      ((data.module, data.zigInstance) :: liveOf (script.instanceFree address)) := by
  have hperm := instances_perm hdistinct hfind
  exact hperm.map fun data ↦ (data.module, data.zigInstance)

omit [DecidableEq Module] in
/-- An instance that is written takes the place of the one at its address. -/
theorem liveOf_setInstance {script : GzScript Module} {data migrated : InstanceData Module}
    (hdistinct : AddressesDistinct script) (hfind : script.find data.address = some data)
    (haddress : migrated.address = data.address) :
    (liveOf (script.setInstance migrated)).Perm ((migrated.module, migrated.zigInstance) ::
      liveOf (script.instanceFree data.address)) := by
  have hperm := (instances_perm hdistinct hfind).map fun other : InstanceData Module ↦
    if other.address = migrated.address then migrated else other
  have hothers : (script.instanceFree data.address).instances.map (fun other ↦
      if other.address = migrated.address then migrated else other) =
        (script.instanceFree data.address).instances := by
    refine (List.map_congr_left fun other hother ↦ ?_).trans (List.map_id _)
    have hne : other.address ≠ data.address := by
      simpa using (List.mem_filter.mp hother).2
    rw [if_neg (haddress ▸ hne), id]
  rw [List.map_cons, if_pos haddress.symm, hothers] at hperm
  exact hperm.map fun data ↦ (data.module, data.zigInstance)

omit [DecidableEq Module] in
theorem find_setInstance_self {script : GzScript Module} {data migrated : InstanceData Module}
    (hdistinct : AddressesDistinct script) (hfind : script.find data.address = some data)
    (haddress : migrated.address = data.address) :
    (script.setInstance migrated).find data.address = some migrated := by
  have hmem : migrated ∈ (script.setInstance migrated).instances := by
    refine List.mem_map.mpr ⟨data, find_mem hfind, if_pos haddress.symm⟩
  rw [← haddress]
  exact find_of_mem (addressesDistinct_setInstance migrated hdistinct) hmem

omit [DecidableEq Module] in
/-- The other instances are at other addresses. -/
theorem held_others {held : Slot → Option Module} {referenced : Holder → Option Unit}
    {script : GzScript Module} {next : Option Module} (h : Agrees held referenced script next)
    (address : InstanceId) :
    ∀ entry ∈ liveOf (script.instanceFree address), ∃ other, other ≠ address ∧
      held (.ofInstance other) = some entry.1 := by
  intro entry hentry
  obtain ⟨data, hdata, rfl⟩ := List.mem_map.mp hentry
  obtain ⟨hmem, hne⟩ := List.mem_filter.mp hdata
  exact ⟨data.address, by simpa using hne, h.held (find_of_mem h.distinct hmem)⟩

omit [DecidableEq Module] in
theorem migrated_eq {call : RefreshCall Module F32 F64} {data migrated : InstanceData Module}
    {next : Module} {nextInstance : ZigInstance}
    (hcreate : call.createInstance next data.owner = some nextInstance)
    (hmigrated : GzScript.migrateEditorInstance runtime call data next = some migrated) :
    migrated.address = data.address ∧ migrated.module = next ∧
      migrated.zigInstance = nextInstance := by
  simp only [GzScript.migrateEditorInstance, hcreate] at hmigrated
  split_ifs at hmigrated
  cases hmigrated
  exact ⟨rfl, rfl, rfl⟩

omit [DecidableEq Module] in
/-- The slot of an instance that is replaced holds the next module. -/
theorem Agrees.setInstance {held written : Slot → Option Module}
    {referenced : Holder → Option Unit} {script : GzScript Module}
    {data migrated : InstanceData Module} {next : Module} (h : Agrees held referenced script none)
    (hfind : script.find data.address = some data) (haddress : migrated.address = data.address)
    (hnext : migrated.module = next)
    (hwritten : written = Function.update (Function.update (Function.update held .previousModule
      (held (.ofInstance data.address))) (.ofInstance data.address) (some next))
        .previousModule none)
    (migrations : List (Migration Module)) :
    Agrees written referenced { script.setInstance migrated with migrations } none := by
  have hself := find_setInstance_self h.distinct hfind haddress
  have hother : ∀ address, address ≠ data.address →
      (script.setInstance migrated).find address = script.find address := fun address hne ↦
    find_setInstance fun heq ↦ hne (heq.symm.trans haddress)
  rw [hwritten]
  refine ⟨?_, ?_, ?_, ?_, ?_, fun address ↦ ?_, fun address ↦ ?_,
    addressesDistinct_setInstance migrated h.distinct⟩
  · simpa [GzScript.setInstance] using h.module
  · simpa [GzScript.setInstance] using h.pendingModule
  · simpa using h.finished
  · simpa using h.nextModule
  · simp
  · show _ = ((script.setInstance migrated).find address).map (·.module)
    by_cases heq : address = data.address
    · rw [heq, hself]
      simp [hnext]
    · rw [hother address heq]
      simpa [heq] using h.instances address
  · show _ = ((script.setInstance migrated).find address).map fun _ ↦ ()
    by_cases heq : address = data.address
    · rw [heq, hself, h.referenced hfind, Option.map_some]
    · rw [hother address heq]
      exact h.references address

variable (runtime) in
/-- `migrate_editor_instance` keeps the pointers those of the script. -/
theorem migrateEditorInstance_kept (call : RefreshCall Module F32 F64) (putBack : ℕ → Bool)
    {script : GzScript Module} {data : InstanceData Module} {next : Module}
    (h : Kept ⟨script, memory⟩) (hfind : script.find data.address = some data)
    (hpending : script.pendingModule = some next) :
    Kept ⟨script.refreshInstance runtime call data next,
      Scene.migrateEditorInstance runtime call putBack memory data next⟩ ∧
    (Scene.migrateEditorInstance runtime call putBack memory data next).references =
      memory.references := by
  have hagrees := h.agrees
  have hslot := hagrees.held hfind
  have hnext : memory.pointers.held .pendingModule = some next :=
    hagrees.pendingModule.trans hpending
  have hentered := h.sound.enterDescriptors hslot hnext
  have hinstance : (data.module, data.zigInstance) ∈ liveOf script :=
    List.mem_map_of_mem (find_mem hfind)
  cases hcreate : call.createInstance next data.owner with
  | none =>
    have hfailed : GzScript.migrateEditorInstance runtime call data next = none := by
      simp [GzScript.migrateEditorInstance, hcreate]
    simp only [Scene.migrateEditorInstance, GzScript.refreshInstance, hcreate, hfailed]
    refine ⟨⟨hentered, ?_⟩, references_enterDescriptors ..⟩
    simpa using hagrees
  | some nextInstance =>
    have hcopied : Sound ((Scene.enterDescriptors memory data.address).notes
        (.created next nextInstance :: Scene.copyEvents runtime call data next nextInstance
          (runtime.descriptor data.module).properties 0))
        ((next, nextInstance) :: liveOf script) := by
      have hcreated : Sound ((Scene.enterDescriptors memory data.address).notes
          [.created next nextInstance]) ((next, nextInstance) :: liveOf script) :=
        hentered.created nextInstance ⟨.pendingModule, by rw [pointers_enterDescriptors, hnext]⟩
      rw [notes_cons]
      refine hcreated.quiets (copyEvents_quiet call ?_ ?_ ?_ ?_ _ 0)
      · exact hcreated.held (data.module, data.zigInstance) (List.mem_cons_of_mem _ hinstance)
      · exact hcreated.held (next, nextInstance) List.mem_cons_self
      · exact List.mem_cons_of_mem _ hinstance
      · exact List.mem_cons_self
    cases hmigrated : GzScript.migrateEditorInstance runtime call data next with
    | none =>
      simp only [Scene.migrateEditorInstance, GzScript.refreshInstance, hcreate, hmigrated]
      exact ⟨⟨hcopied.destroyed, by simpa using hagrees⟩, by simp⟩
    | some migrated =>
      obtain ⟨haddress, hmodule, hzig⟩ := migrated_eq hcreate hmigrated
      have hreplaced : Sound (Scene.replaceInstance runtime putBack
          ((Scene.enterDescriptors memory data.address).notes
            (.created next nextInstance :: Scene.copyEvents runtime call data next nextInstance
              (runtime.descriptor data.module).properties 0)) data next nextInstance)
          ((next, nextInstance) :: liveOf (script.instanceFree data.address)) := by
        refine (hcopied.perm ((liveOf_perm hagrees.distinct hfind).cons _)).replaceInstance putBack
          ?_ ?_ ?_
        · simpa using hslot
        · simpa using hnext
        · simpa using held_others hagrees data.address
      have hlive := liveOf_setInstance hagrees.distinct hfind haddress
      rw [hmodule, hzig] at hlive
      simp only [Scene.migrateEditorInstance, GzScript.refreshInstance, hcreate, hmigrated]
      refine ⟨⟨hreplaced.perm hlive.symm, ?_⟩, by rw [references_replaceInstance]; simp⟩
      rw [references_replaceInstance, references_notes, references_enterDescriptors]
      refine hagrees.setInstance hfind haddress hmodule ?_ _
      rw [held_replaceInstance, pointers_notes, pointers_enterDescriptors, hnext]

/-! ### The deferred call -/

variable (runtime) in
omit [DecidableEq Module] in
theorem pendingModule_refreshInstance (call : RefreshCall Module F32 F64)
    (script : GzScript Module) (data : InstanceData Module) (next : Module) :
    (script.refreshInstance runtime call data next).pendingModule = script.pendingModule := by
  unfold GzScript.refreshInstance
  split <;> rfl

variable (runtime) in
/-- The script after the loop is that of `Script.Instances`, and its pointers are kept. -/
theorem refreshLoop_kept (call : RefreshCall Module F32 F64) (putBack : ℕ → Bool)
    {next : Module} (remaining : List InstanceId) (processed : ℕ) {scene : Scene Module}
    (h : Kept scene) (hpending : scene.script.pendingModule = some next) :
    Kept (scene.refreshLoop runtime call putBack next remaining processed) ∧
    (scene.refreshLoop runtime call putBack next remaining processed).script =
      scene.script.refreshLoop runtime call next remaining processed ∧
    (scene.refreshLoop runtime call putBack next remaining processed).memory.references =
      scene.memory.references := by
  induction remaining generalizing scene processed with
  | nil => exact ⟨h, rfl, rfl⟩
  | cons address remaining ih =>
    let counted : GzScript Module :=
      { scene.script with refreshIndex := scene.script.refreshIndex + 1 }
    have hcounted : Kept ⟨counted, scene.memory⟩ :=
      ⟨h.sound, h.agrees.keep rfl rfl rfl fun _ ↦ rfl⟩
    rw [Scene.refreshLoop, GzScript.refreshLoop]
    cases hfind : counted.find address with
    | none => exact ih processed hcounted hpending
    | some data =>
      obtain rfl := find_address hfind
      obtain ⟨hkept, hreferences⟩ :=
        migrateEditorInstance_kept runtime call putBack hcounted hfind hpending
      dsimp only
      split_ifs with hcurrent hstop
      · exact ih processed hcounted hpending
      · exact ⟨hkept, rfl, hreferences⟩
      · have hnext := pendingModule_refreshInstance runtime call counted data next
        obtain ⟨hrest, hscript, hcount⟩ := ih (processed + 1) hkept (hnext.trans hpending)
        exact ⟨hrest, hscript, hcount.trans hreferences⟩

/-- The script after a deferred call, whose loop has come to the script `refreshed`. -/
def callEnd (refreshed : GzScript Module) : GzScript Module :=
  if refreshed.refreshIndex < refreshed.pendingRefreshInstances.length then
    refreshed.schedulePendingRefresh
  else
    { refreshed with
      pendingRefresh := false
      pendingExportsChanged := false
      pendingModule := none
      pendingRefreshInstances := []
      refreshIndex := 0 }

variable (runtime) in
theorem applyPendingRefresh_some (call : RefreshCall Module F32 F64) {script : GzScript Module}
    {next : Module} (hrefresh : script.pendingRefresh = true)
    (hpending : script.pendingModule = some next) :
    script.applyPendingRefresh runtime call = callEnd (GzScript.refreshLoop runtime call next
      (script.pendingRefreshInstances.drop script.refreshIndex) 0
      { script with refreshCallScheduled := false }) := by
  simp only [GzScript.applyPendingRefresh]
  split
  next other hother hsome =>
    obtain rfl := Option.some.inj (hsome.symm.trans hpending)
    rfl
  next hnone => exact (hnone next hrefresh hpending).elim

variable (runtime) in
theorem applyPendingRefresh_none (call : RefreshCall Module F32 F64) {script : GzScript Module}
    (hnone : ∀ next, script.pendingRefresh = true → script.pendingModule ≠ some next) :
    script.applyPendingRefresh runtime call = { script with refreshCallScheduled := false } := by
  dsimp only [GzScript.applyPendingRefresh]
  split
  next next hrefresh hpending => exact (hnone next hrefresh hpending).elim
  next => rfl

/-- The pointers after the loop are those of the script after the call. -/
theorem callEnd_kept {refreshed : GzScript Module} (h : Kept ⟨refreshed, memory⟩) :
    Kept ⟨callEnd refreshed,
      if refreshed.refreshIndex < refreshed.pendingRefreshInstances.length then memory
      else memory.reset .pendingModule⟩ := by
  unfold callEnd
  split_ifs with hmore
  · obtain ⟨scheduled, calls, heq⟩ := schedulePendingRefresh_eq refreshed
    rw [heq]
    exact ⟨h.sound, h.agrees.keep rfl rfl rfl fun _ ↦ rfl⟩
  · refine ⟨h.sound.reset (isHeld_of_same h.agrees fun address ↦ by simp), ?_⟩
    refine h.agrees.frame rfl (fun _ ↦ rfl) (fun address ↦ ?_) ?_ ?_ ?_ ?_ ?_
    · simp
    · simpa using h.agrees.module
    · simp
    · simpa using h.agrees.finished
    · simpa using h.agrees.nextModule
    · simpa using h.agrees.previousModule

variable (runtime) in
theorem applyPendingRefresh_kept (call : RefreshCall Module F32 F64) (putBack : ℕ → Bool)
    {scene : Scene Module} (h : Kept scene)
    (hreferenced : scene.memory.references.IsHeld ()) :
    Kept (scene.applyPendingRefresh runtime call putBack) ∧
      (scene.applyPendingRefresh runtime call putBack).memory.references =
        scene.memory.references := by
  have htouched : Kept ⟨{ scene.script with refreshCallScheduled := false },
      scene.memory.notes [.touched]⟩ :=
    ⟨h.sound.quiet hreferenced, h.agrees.keep rfl rfl rfl fun _ ↦ rfl⟩
  have hheld : (scene.memory.notes [.touched]).pointers.held .pendingModule =
      scene.script.pendingModule := h.agrees.pendingModule
  simp only [Scene.applyPendingRefresh]
  split
  next next hrefresh hslot =>
    have hpending : scene.script.pendingModule = some next := hheld.symm.trans hslot
    obtain ⟨hkept, hscript, hreferences⟩ := refreshLoop_kept runtime call putBack
      (scene.script.pendingRefreshInstances.drop scene.script.refreshIndex) 0 htouched hpending
    have hend := callEnd_kept hkept
    rw [applyPendingRefresh_some runtime call hrefresh hpending, ← hscript]
    split_ifs with hmore
    · rw [if_pos hmore] at hend
      exact ⟨hend, hreferences⟩
    · rw [if_neg hmore] at hend
      exact ⟨hend, hreferences⟩
  next hnone =>
    rw [applyPendingRefresh_none runtime call fun next hrefresh hpending ↦
      hnone next hrefresh (hheld.trans hpending)]
    exact ⟨htouched, rfl⟩

end Gzscript.Script.ModulePointers
