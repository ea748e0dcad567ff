import Gzscript.Script.ModulePointers

/-!
# What an operation keeps

An instance is created, used and freed, and the script goes with the last `Ref` to it. Like those of
`ModulePointers` these operations keep the pointers, and so does every operation that calls no
function of an instance (`step_kept`). It also keeps the instances in which functions run, if it
does not free them (`find_sceneStep`).
-/

set_option autoImplicit false
set_option relaxedAutoImplicit false

namespace Gzscript.Script.SceneSteps

open Abi.Descriptor Instances ModuleOwners ModuleLog ModulePointers Refresh SilentMigration
open Library.SharedPointers Library.Transition

variable {Module Object F32 F64 : Type} [DecidableEq Module]
variable {runtime : Runtime Module Object F32 F64} {memory : Memory Module}

/-! ### The end of an instance, and of the script -/

/-- A script that nobody has a `Ref` to has let go of its modules. -/
def ReleasedWhenGone (scene : Scene Module) : Prop :=
  ¬ scene.memory.references.IsHeld () →
    scene.script.module = none ∧ scene.script.pendingModule = none

omit [DecidableEq Module] in
theorem ReleasedWhenGone.frame {before after : Scene Module} (h : ReleasedWhenGone before)
    (hreferences : after.memory.references = before.memory.references)
    (hmodule : after.script.module = before.script.module)
    (hpending : after.script.pendingModule = before.script.pendingModule) :
    ReleasedWhenGone after := by
  intro hgone
  rw [hreferences] at hgone
  rw [hmodule, hpending]
  exact h hgone

theorem unreference_kept {script : GzScript Module} {holder : Holder}
    (hsound : Sound memory (liveOf script))
    (hagrees : Agrees memory.pointers.held
      (Function.update memory.references.held holder none) script none)
    (hreleased : ReleasedWhenGone ⟨script, memory⟩) :
    Kept (Scene.unreference ⟨script, memory⟩ holder) ∧
      ReleasedWhenGone (Scene.unreference ⟨script, memory⟩ holder) := by
  have hdropped : Sound (memory.refer holder none) (liveOf script) :=
    hsound.refer fun hsome ↦ (hsome rfl).elim
  have hdestroyed := hsound.referencesExact.assign_destroyed holder none ()
  rw [← referencesHeld_refer] at hagrees
  cases hgone : (memory.references.assign holder none).2 with
  | none =>
    simp only [Scene.unreference, hgone]
    refine ⟨⟨hdropped, hagrees⟩, fun hunheld ↦ hreleased fun hheld ↦ ?_⟩
    rw [hgone] at hdestroyed
    exact Option.some_ne_none () (hdestroyed.mpr ⟨hheld, hunheld⟩).symm
  | some gone =>
    simp only [Scene.unreference, hgone]
    have hpending : Sound ((memory.refer holder none).reset .pendingModule) (liveOf script) :=
      hdropped.reset (isHeld_of_same hagrees fun address ↦ by simp)
    have hmodule : Sound (((memory.refer holder none).reset .pendingModule).reset .module)
        (liveOf script) :=
      hpending.reset (isHeld_of_same hagrees fun address ↦ by simp)
    refine ⟨⟨hmodule, hagrees.frame rfl (fun address ↦ ?_) (fun address ↦ ?_) ?_ ?_ ?_ ?_ ?_⟩,
      fun _ ↦ ⟨rfl, rfl⟩⟩
    · simp
    · simp
    · simp
    · simp
    · simpa using hagrees.finished
    · simpa using hagrees.nextModule
    · simpa using hagrees.previousModule

/-- An instance that the script has no more lets go of its module, and then of the script. -/
theorem deleteInstance_kept {script : GzScript Module} {address : InstanceId}
    (hsound : Sound memory (liveOf script))
    (hagrees : Agrees (Function.update memory.pointers.held (.ofInstance address) none)
      (Function.update memory.references.held (.ofInstance address) none) script none)
    (hreleased : ReleasedWhenGone ⟨script, memory⟩) :
    Kept (Scene.deleteInstance ⟨script, memory⟩ address) ∧
      ReleasedWhenGone (Scene.deleteInstance ⟨script, memory⟩ address) := by
  rw [← held_reset] at hagrees
  have hreset : Sound (memory.reset (.ofInstance address)) (liveOf script) :=
    hsound.reset (isHeld_of_same hagrees fun _ ↦ rfl)
  exact unreference_kept hreset hagrees hreleased

omit [DecidableEq Module] in
theorem find_instanceFree_self (script : GzScript Module) (address : InstanceId) :
    (script.instanceFree address).find address = none := by
  refine List.find?_eq_none.mpr fun data hdata ↦ ?_
  simpa using (List.mem_filter.mp hdata).2

omit [DecidableEq Module] in
theorem find_instanceFree_of_ne (script : GzScript Module) {address other : InstanceId}
    (hne : other ≠ address) :
    (script.instanceFree address).find other = script.find other := by
  rw [GzScript.find, GzScript.find, GzScript.instanceFree, List.find?_filter]
  congr 1
  funext data
  by_cases heq : data.address = other
  · simp [heq, hne]
  · simp [heq]

theorem instanceFree_kept {scene : Scene Module} (address : InstanceId) (h : Kept scene)
    (hreleased : ReleasedWhenGone scene) :
    Kept (scene.instanceFree address) ∧ ReleasedWhenGone (scene.instanceFree address) := by
  cases hfind : scene.script.find address with
  | none =>
    simp only [Scene.instanceFree, hfind]
    exact ⟨h, hreleased⟩
  | some data =>
    simp only [Scene.instanceFree, hfind]
    have htouched : Sound (scene.memory.notes [.touched]) (liveOf scene.script) :=
      h.sound.quiet ⟨.ofInstance address, h.agrees.referenced hfind⟩
    have hdestroyed : Sound ((scene.memory.notes [.touched]).through (.ofInstance address)
        (.destroyed · data.zigInstance)) (liveOf (scene.script.instanceFree address)) := by
      rw [Memory.through, pointers_notes, h.agrees.held hfind]
      exact (htouched.perm (liveOf_perm h.agrees.distinct hfind)).destroyed
    refine deleteInstance_kept hdestroyed ?_ (hreleased.frame ?_ rfl rfl)
    · rw [pointers_through, pointers_notes, references_through, references_notes]
      refine ⟨?_, ?_, ?_, ?_, ?_, fun other ↦ ?_, fun other ↦ ?_, ?_⟩
      · simpa [GzScript.instanceFree] using h.agrees.module
      · simpa [GzScript.instanceFree] using h.agrees.pendingModule
      · simpa using h.agrees.finished
      · simpa using h.agrees.nextModule
      · simpa using h.agrees.previousModule
      · by_cases heq : other = address
        · rw [heq, find_instanceFree_self, Function.update_self]
          rfl
        · rw [find_instanceFree_of_ne _ heq, ← h.agrees.instances other]
          simp [heq]
      · by_cases heq : other = address
        · rw [heq, find_instanceFree_self, Function.update_self]
          rfl
        · rw [find_instanceFree_of_ne _ heq, ← h.agrees.references other]
          simp [heq]
      · have hsublist : (scene.script.instanceFree address).instances.Sublist
            scene.script.instances := List.filter_sublist
        exact (hsublist.map _).nodup h.agrees.distinct
    · rw [references_through, references_notes]

/-! ### Instances -/

omit [DecidableEq Module] in
theorem instanceCreate_eq {script : GzScript Module} {module : Module} {owner : UInt64}
    {zigInstance : ZigInstance} {address : InstanceId} (hmodule : script.module = some module)
    (hfind : script.find address = none) :
    script.instanceCreate (some owner) (some zigInstance) address =
      { script with
        instances := ⟨address, owner, module, zigInstance⟩ :: script.instances } := by
  simp [GzScript.instanceCreate, hmodule, hfind]

omit [DecidableEq Module] in
/-- A new instance holds the module of the script, and a `Ref` to it. -/
theorem agrees_instanceCreate {held : Slot → Option Module} {referenced : Holder → Option Unit}
    {script : GzScript Module} (h : Agrees held referenced script none) (module : Module)
    (owner : UInt64) (zigInstance : ZigInstance) {address : InstanceId}
    (hfind : script.find address = none) :
    Agrees (Function.update held (.ofInstance address) (some module))
      (Function.update referenced (.ofInstance address) (some ()))
      { script with
        instances := ⟨address, owner, module, zigInstance⟩ :: script.instances } none := by
  have hself : GzScript.find { script with
      instances := ⟨address, owner, module, zigInstance⟩ :: script.instances } address =
        some ⟨address, owner, module, zigInstance⟩ :=
    List.find?_cons_of_pos (by simp)
  have hother : ∀ other, other ≠ address → GzScript.find { script with
      instances := ⟨address, owner, module, zigInstance⟩ :: script.instances } other =
        script.find other := fun other hne ↦
    List.find?_cons_of_neg (by simpa using fun heq : address = other ↦ hne heq.symm)
  refine ⟨?_, ?_, ?_, ?_, ?_, fun other ↦ ?_, fun other ↦ ?_, ?_⟩
  · simpa using h.module
  · simpa using h.pendingModule
  · simpa using h.finished
  · simpa using h.nextModule
  · simpa using h.previousModule
  · by_cases heq : other = address
    · rw [heq, hself, Function.update_self]
      rfl
    · rw [hother other heq, ← h.instances other]
      simp [heq]
  · by_cases heq : other = address
    · rw [heq, hself, Function.update_self]
      rfl
    · rw [hother other heq, ← h.references other]
      simp [heq]
  · refine List.nodup_cons.mpr ⟨fun hmem ↦ ?_, h.distinct⟩
    obtain ⟨data, hdata, hsame⟩ := List.mem_map.mp hmem
    have hfound := find_of_mem h.distinct hdata
    rw [hsame, hfind] at hfound
    cases hfound

theorem held_pinInstance {module : Module} (address : InstanceId)
    (hslot : memory.pointers.held .module = some module) :
    (Scene.pinInstance memory address).pointers.held =
      Function.update memory.pointers.held (.ofInstance address) (some module) := by
  rw [Scene.pinInstance, pointers_through, held_copy, pointers_refer, hslot]

theorem referencesHeld_pinInstance (memory : Memory Module) (address : InstanceId) :
    (Scene.pinInstance memory address).references.held =
      Function.update memory.references.held (.ofInstance address) (some ()) := by
  rw [Scene.pinInstance, references_through, references_copy, referencesHeld_refer]

theorem sound_pinInstance {script : GzScript Module} {module : Module} {address : InstanceId}
    (h : Sound memory (liveOf script))
    (hagrees : Agrees memory.pointers.held memory.references.held script none)
    (hslot : memory.pointers.held .module = some module)
    (hfind : script.find address = none) (hreferenced : memory.references.IsHeld ()) :
    Sound (Scene.pinInstance memory address) (liveOf script) := by
  have hreferred : Sound (memory.refer (.ofInstance address) (some ())) (liveOf script) :=
    h.refer fun _ ↦ hreferenced
  have hnew := agrees_instanceCreate hagrees module 0 0 hfind
  have hcopied : Sound ((memory.refer (.ofInstance address) (some ())).copy (.ofInstance address)
      .module) (liveOf script) := by
    refine hreferred.copy fun entry hentry ↦ ?_
    refine isHeld_of_instances (fun other ↦ ?_) hnew.distinct entry (List.mem_cons_of_mem _ hentry)
    rw [← hnew.instances other, held_copy, pointers_refer, hslot]
  have hafter : ((memory.refer (.ofInstance address) (some ())).copy (.ofInstance address)
      .module).pointers.held .module = some module := by
    simp [hslot]
  exact hcopied.entered hafter

/-- The module has made no instance, and the new `InstanceData` is deleted. -/
theorem deleteInstance_pinned {script : GzScript Module} {module : Module} {address : InstanceId}
    (hagrees : Agrees memory.pointers.held memory.references.held script none)
    (hslot : memory.pointers.held .module = some module) (hfind : script.find address = none)
    (hpinned : Sound (Scene.pinInstance memory address) (liveOf script))
    (hreleased : ReleasedWhenGone ⟨script, Scene.pinInstance memory address⟩) :
    Kept (Scene.deleteInstance ⟨script, Scene.pinInstance memory address⟩ address) ∧
      ReleasedWhenGone
        (Scene.deleteInstance ⟨script, Scene.pinInstance memory address⟩ address) := by
  refine deleteInstance_kept hpinned ?_ hreleased
  have hnone : memory.pointers.held (.ofInstance address) = none := by
    rw [hagrees.instances, hfind]
    rfl
  have hunreferenced : memory.references.held (.ofInstance address) = none := by
    rw [hagrees.references, hfind]
    rfl
  have hheld : Function.update (Scene.pinInstance memory address).pointers.held
      (.ofInstance address) none = memory.pointers.held := by
    rw [held_pinInstance address hslot, Function.update_idem, Function.update_eq_self_iff, hnone]
  have hreferences : Function.update (Scene.pinInstance memory address).references.held
      (.ofInstance address) none = memory.references.held := by
    rw [referencesHeld_pinInstance, Function.update_idem, Function.update_eq_self_iff,
      hunreferenced]
  rw [hheld, hreferences]
  exact hagrees

variable (runtime) in
/-- The module has made an instance, and its objects are read. -/
theorem created_kept (putBack : ℕ → Bool) {script : GzScript Module} {module : Module}
    {address : InstanceId} (owner : UInt64) (zigInstance : ZigInstance)
    (hagrees : Agrees memory.pointers.held memory.references.held script none)
    (hslot : memory.pointers.held .module = some module) (hfind : script.find address = none)
    (hpinned : Sound (Scene.pinInstance memory address) (liveOf script)) :
    Kept ⟨{ script with instances := ⟨address, owner, module, zigInstance⟩ :: script.instances },
      Scene.syncRetainedObjects runtime putBack ((Scene.pinInstance memory address).through .module
        (.created · zigInstance)) module zigInstance⟩ := by
  have hmodule : (Scene.pinInstance memory address).pointers.held .module = some module := by
    rw [held_pinInstance address hslot]
    simpa using hslot
  have hcreated : Sound ((Scene.pinInstance memory address).through .module
      (.created · zigInstance)) ((module, zigInstance) :: liveOf script) := by
    rw [Memory.through, hmodule]
    exact hpinned.created zigInstance ⟨.module, hmodule⟩
  refine ⟨hcreated.sync runtime putBack List.mem_cons_self, ?_⟩
  rw [Scene.syncRetainedObjects, pointers_notes, references_notes, pointers_through,
    references_through, held_pinInstance address hslot, referencesHeld_pinInstance]
  exact agrees_instanceCreate hagrees module owner zigInstance hfind

variable (runtime) in
theorem instanceCreate_kept {scene : Scene Module} (putBack : ℕ → Bool) (owner : Option UInt64)
    (created : Option ZigInstance) (address : InstanceId) (h : Kept scene)
    (hreferenced : scene.memory.references.IsHeld ()) (hreleased : ReleasedWhenGone scene) :
    Kept (scene.instanceCreate runtime putBack owner created address) ∧
      ReleasedWhenGone (scene.instanceCreate runtime putBack owner created address) := by
  have htouched : Sound (scene.memory.notes [.touched]) (liveOf scene.script) :=
    h.sound.quiet hreferenced
  cases hmodule : scene.script.module with
  | none =>
    have hslot : (scene.memory.notes [.touched]).pointers.held .module = none :=
      h.agrees.module.trans hmodule
    simp only [Scene.instanceCreate, hslot]
    exact ⟨⟨htouched, h.agrees⟩, hreleased⟩
  | some module =>
    have hslot : (scene.memory.notes [.touched]).pointers.held .module = some module :=
      h.agrees.module.trans hmodule
    cases owner with
    | none =>
      simp only [Scene.instanceCreate, hslot]
      exact ⟨⟨htouched, h.agrees⟩, hreleased⟩
    | some owner =>
      cases hfind : scene.script.find address with
      | some data =>
        simp only [Scene.instanceCreate, hslot, hfind, Option.isSome_some, if_true]
        exact ⟨h, hreleased⟩
      | none =>
        have hpinned := sound_pinInstance htouched h.agrees hslot hfind hreferenced
        have hnew : (Scene.pinInstance (scene.memory.notes [.touched])
            address).references.IsHeld () :=
          ⟨.ofInstance address, by rw [referencesHeld_pinInstance, Function.update_self]⟩
        simp only [Scene.instanceCreate, hslot, hfind, Option.isSome_none, Bool.false_eq_true,
          if_false]
        cases created with
        | none =>
          exact deleteInstance_pinned h.agrees hslot hfind hpinned fun hgone ↦ (hgone hnew).elim
        | some zigInstance =>
          rw [instanceCreate_eq hmodule hfind]
          refine ⟨created_kept runtime putBack owner zigInstance h.agrees hslot hfind hpinned,
            fun hgone ↦ (hgone ?_).elim⟩
          simpa [Scene.syncRetainedObjects] using hnew

/-- A live instance is used. -/
theorem useInstance_kept {scene : Scene Module} {data : InstanceData Module} (h : Kept scene)
    (hfind : scene.script.find data.address = some data) :
    Kept ⟨scene.script, Scene.useInstance scene.memory data⟩ ∧
      (Scene.useInstance scene.memory data).references = scene.memory.references := by
  have hslot := h.agrees.held hfind
  have hlive : (data.module, data.zigInstance) ∈ liveOf scene.script :=
    List.mem_map_of_mem (find_mem hfind)
  have hused : Sound (Scene.useInstance scene.memory data) (liveOf scene.script) :=
    (h.sound.entered hslot).through (by rw [pointers_through, hslot]) hlive
  refine ⟨⟨hused, ?_⟩, ?_⟩
  · simpa [Scene.useInstance] using h.agrees
  · simp [Scene.useInstance]

theorem access_kept {scene : Scene Module} (address : InstanceId) (kind : Scene.Access)
    (h : Kept scene) :
    Kept (scene.access address kind) ∧ (scene.access address kind).script = scene.script ∧
      (scene.access address kind).memory.references = scene.memory.references := by
  cases hfind : scene.script.find address with
  | none =>
    simp only [Scene.access, hfind]
    exact ⟨h, trivial, trivial⟩
  | some data =>
    obtain rfl := find_address hfind
    have hentered := h.sound.entered (h.agrees.held hfind)
    have hdescribed : Kept ⟨scene.script,
        scene.memory.through (.ofInstance data.address) .entered⟩ :=
      ⟨hentered, by simpa using h.agrees⟩
    simp only [Scene.access, hfind]
    cases kind with
    | describe => exact ⟨hdescribed, rfl, by simp⟩
    | property reaches =>
      cases reaches with
      | false => exact ⟨hdescribed, rfl, by simp⟩
      | true =>
        obtain ⟨hkept, hsame⟩ := useInstance_kept h hfind
        exact ⟨hkept, rfl, hsame⟩

theorem describe_kept {scene : Scene Module} (h : Kept scene)
    (hreferenced : scene.memory.references.IsHeld ()) :
    Kept scene.describe ∧ scene.describe.script = scene.script ∧
      scene.describe.memory.references = scene.memory.references := by
  have htouched : Sound (scene.memory.notes [.touched]) (liveOf scene.script) :=
    h.sound.quiet hreferenced
  cases hslot : (scene.memory.notes [.touched]).pointers.held .module with
  | none =>
    simp only [Scene.describe, hslot]
    exact ⟨⟨htouched, h.agrees⟩, trivial, rfl⟩
  | some module =>
    have hentered := htouched.entered hslot
    simp only [Scene.describe, hslot]
    exact ⟨⟨hentered, by simpa using h.agrees⟩, trivial, by simp⟩

theorem reference_kept {scene : Scene Module} (user : ℕ) (h : Kept scene)
    (hreferenced : scene.memory.references.IsHeld ()) :
    Kept ⟨scene.script, scene.memory.refer (.user user) (some ())⟩ ∧
      ReleasedWhenGone ⟨scene.script, scene.memory.refer (.user user) (some ())⟩ := by
  have hheld : (scene.memory.refer (.user user) (some ())).references.IsHeld () :=
    ⟨.user user, by rw [referencesHeld_refer, Function.update_self]⟩
  refine ⟨⟨h.sound.refer fun _ ↦ hreferenced, ?_⟩, fun hgone ↦ (hgone hheld).elim⟩
  refine h.agrees.keep rfl rfl rfl fun address ↦ ?_
  simp

omit [DecidableEq Module] in
theorem find_rehash {script : GzScript Module} {order : List (InstanceData Module)}
    (hperm : order.Perm script.instances) (hdistinct : AddressesDistinct script)
    (address : InstanceId) :
    GzScript.find { script with instances := order } address = script.find address := by
  have hordered : AddressesDistinct { script with instances := order } :=
    (hperm.map _).nodup_iff.mpr hdistinct
  ext data
  constructor
  · intro hfound
    obtain rfl := find_address hfound
    exact find_of_mem hdistinct (hperm.mem_iff.mp (find_mem hfound))
  · intro hfound
    obtain rfl := find_address hfound
    exact find_of_mem hordered (hperm.mem_iff.mpr (find_mem hfound))

/-- The instances in another order. -/
theorem rehash_kept {scene : Scene Module} {order : List (InstanceData Module)}
    (hperm : order.Perm scene.script.instances) (h : Kept scene) :
    Kept { scene with script := { scene.script with instances := order } } := by
  have hdistinct : AddressesDistinct { scene.script with instances := order } :=
    (hperm.map _).nodup_iff.mpr h.agrees.distinct
  have hfind := find_rehash hperm h.agrees.distinct
  refine ⟨h.sound.perm (hperm.symm.map _), h.agrees.module, h.agrees.pendingModule,
    h.agrees.finished, h.agrees.nextModule, h.agrees.previousModule, fun address ↦ ?_,
    fun address ↦ ?_, hdistinct⟩
  · rw [hfind]
    exact h.agrees.instances address
  · rw [hfind]
    exact h.agrees.references address

/-! ### Runs -/

omit [DecidableEq Module] in
theorem releasedWhenGone_of_referenced {scene : Scene Module}
    (hreferenced : scene.memory.references.IsHeld ()) {after : Scene Module}
    (hsame : after.memory.references = scene.memory.references) : ReleasedWhenGone after := by
  intro hgone
  rw [hsame] at hgone
  exact (hgone hreferenced).elim

theorem referenced_iff {scene : Scene Module} (h : Kept scene) :
    scene.referenced = true ↔ scene.memory.references.IsHeld () := by
  rw [Scene.referenced, decide_eq_true_eq, ← Nat.pos_iff_ne_zero,
    h.sound.referencesExact.useCount_pos]

/-- A call through a `Ref`: without one, nothing happens. -/
theorem throughRef_kept {scene after : Scene Module} (h : Kept scene ∧ ReleasedWhenGone scene)
    (hafter : scene.memory.references.IsHeld () → Kept after ∧ ReleasedWhenGone after) :
    Kept (if scene.referenced then after else scene) ∧
      ReleasedWhenGone (if scene.referenced then after else scene) := by
  split_ifs with hreferenced
  · exact hafter ((referenced_iff h.1).mp hreferenced)
  · exact h

variable (runtime) in
/-- Every operation keeps the pointers those of the script. -/
theorem step_kept (isEditorHint : Bool) (scene : Scene Module) (op : SceneOp Module F32 F64)
    (h : Kept scene ∧ ReleasedWhenGone scene) :
    Kept (sceneStep runtime isEditorHint scene op) ∧
      ReleasedWhenGone (sceneStep runtime isEditorHint scene op) := by
  obtain ⟨hkept, hreleased⟩ := h
  cases op with
  | complete next placeholders =>
    refine throughRef_kept ⟨hkept, hreleased⟩ fun hreferenced ↦ ?_
    obtain ⟨hafter, hsame⟩ :=
      complete_kept runtime isEditorHint placeholders next hkept hreferenced
    exact ⟨hafter, releasedWhenGone_of_referenced hreferenced hsame⟩
  | compilePath next =>
    obtain ⟨hafter, hscript, hsame⟩ := compilePath_kept next hkept
    exact ⟨hafter, hreleased.frame hsame (congrArg _ hscript) (congrArg _ hscript)⟩
  | applyPendingRefresh call putBack =>
    refine throughRef_kept ⟨hkept, hreleased⟩ fun hreferenced ↦ ?_
    obtain ⟨hafter, hsame⟩ := applyPendingRefresh_kept runtime call putBack hkept hreferenced
    exact ⟨hafter, releasedWhenGone_of_referenced hreferenced hsame⟩
  | instanceCreate owner created address putBack =>
    refine throughRef_kept ⟨hkept, hreleased⟩ fun hreferenced ↦ ?_
    exact instanceCreate_kept runtime putBack owner created address hkept hreferenced hreleased
  | instanceFree address => exact instanceFree_kept address hkept hreleased
  | access address kind =>
    obtain ⟨hafter, hscript, hsame⟩ := access_kept address kind hkept
    exact ⟨hafter, hreleased.frame hsame (congrArg _ hscript) (congrArg _ hscript)⟩
  | describe =>
    refine throughRef_kept ⟨hkept, hreleased⟩ fun hreferenced ↦ ?_
    obtain ⟨hafter, -, hsame⟩ := describe_kept hkept hreferenced
    exact ⟨hafter, releasedWhenGone_of_referenced hreferenced hsame⟩
  | reference user =>
    refine throughRef_kept ⟨hkept, hreleased⟩ fun hreferenced ↦ ?_
    exact reference_kept user hkept hreferenced
  | unreference user =>
    refine unreference_kept hkept.sound ?_ hreleased
    refine hkept.agrees.keep rfl rfl rfl fun address ↦ ?_
    simp
  | rehash order =>
    simp only [sceneStep]
    split_ifs with hperm
    · exact ⟨rehash_kept hperm hkept, hreleased⟩
    · exact ⟨hkept, hreleased⟩

theorem kept_initial : Kept (initialScene Module) ∧ ReleasedWhenGone (initialScene Module) := by
  have hheld : (initialScene Module).memory.references.IsHeld () :=
    ⟨.user 0, by simp [initialScene]⟩
  refine ⟨⟨⟨Pointers.exact_empty, Pointers.exact_empty.assign _ _, fun entry ↦ nofun,
    unwatched Module, rfl, ?_⟩, ?_⟩, fun hgone ↦ (hgone hheld).elim⟩
  · refine ⟨fun module ↦ iff_of_false nofun ?_, List.nodup_nil, .refl _, iff_of_true rfl hheld,
      fun module ↦ ?_⟩
    · rintro ⟨slot, hslot⟩
      cases hslot
    · simp [unwatched, initialScene]
  · refine ⟨rfl, rfl, rfl, rfl, rfl, fun _ ↦ rfl, fun address ↦ ?_, List.nodup_nil⟩
    simp [initialScene, Pointers.empty, GzScript.find, initial]

/-! ### The instances after an operation -/

theorem instances_unreference (scene : Scene Module) (holder : Holder) :
    (scene.unreference holder).script.instances = scene.script.instances := by
  unfold Scene.unreference
  split <;> rfl

variable (runtime) in
theorem instances_complete (isEditorHint : Bool) (placeholders : ℕ) (scene : Scene Module)
    (next : Module) :
    (scene.complete runtime isEditorHint placeholders next).script.instances =
      scene.script.instances := by
  unfold Scene.complete
  split_ifs
  · rfl
  · unfold Scene.publishModule
    split
    next => rfl
    next published hpublished =>
      cases isEditorHint with
      | false => rfl
      | true => exact (publishModule_editor runtime scene.script published).1

variable (runtime) in
/-- A new instance is at an address that was free. -/
theorem find_instanceCreate {scene : Scene Module} {data : InstanceData Module}
    (putBack : ℕ → Bool) (owner : Option UInt64) (created : Option ZigInstance)
    (address : InstanceId) (hfind : scene.script.find data.address = some data) :
    (scene.instanceCreate runtime putBack owner created address).script.find data.address =
      some data := by
  dsimp only [Scene.instanceCreate]
  split
  next =>
    split_ifs with htaken
    · exact hfind
    · have hne : address ≠ data.address := by
        rintro rfl
        exact htaken (by rw [hfind, Option.isSome_some])
      cases created with
      | none => exact (find_congr (instances_unreference _ _) _).trans hfind
      | some zigInstance =>
        simp only [GzScript.instanceCreate, if_neg htaken]
        split
        next => exact (List.find?_cons_of_neg (by simpa using hne)).trans hfind
        next => exact hfind
  next => exact hfind

variable (runtime) in
/-- An operation that neither frees an instance nor migrates one leaves it as it is. -/
theorem find_sceneStep (isEditorHint : Bool) {scene : Scene Module} {op : SceneOp Module F32 F64}
    {data : InstanceData Module} (h : Kept scene)
    (hfind : scene.script.find data.address = some data)
    (hfree : ∀ address, op = .instanceFree address → data.address ≠ address)
    (hrefresh : ∀ call putBack, op ≠ .applyPendingRefresh call putBack) :
    (sceneStep runtime isEditorHint scene op).script.find data.address = some data := by
  cases op with
  | complete next placeholders =>
    simp only [sceneStep]
    split_ifs
    · exact (find_congr (instances_complete ..) _).trans hfind
    · exact hfind
  | compilePath next =>
    rw [sceneStep, (compilePath_kept next h).2.1]
    exact hfind
  | applyPendingRefresh call putBack => exact absurd rfl (hrefresh call putBack)
  | instanceCreate owner created address putBack =>
    simp only [sceneStep]
    split_ifs
    · exact find_instanceCreate runtime putBack owner created address hfind
    · exact hfind
  | instanceFree address =>
    have hne := hfree address rfl
    simp only [sceneStep, Scene.instanceFree]
    split
    next => exact hfind
    next freed hfreed =>
      refine (find_congr (instances_unreference _ _) _).trans ?_
      exact (find_instanceFree_of_ne scene.script hne).trans hfind
  | access address kind =>
    rw [sceneStep, (access_kept address kind h).2.1]
    exact hfind
  | describe =>
    simp only [sceneStep]
    split_ifs
    · dsimp only [Scene.describe]
      split <;> exact hfind
    · exact hfind
  | reference user =>
    simp only [sceneStep]
    split_ifs <;> exact hfind
  | unreference user => exact (find_congr (instances_unreference _ _) _).trans hfind
  | rehash order =>
    simp only [sceneStep]
    split_ifs with hperm
    · exact (find_rehash hperm h.agrees.distinct data.address).trans hfind
    · exact hfind

end Gzscript.Script.SceneSteps
