import Gzscript.Script.ModuleOwners

/-!
# The log of the modules

A memory is `Sound` for a list of instances inside the modules if `watch` accepts its log, and has
then seen what the pointers hold: the libraries that are open are those of the modules that a slot
holds, and the instances that are live are those of the list. Every operation on the memory keeps it
so. An event that reads or uses something needs a pointer to it (`Sound.quiet`); writing a slot
closes a library when the pointer was the last one, and needs that no instance is left in it
(`Sound.write`).
-/

set_option autoImplicit false
set_option relaxedAutoImplicit false

namespace Gzscript.Script.ModuleLog

open Abi.Descriptor ModuleOwners Instances Library.SharedPointers

variable {Module : Type} [DecidableEq Module]

/-! ### What the log shows -/

theorem watchAll_append (watched : Watched Module) (first second : List (Event Module)) :
    watchAll watched (first ++ second) = (watchAll watched first).bind (watchAll · second) := by
  rw [watchAll, List.foldlM_append]
  rfl

theorem watchAll_singleton (watched : Watched Module) (event : Event Module) :
    watchAll watched [event] = watch watched event := by
  rw [watchAll, List.foldlM_cons]
  exact bind_pure _

/-- What is watched is what the pointers hold, and a list of instances inside the modules. -/
structure Mirrors (memory : Memory Module) (live : List (Module × ZigInstance))
    (watched : Watched Module) : Prop where
  loaded : ∀ module, module ∈ watched.loaded ↔ memory.pointers.IsHeld module
  nodup : watched.loaded.Nodup
  live : watched.live.Perm live
  script : watched.script = true ↔ memory.references.IsHeld ()
  known : ∀ module, module ∈ watched.loaded ∨ module ∈ watched.closed ↔
    .loaded module ∈ memory.log

/-- No event so far is an error, and the module of every instance is held. -/
structure Sound (memory : Memory Module) (live : List (Module × ZigInstance)) : Prop where
  exact : memory.pointers.Exact
  referencesExact : memory.references.Exact
  held : ∀ entry ∈ live, memory.pointers.IsHeld entry.1
  accepted : ∃ watched, watchAll (unwatched Module) memory.log = some watched ∧
    Mirrors memory live watched

variable {memory : Memory Module} {live : List (Module × ZigInstance)}

/-- An event that may come and changes nothing. -/
def Quiet (memory : Memory Module) (live : List (Module × ZigInstance)) : Event Module → Prop
  | .entered module => memory.pointers.IsHeld module
  | .used module zigInstance => (module, zigInstance) ∈ live
  | .touched => memory.references.IsHeld ()
  | _ => False

theorem Sound.perm {other : List (Module × ZigInstance)} (h : Sound memory live)
    (hperm : live.Perm other) : Sound memory other where
  exact := h.exact
  referencesExact := h.referencesExact
  held entry hentry := h.held entry (hperm.mem_iff.mpr hentry)
  accepted := by
    obtain ⟨watched, haccepted, hmirrors⟩ := h.accepted
    exact ⟨watched, haccepted, { hmirrors with live := hmirrors.live.trans hperm }⟩

/-- One event after the log. -/
theorem Sound.note {event : Event Module} {after : List (Module × ZigInstance)}
    (h : Sound memory live) (hafter : ∀ entry ∈ after, memory.pointers.IsHeld entry.1)
    (hwatch : ∀ watched, Mirrors memory live watched → ∃ next, watch watched event = some next ∧
      Mirrors (memory.notes [event]) after next) :
    Sound (memory.notes [event]) after where
  exact := h.exact
  referencesExact := h.referencesExact
  held := hafter
  accepted := by
    obtain ⟨watched, haccepted, hmirrors⟩ := h.accepted
    obtain ⟨next, hnext, hmirrored⟩ := hwatch watched hmirrors
    refine ⟨next, ?_, hmirrored⟩
    rw [Memory.notes, watchAll_append, haccepted, Option.bind_some, watchAll_singleton, hnext]

omit [DecidableEq Module] in
theorem Mirrors.notes {watched : Watched Module} (h : Mirrors memory live watched)
    (event : Event Module) (hevent : ∀ module, event ≠ .loaded module) :
    Mirrors (memory.notes [event]) live watched where
  loaded := h.loaded
  nodup := h.nodup
  live := h.live
  script := h.script
  known module := by
    rw [h.known, Memory.notes, List.mem_append, List.mem_singleton]
    exact ⟨.inl, fun hmem ↦ hmem.resolve_right fun heq ↦ hevent module heq.symm⟩

theorem Sound.quiet {event : Event Module} (h : Sound memory live)
    (hquiet : Quiet memory live event) : Sound (memory.notes [event]) live := by
  refine h.note h.held fun watched hmirrors ↦
    ⟨watched, ?_, hmirrors.notes event fun module heq ↦ ?_⟩
  · cases event with
    | entered module =>
      exact if_pos ((hmirrors.loaded module).mpr hquiet)
    | used module zigInstance =>
      have hloaded := (hmirrors.loaded module).mpr (h.held (module, zigInstance) hquiet)
      exact if_pos ⟨hloaded, hmirrors.live.mem_iff.mpr hquiet⟩
    | touched => exact if_pos (hmirrors.script.mpr hquiet)
    | _ => exact hquiet.elim
  · rw [heq] at hquiet
    exact hquiet

omit [DecidableEq Module] in
theorem notes_cons (memory : Memory Module) (event : Event Module) (events : List (Event Module)) :
    memory.notes (event :: events) = (memory.notes [event]).notes events := by
  simp [Memory.notes]

theorem Sound.quiets {events : List (Event Module)} (h : Sound memory live)
    (hquiet : ∀ event ∈ events, Quiet memory live event) : Sound (memory.notes events) live := by
  induction events generalizing memory with
  | nil => simpa [Memory.notes] using h
  | cons event events ih =>
    rw [notes_cons]
    refine ih (h.quiet (hquiet event List.mem_cons_self)) fun other hother ↦ ?_
    exact hquiet other (List.mem_cons_of_mem event hother)

/-- What happens through a slot that holds a module. -/
theorem Sound.through {slot : Slot} {module : Module} {event : Module → Event Module}
    (h : Sound memory live) (hslot : memory.pointers.held slot = some module)
    (hquiet : Quiet memory live (event module)) : Sound (memory.through slot event) live := by
  rw [Memory.through, hslot]
  exact h.quiet hquiet

/-- The descriptor is read through a slot that holds a module. -/
theorem Sound.entered {slot : Slot} {module : Module} (h : Sound memory live)
    (hslot : memory.pointers.held slot = some module) :
    Sound (memory.through slot .entered) live := by
  have hheld : memory.pointers.IsHeld module := ⟨slot, hslot⟩
  exact h.through hslot hheld

theorem Sound.created {module : Module} (zigInstance : ZigInstance) (h : Sound memory live)
    (hheld : memory.pointers.IsHeld module) :
    Sound (memory.notes [.created module zigInstance]) ((module, zigInstance) :: live) := by
  refine h.note (fun entry hentry ↦ ?_) fun watched hmirrors ↦ ?_
  · rcases List.mem_cons.mp hentry with rfl | hentry
    · exact hheld
    · exact h.held entry hentry
  · refine ⟨_, if_pos ((hmirrors.loaded module).mpr hheld), ?_⟩
    have hnoted := hmirrors.notes (.created module zigInstance) fun _ ↦ nofun
    exact { hnoted with live := hmirrors.live.cons _ }

theorem Sound.destroyed {module : Module} {zigInstance : ZigInstance}
    (h : Sound memory ((module, zigInstance) :: live)) :
    Sound (memory.notes [.destroyed module zigInstance]) live := by
  refine h.note (fun entry hentry ↦ h.held entry (List.mem_cons_of_mem _ hentry))
    fun watched hmirrors ↦ ?_
  have hloaded := (hmirrors.loaded module).mpr (h.held _ List.mem_cons_self)
  refine ⟨_, if_pos ⟨hloaded, hmirrors.live.mem_iff.mpr List.mem_cons_self⟩, ?_⟩
  have hnoted := hmirrors.notes (.destroyed module zigInstance) fun _ ↦ nofun
  have herased := hmirrors.live.erase (module, zigInstance)
  rw [List.erase_cons_head] at herased
  exact { hnoted with live := herased }

/-! ### Writing a pointer -/

/-- A library may be closed when no instance is left in its module. -/
theorem Mirrors.watch_closed {watched : Watched Module} {module : Module}
    (h : Mirrors memory live watched) (hheld : memory.pointers.IsHeld module)
    (hlive : ∀ entry ∈ live, entry.1 ≠ module) :
    watch watched (.closed module) = some { watched with
      loaded := watched.loaded.erase module
      closed := module :: watched.closed } := by
  have hunused : module ∉ watched.live.map Prod.fst := by
    intro hmem
    obtain ⟨entry, hentry, heq⟩ := List.mem_map.mp hmem
    exact hlive entry (h.live.mem_iff.mp hentry) heq
  exact if_pos ⟨(h.loaded module).mpr hheld, hunused⟩

omit [DecidableEq Module] in
/-- A write that unloads nothing. -/
theorem Mirrors.write_none {watched : Watched Module}
    {written : Pointers Slot Module × Option Module} (h : Mirrors memory live watched)
    (hgone : written.2 = none)
    (hheld : ∀ module, written.1.IsHeld module ↔ memory.pointers.IsHeld module) :
    Mirrors (memory.write written) live watched where
  loaded module := (h.loaded module).trans (hheld module).symm
  nodup := h.nodup
  live := h.live
  script := h.script
  known := by simpa [Memory.write, hgone] using h.known

/-- A write that unloads a module. -/
theorem Mirrors.write_some {watched : Watched Module} {module : Module}
    {written : Pointers Slot Module × Option Module} (h : Mirrors memory live watched)
    (hgone : written.2 = some module) (hbefore : memory.pointers.IsHeld module)
    (hheld : ∀ other, written.1.IsHeld other ↔ other ≠ module ∧ memory.pointers.IsHeld other) :
    Mirrors (memory.write written) live { watched with
      loaded := watched.loaded.erase module
      closed := module :: watched.closed } where
  loaded other := by
    rw [h.nodup.mem_erase_iff, h.loaded]
    exact (hheld other).symm
  nodup := h.nodup.erase module
  live := h.live
  script := h.script
  known other := by
    have hloaded := (h.loaded module).mpr hbefore
    have hknown := h.known other
    rw [Memory.write, hgone]
    simp only [h.nodup.mem_erase_iff, List.mem_cons, Option.toList_some, List.map_cons,
      List.map_nil, List.mem_append, reduceCtorEq, List.not_mem_nil, or_false, ← hknown]
    by_cases heq : other = module
    · simp [heq, hloaded]
    · simp [heq]

/-- A slot is written, and the module that nothing holds any more is unloaded. -/
theorem Sound.write {written : Pointers Slot Module × Option Module} (h : Sound memory live)
    (hexact : written.1.Exact)
    (hdestroyed : ∀ module, written.2 = some module ↔
      memory.pointers.IsHeld module ∧ ¬ written.1.IsHeld module)
    (hnone : ∀ module, written.1.IsHeld module → memory.pointers.IsHeld module)
    (hlive : ∀ entry ∈ live, written.1.IsHeld entry.1) : Sound (memory.write written) live where
  exact := hexact
  referencesExact := h.referencesExact
  held := hlive
  accepted := by
    obtain ⟨watched, haccepted, hmirrors⟩ := h.accepted
    cases hgone : written.2 with
    | none =>
      refine ⟨watched, by simp [Memory.write, hgone, haccepted],
        hmirrors.write_none hgone fun module ↦ ⟨hnone module, fun hheld ↦ ?_⟩⟩
      by_contra hnot
      have hsome := (hdestroyed module).mpr ⟨hheld, hnot⟩
      rw [hgone] at hsome
      cases hsome
    | some module =>
      obtain ⟨hbefore, hafter⟩ := (hdestroyed module).mp hgone
      have hunused : ∀ entry ∈ live, entry.1 ≠ module := by
        rintro entry hentry rfl
        exact hafter (hlive entry hentry)
      refine ⟨_, ?_, hmirrors.write_some hgone hbefore fun other ↦ ⟨fun hheld ↦ ⟨?_, ?_⟩, ?_⟩⟩
      · rw [Memory.write, hgone]
        show watchAll _ (memory.log ++ [.closed module]) = _
        rw [watchAll_append, haccepted, Option.bind_some, watchAll_singleton]
        exact hmirrors.watch_closed hbefore hunused
      · rintro rfl
        exact hafter hheld
      · exact hnone other hheld
      · rintro ⟨hne, hheld⟩
        by_contra hnot
        have hother := (hdestroyed other).mpr ⟨hheld, hnot⟩
        rw [hgone] at hother
        exact hne (Option.some.inj hother).symm

theorem Sound.assign {slot : Slot} {value : Option Module} (h : Sound memory live)
    (hvalue : ∀ module, value = some module → memory.pointers.IsHeld module)
    (hlive : ∀ entry ∈ live, (memory.assign slot value).pointers.IsHeld entry.1) :
    Sound (memory.assign slot value) live := by
  refine h.write (h.exact.assign slot value) (h.exact.assign_destroyed slot value)
    (fun module hheld ↦ ?_) hlive
  rcases Pointers.isHeld_of_assign hheld with hwritten | hbefore
  · exact hvalue module hwritten
  · exact hbefore

theorem Sound.move {target source : Slot} (hne : target ≠ source) (h : Sound memory live)
    (hlive : ∀ entry ∈ live, (memory.move target source).pointers.IsHeld entry.1) :
    Sound (memory.move target source) live := by
  apply h.write (h.exact.move hne) (h.exact.move_destroyed hne) _ hlive
  exact fun module hheld ↦ Pointers.isHeld_of_move hheld

theorem Sound.copy {target source : Slot} (h : Sound memory live)
    (hlive : ∀ entry ∈ live, (memory.copy target source).pointers.IsHeld entry.1) :
    Sound (memory.copy target source) live :=
  h.assign (fun _ hheld ↦ ⟨source, hheld⟩) hlive

theorem Sound.reset {slot : Slot} (h : Sound memory live)
    (hlive : ∀ entry ∈ live, (memory.reset slot).pointers.IsHeld entry.1) :
    Sound (memory.reset slot) live :=
  h.assign (fun _ ↦ nofun) hlive

/-- A module that was not loaded before is loaded. -/
theorem Sound.load {module : Module} (h : Sound memory live)
    (hfinished : memory.pointers.held .finished = none) (hfresh : .loaded module ∉ memory.log) :
    Sound (memory.load module) live := by
  have hheld : ∀ other, (memory.pointers.assign .finished (some module)).1.IsHeld other ↔
      other = module ∨ memory.pointers.IsHeld other := by
    intro other
    constructor
    · intro hheld
      rcases Pointers.isHeld_of_assign hheld with hwritten | hbefore
      · exact .inl (Option.some.inj hwritten).symm
      · exact .inr hbefore
    · rintro (rfl | ⟨slot, hslot⟩)
      · refine ⟨.finished, ?_⟩
        rw [Pointers.held_assign, Function.update_self]
      · refine ⟨slot, ?_⟩
        rw [Pointers.held_assign, Function.update_of_ne]
        · exact hslot
        · rintro rfl
          rw [hfinished] at hslot
          cases hslot
  have hnothing : (memory.pointers.assign .finished (some module)).2 = none := by
    rw [Pointers.assign, hfinished]
    rfl
  have hloaded : Sound ((memory.notes [.loaded module]).assign .finished (some module)) live := by
    refine ⟨h.exact.assign _ _, h.referencesExact, fun entry hentry ↦ ?_, ?_⟩
    · exact (hheld entry.1).mpr (.inr (h.held entry hentry))
    · obtain ⟨watched, haccepted, hmirrors⟩ := h.accepted
      have hnew : ¬ (module ∈ watched.loaded ∨ module ∈ watched.closed) := by
        rw [hmirrors.known]
        exact hfresh
      have hlog : ((memory.notes [.loaded module]).assign .finished (some module)).log =
          memory.log ++ [.loaded module] := by
        show (memory.log ++ [.loaded module]) ++
          (memory.pointers.assign .finished (some module)).2.toList.map .closed = _
        rw [hnothing, Option.toList_none, List.map_nil, List.append_nil]
      refine ⟨{ watched with loaded := module :: watched.loaded }, ?_, ?_⟩
      · rw [hlog, watchAll_append, haccepted, Option.bind_some, watchAll_singleton, watch,
          if_neg hnew]
      · refine ⟨fun other ↦ ?_, ?_, hmirrors.live, hmirrors.script, fun other ↦ ?_⟩
        · rw [List.mem_cons, hmirrors.loaded]
          exact (hheld other).symm
        · exact List.nodup_cons.mpr ⟨fun hmem ↦ hnew (.inl hmem), hmirrors.nodup⟩
        · rw [hlog, List.mem_append, List.mem_singleton, ← hmirrors.known, List.mem_cons,
            Event.loaded.injEq]
          tauto
  have hentered : ((memory.notes [.loaded module]).assign .finished (some module)).pointers.held
      .finished = some module := by
    show (memory.pointers.assign .finished (some module)).1.held .finished = some module
    rw [Pointers.held_assign, Function.update_self]
  exact hloaded.entered hentered

/-- A `Ref` is taken from another one, or goes. -/
theorem Sound.refer {holder : Holder} {value : Option Unit} (h : Sound memory live)
    (hvalue : value ≠ none → memory.references.IsHeld ()) :
    Sound (memory.refer holder value) live := by
  refine ⟨h.exact, h.referencesExact.assign holder value, h.held, ?_⟩
  obtain ⟨watched, haccepted, hmirrors⟩ := h.accepted
  have hdestroyed := h.referencesExact.assign_destroyed holder value ()
  cases hgone : (memory.references.assign holder value).2 with
  | none =>
    have hlog : (memory.refer holder value).log = memory.log := by
      simp [Memory.refer, hgone]
    refine ⟨watched, by rw [hlog, haccepted], ?_⟩
    refine { hmirrors with script := ?_, known := by rw [hlog]; exact hmirrors.known }
    rw [hmirrors.script]
    constructor
    · intro hheld
      by_contra hnot
      rw [hgone, iff_true_right ⟨hheld, hnot⟩] at hdestroyed
      cases hdestroyed
    · intro hheld
      rcases Pointers.isHeld_of_assign hheld with hwritten | hbefore
      · apply hvalue
        rw [hwritten]
        exact Option.some_ne_none ()
      · exact hbefore
  | some gone =>
    obtain ⟨hbefore, hafter⟩ := hdestroyed.mp hgone
    have hlog : (memory.refer holder value).log = memory.log ++ [.freed] := by
      simp [Memory.refer, hgone]
    refine ⟨{ watched with script := false }, ?_, ?_⟩
    · rw [hlog, watchAll_append, haccepted, Option.bind_some, watchAll_singleton, watch,
        if_pos (hmirrors.script.mpr hbefore)]
    · refine { hmirrors with script := ?_, known := fun module ↦ ?_ }
      · exact iff_of_false Bool.false_ne_true hafter
      · rw [hlog, hmirrors.known, List.mem_append, List.mem_singleton]
        exact ⟨.inl, fun hmem ↦ hmem.resolve_right nofun⟩

/-! ### What the operations write -/

section Writes

variable (memory) (slot target source : Slot) (value : Option Module)

omit [DecidableEq Module] in
@[simp] theorem pointers_notes (events : List (Event Module)) :
    (memory.notes events).pointers = memory.pointers := rfl

omit [DecidableEq Module] in
@[simp] theorem references_notes (events : List (Event Module)) :
    (memory.notes events).references = memory.references := rfl

omit [DecidableEq Module] in
@[simp] theorem pointers_through (event : Module → Event Module) :
    (memory.through slot event).pointers = memory.pointers := by
  unfold Memory.through
  split <;> rfl

omit [DecidableEq Module] in
@[simp] theorem references_through (event : Module → Event Module) :
    (memory.through slot event).references = memory.references := by
  unfold Memory.through
  split <;> rfl

@[simp] theorem held_assign : (memory.assign slot value).pointers.held =
    Function.update memory.pointers.held slot value := Pointers.held_assign ..

@[simp] theorem held_copy : (memory.copy target source).pointers.held =
    Function.update memory.pointers.held target (memory.pointers.held source) :=
  Pointers.held_assign ..

@[simp] theorem held_reset : (memory.reset slot).pointers.held =
    Function.update memory.pointers.held slot none := Pointers.held_assign ..

@[simp] theorem held_move : (memory.move target source).pointers.held =
    Function.update (Function.update memory.pointers.held source none) target
      (memory.pointers.held source) := Pointers.held_move ..

@[simp] theorem references_copy :
    (memory.copy target source).references = memory.references := rfl

@[simp] theorem references_reset : (memory.reset slot).references = memory.references := rfl

@[simp] theorem references_move :
    (memory.move target source).references = memory.references := rfl

@[simp] theorem held_load (module : Module) : (memory.load module).pointers.held =
    Function.update memory.pointers.held .finished (some module) := by
  rw [Memory.load, pointers_through, held_assign, pointers_notes]

@[simp] theorem references_load (module : Module) :
    (memory.load module).references = memory.references := by
  rw [Memory.load, references_through]
  rfl

omit [DecidableEq Module] in
@[simp] theorem pointers_refer (holder : Holder) (kept : Option Unit) :
    (memory.refer holder kept).pointers = memory.pointers := rfl

omit [DecidableEq Module] in
@[simp] theorem referencesHeld_refer (holder : Holder) (kept : Option Unit) :
    (memory.refer holder kept).references.held =
      Function.update memory.references.held holder kept := Pointers.held_assign ..

end Writes

/-! ### What publishing and migrating do in the modules -/

variable {Object F32 F64 : Type} {runtime : Runtime Module Object F32 F64}

omit [DecidableEq Module] in
@[simp] theorem pointers_compareExports (memory : Memory Module) :
    (Scene.compareExports memory).pointers = memory.pointers := by
  unfold Scene.compareExports
  split
  · rfl
  · rw [pointers_through, pointers_through]

omit [DecidableEq Module] in
@[simp] theorem references_compareExports (memory : Memory Module) :
    (Scene.compareExports memory).references = memory.references := by
  unfold Scene.compareExports
  split
  · rfl
  · rw [references_through, references_through]

omit [DecidableEq Module] in
@[simp] theorem pointers_updateExports (placeholders : ℕ) (memory : Memory Module) :
    (Scene.updateExports placeholders memory).pointers = memory.pointers := by
  unfold Scene.updateExports
  split <;> rfl

omit [DecidableEq Module] in
@[simp] theorem references_updateExports (placeholders : ℕ) (memory : Memory Module) :
    (Scene.updateExports placeholders memory).references = memory.references := by
  unfold Scene.updateExports
  split <;> rfl

/-- The placeholders are told of a module that the script holds. -/
theorem Sound.updateExports (placeholders : ℕ) (h : Sound memory live) :
    Sound (Scene.updateExports placeholders memory) live := by
  unfold Scene.updateExports
  split
  next => exact h
  next module hmodule =>
    refine h.quiets fun event hevent ↦ ?_
    rw [List.eq_of_mem_replicate hevent]
    exact ⟨.module, hmodule⟩

theorem Sound.compareExports {next : Module} (h : Sound memory live)
    (hnext : memory.pointers.held .nextModule = some next) :
    Sound (Scene.compareExports memory) live := by
  unfold Scene.compareExports
  split
  next => exact h
  next current hcurrent =>
    have hslot : (memory.through .module .entered).pointers.held .nextModule = some next := by
      rw [pointers_through, hnext]
    exact (h.entered hcurrent).entered hslot

omit [DecidableEq Module] in
theorem copyEvents_quiet (call : RefreshCall Module F32 F64) {data : InstanceData Module}
    {next : Module} {nextInstance : ZigInstance} (hcurrent : memory.pointers.IsHeld data.module)
    (hnext : memory.pointers.IsHeld next) (hinstance : (data.module, data.zigInstance) ∈ live)
    (hcreated : (next, nextInstance) ∈ live) (properties : List (PropertyDescriptor F32 F64))
    (index : ℕ) :
    ∀ event ∈ Scene.copyEvents runtime call data next nextInstance properties index,
      Quiet memory live event := by
  induction properties generalizing index with
  | nil => exact fun _ ↦ nofun
  | cons property properties ih =>
    have hrest := ih (index + 1)
    rw [Scene.copyEvents, List.forall_mem_cons, List.forall_mem_cons]
    refine ⟨hcurrent, hnext, ?_⟩
    split
    next => exact hrest
    next nextIndex hfound =>
      split_ifs with htype
      · rw [List.forall_mem_cons]
        refine ⟨hinstance, ?_⟩
        split
        next => exact fun _ ↦ nofun
        next value hvalue =>
          rw [List.forall_mem_cons]
          refine ⟨hcreated, ?_⟩
          split_ifs
          · exact hrest
          · exact fun _ ↦ nofun
      · exact hrest

omit [DecidableEq Module] in
theorem syncEvents_quiet {putBack : ℕ → Bool} {module : Module} {zigInstance : ZigInstance}
    (hmodule : memory.pointers.IsHeld module) (hinstance : (module, zigInstance) ∈ live)
    (properties : List (PropertyDescriptor F32 F64)) (index : ℕ) :
    ∀ event ∈ Scene.syncEvents putBack module zigInstance properties index,
      Quiet memory live event := by
  induction properties generalizing index with
  | nil => exact fun _ ↦ nofun
  | cons property properties ih =>
    have hrest := ih (index + 1)
    rw [Scene.syncEvents, List.forall_mem_cons]
    refine ⟨hmodule, ?_⟩
    split_ifs
    · rw [List.forall_mem_cons, List.forall_mem_cons]
      exact ⟨hinstance, hinstance, hrest⟩
    · rw [List.forall_mem_cons]
      exact ⟨hinstance, hrest⟩
    · exact hrest

variable (runtime) in
theorem Sound.sync (putBack : ℕ → Bool) {module : Module} {zigInstance : ZigInstance}
    (h : Sound memory live) (hinstance : (module, zigInstance) ∈ live) :
    Sound (Scene.syncRetainedObjects runtime putBack memory module zigInstance) live :=
  h.quiets (syncEvents_quiet (h.held _ hinstance) hinstance _ 0)

omit [DecidableEq Module] in
@[simp] theorem pointers_enterDescriptors (memory : Memory Module) (address : InstanceId) :
    (Scene.enterDescriptors memory address).pointers = memory.pointers := by
  rw [Scene.enterDescriptors, pointers_through, pointers_through]

omit [DecidableEq Module] in
@[simp] theorem references_enterDescriptors (memory : Memory Module) (address : InstanceId) :
    (Scene.enterDescriptors memory address).references = memory.references := by
  rw [Scene.enterDescriptors, references_through, references_through]

theorem Sound.enterDescriptors {address : InstanceId} {current next : Module}
    (h : Sound memory live) (hcurrent : memory.pointers.held (.ofInstance address) = some current)
    (hnext : memory.pointers.held .pendingModule = some next) :
    Sound (Scene.enterDescriptors memory address) live := by
  have hslot : (memory.through (.ofInstance address) .entered).pointers.held .pendingModule =
      some next := by
    rw [pointers_through, hnext]
  exact (h.entered hcurrent).entered hslot

/-- The instance that is replaced is destroyed while its module is still loaded. -/
theorem Sound.replaceInstance (putBack : ℕ → Bool) {data : InstanceData Module} {next : Module}
    {nextInstance : ZigInstance}
    (h : Sound memory
      ((next, nextInstance) :: (data.module, data.zigInstance) :: live))
    (hcurrent : memory.pointers.held (.ofInstance data.address) = some data.module)
    (hnext : memory.pointers.held .pendingModule = some next)
    (hothers : ∀ entry ∈ live, ∃ address, address ≠ data.address ∧
      memory.pointers.held (.ofInstance address) = some entry.1) :
    Sound (Scene.replaceInstance runtime putBack memory data next nextInstance)
      ((next, nextInstance) :: live) := by
  let pinned := memory.copy .previousModule (.ofInstance data.address)
  let replaced := pinned.copy (.ofInstance data.address) .pendingModule
  have hnew : ∀ written : Pointers Slot Module, written.held .pendingModule = some next →
      (∀ address, address ≠ data.address →
        written.held (.ofInstance address) = memory.pointers.held (.ofInstance address)) →
      ∀ entry ∈ (next, nextInstance) :: live, written.IsHeld entry.1 := by
    intro written hpending hsame
    rw [List.forall_mem_cons]
    refine ⟨⟨.pendingModule, hpending⟩, fun entry hentry ↦ ?_⟩
    obtain ⟨address, hne, hslot⟩ := hothers entry hentry
    exact ⟨.ofInstance address, (hsame address hne).trans hslot⟩
  have hboth : ∀ written : Pointers Slot Module,
      written.held .previousModule = some data.module →
      (∀ entry ∈ (next, nextInstance) :: live, written.IsHeld entry.1) →
      ∀ entry ∈ (next, nextInstance) :: (data.module, data.zigInstance) :: live,
        written.IsHeld entry.1 := by
    intro written hprevious hheld
    rw [List.forall_mem_cons] at hheld ⊢
    exact ⟨hheld.1, List.forall_mem_cons.mpr ⟨⟨.previousModule, hprevious⟩, hheld.2⟩⟩
  have hpinned : Sound pinned
      ((next, nextInstance) :: (data.module, data.zigInstance) :: live) := by
    refine h.copy (hboth _ ?_ (hnew _ ?_ fun address hne ↦ ?_))
    all_goals simp [hcurrent, hnext]
  have hreplaced : Sound replaced
      ((next, nextInstance) :: (data.module, data.zigInstance) :: live) := by
    refine hpinned.copy (hboth _ ?_ (hnew _ ?_ fun address hne ↦ ?_))
    · simp [pinned, hcurrent]
    · simp [pinned, hnext]
    · simp [pinned, hne]
  have hsynced := (hreplaced.sync runtime putBack List.mem_cons_self).perm (.swap ..)
  have hdestroyed : Sound ((Scene.syncRetainedObjects runtime putBack replaced next
      nextInstance).through .previousModule (.destroyed · data.zigInstance))
      ((next, nextInstance) :: live) := by
    have hslot : (Scene.syncRetainedObjects runtime putBack replaced next
        nextInstance).pointers.held .previousModule = some data.module := by
      simp [Scene.syncRetainedObjects, replaced, pinned, hcurrent]
    rw [Memory.through, hslot]
    exact hsynced.destroyed
  refine hdestroyed.reset (hnew _ ?_ fun address hne ↦ ?_)
  · simp [Scene.syncRetainedObjects, replaced, pinned, hnext]
  · simp [Scene.syncRetainedObjects, replaced, pinned, hne]

/-- What the pointers hold after an instance is replaced. -/
theorem held_replaceInstance (putBack : ℕ → Bool) (memory : Memory Module)
    (data : InstanceData Module) (next : Module) (nextInstance : ZigInstance) :
    (Scene.replaceInstance runtime putBack memory data next nextInstance).pointers.held =
      Function.update (Function.update (Function.update memory.pointers.held .previousModule
        (memory.pointers.held (.ofInstance data.address))) (.ofInstance data.address)
          (memory.pointers.held .pendingModule)) .previousModule none := by
  simp [Scene.replaceInstance, Scene.syncRetainedObjects]

variable (runtime) in
theorem references_replaceInstance (putBack : ℕ → Bool) (memory : Memory Module)
    (data : InstanceData Module) (next : Module) (nextInstance : ZigInstance) :
    (Scene.replaceInstance runtime putBack memory data next nextInstance).references =
      memory.references := by
  simp [Scene.replaceInstance, Scene.syncRetainedObjects]

end Gzscript.Script.ModuleLog
