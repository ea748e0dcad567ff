import Gzscript.Abi.Inspector
import Gzscript.Script.RefreshCoverage

/-!
# Placeholders and the exports of a script

In the editor a placeholder stands for an instance of a script that does not run. It shows the
properties and the defaults that were last pushed to it. A publish pushes those of the new module to
every placeholder, unless the module has the same exports as the one before.

That is not always enough: a bound of a range that changes between zero and negative zero is the
same number, with another text in the list of the properties. Every placeholder shows the module of
the script throughout a run exactly when no publish of the run leaves the ranges of live
placeholders with another text (`run_showsExports_iff`). In `signChanged_outdated` one does.
-/

set_option autoImplicit false
set_option relaxedAutoImplicit false

namespace Gzscript.Script.Placeholders

open Library.Bytes Library.Transition Abi.Value Abi.ValueCodec Abi.Descriptor Abi.Inspector
open Instances

variable {Module Object F32 F64 : Type}

/-- What is pushed to a placeholder. -/
structure Exports (Object F32 F64 : Type) where
  properties : List (Option PropertyInfo)
  defaults : List (String × Variant Object F32 F64)

structure Placeholder (Object F32 F64 : Type) where
  address : ℕ
  /-- The last push. -/
  shown : Option (Exports Object F32 F64)

structure Scene (Module Object F32 F64 : Type) where
  script : GzScript Module
  placeholders : List (Placeholder Object F32 F64)

variable (runtime : Runtime Module Object F32 F64) (num : F64 → String)

/-- The exports of a loaded module. -/
def exportsOf (module : Module) : Exports Object F32 F64 where
  properties := scriptPropertyList runtime.engine num (runtime.descriptor module)
  defaults := propertyDefaults runtime.engine (runtime.descriptor module)

/-- `_update_placeholder`. -/
def updatePlaceholder (script : GzScript Module) (placeholder : Placeholder Object F32 F64) :
    Placeholder Object F32 F64 :=
  match script.module with
  | none => placeholder
  | some module => { placeholder with shown := some (exportsOf runtime num module) }

/-- `_update_exports`. -/
def updateExports (scene : Scene Module Object F32 F64) : Scene Module Object F32 F64 :=
  { scene with
    placeholders := scene.placeholders.map (updatePlaceholder runtime num scene.script) }

/-- `_placeholder_instance_create`: the engine makes a placeholder at an address that is free. -/
def placeholderInstanceCreate (scene : Scene Module Object F32 F64) (owner : Option UInt64)
    (address : ℕ) : Scene Module Object F32 F64 :=
  match owner with
  | none => scene
  | some _ =>
    if scene.placeholders.any fun placeholder ↦ placeholder.address = address then scene
    else
      { scene with
        placeholders :=
          updatePlaceholder runtime num scene.script ⟨address, none⟩ :: scene.placeholders }

/-- `_placeholder_erased`. -/
def placeholderErased (scene : Scene Module Object F32 F64) (address : ℕ) :
    Scene Module Object F32 F64 :=
  { scene with
    placeholders := scene.placeholders.filter fun placeholder ↦ placeholder.address ≠ address }

section Publish

variable [DecidableEq Module]

/-- `publish_module`, with its effect on the placeholders. -/
def publishModule (isEditorHint : Bool) (scene : Scene Module Object F32 F64)
    (nextModule : Option Module) : Scene Module Object F32 F64 :=
  match nextModule with
  | none => scene
  | some next =>
    let published : Scene Module Object F32 F64 :=
      { scene with script := scene.script.publishModule runtime isEditorHint (some next) }
    if scene.script.exportsChanged runtime next then updateExports runtime num published
    else published

/-! ### Runs -/

inductive Op (Module : Type)
  | publishModule (next : Option Module)
  | placeholderInstanceCreate (owner : Option UInt64) (address : ℕ)
  | placeholderErased (address : ℕ)

def step (isEditorHint : Bool) (scene : Scene Module Object F32 F64) :
    Op Module → Scene Module Object F32 F64
  | .publishModule next => publishModule runtime num isEditorHint scene next
  | .placeholderInstanceCreate owner address =>
    placeholderInstanceCreate runtime num scene owner address
  | .placeholderErased address => placeholderErased scene address

def initialScene (Module Object F32 F64 : Type) : Scene Module Object F32 F64 :=
  ⟨initial Module, []⟩

end Publish

/-- Every live placeholder shows the exports of the module of the script. -/
def ShowsExports (scene : Scene Module Object F32 F64) : Prop :=
  ∀ module, scene.script.module = some module → ∀ placeholder ∈ scene.placeholders,
    placeholder.shown = some (exportsOf runtime num module)

/-- Where there are placeholders, a publish of a module with the same exports brings the same texts
of the ranges. -/
def PublishPrintsAlike (scene : Scene Module Object F32 F64) : Op Module → Prop
  | .publishModule (some next) =>
    ∀ current, scene.script.module = some current → sameExports runtime current next = true →
      scene.placeholders ≠ [] →
        RangesPrintAlike num (runtime.descriptor current) (runtime.descriptor next)
  | _ => True

/-- The default of every property is of the property's type, and the engine's equality is equality
on the values of one type. -/
structure DefaultsExact : Prop where
  typed : ∀ module, DefaultsTyped (runtime.descriptor module)
  exact : EqualityExact runtime.equality

variable {runtime num}

/-! ### Pushes -/

theorem updatePlaceholder_shown {script : GzScript Module} {module : Module}
    (hmodule : script.module = some module) (placeholder : Placeholder Object F32 F64) :
    (updatePlaceholder runtime num script placeholder).shown =
      some (exportsOf runtime num module) := by
  unfold updatePlaceholder
  rw [hmodule]

theorem updateExports_showsExports (scene : Scene Module Object F32 F64) :
    ShowsExports runtime num (updateExports runtime num scene) := by
  intro module hmodule placeholder hplaceholder
  obtain ⟨before, -, rfl⟩ := List.mem_map.mp hplaceholder
  exact updatePlaceholder_shown hmodule before

/-- Modules with the same exports show the same exactly when the texts of their ranges agree. -/
theorem exportsOf_eq_iff (hdefaults : DefaultsExact runtime) {current next : Module}
    (hsame : sameExports runtime current next = true) :
    exportsOf runtime num current = exportsOf runtime num next ↔
      RangesPrintAlike num (runtime.descriptor current) (runtime.descriptor next) := by
  have hexports := sameExports_of_hasSameExports hsame
  unfold exportsOf
  rw [Exports.mk.injEq, scriptPropertyList_eq_iff hexports]
  exact and_iff_left (propertyDefaults_eq hdefaults.exact (hdefaults.typed current)
    (hdefaults.typed next) hexports)

/-! ### One operation -/

section Steps

variable [DecidableEq Module]

theorem publishModule_module (isEditorHint : Bool) (script : GzScript Module) (next : Module) :
    (script.publishModule runtime isEditorHint (some next)).module = some next := by
  rcases isEditorHint with _ | _
  · rfl
  · exact (RefreshCoverage.publishModule_cases runtime script next).1

theorem publishModule_showsExports_iff (hdefaults : DefaultsExact runtime) (isEditorHint : Bool)
    {scene : Scene Module Object F32 F64} (h : ShowsExports runtime num scene) (next : Module) :
    ShowsExports runtime num (publishModule runtime num isEditorHint scene (some next)) ↔
      PublishPrintsAlike runtime num scene (.publishModule (some next)) := by
  have hmodule : (scene.script.publishModule runtime isEditorHint (some next)).module = some next :=
    publishModule_module isEditorHint scene.script next
  simp only [publishModule, PublishPrintsAlike]
  split_ifs with hchanged
  · refine iff_of_true (updateExports_showsExports _) fun current hcurrent hsame ↦ ?_
    have hkept := (Refresh.exportsChanged_eq_false_iff scene.script next).mpr
      ⟨current, hcurrent, hsame⟩
    exact absurd (hkept.symm.trans hchanged) Bool.false_ne_true
  · obtain ⟨current, hcurrent, hsame⟩ := (Refresh.exportsChanged_eq_false_iff scene.script next).mp
      (Bool.not_eq_true _ ▸ hchanged)
    have hshown := h current hcurrent
    constructor
    · intro hafter other hother _ hlive
      obtain rfl := Option.some.inj (hcurrent.symm.trans hother)
      obtain ⟨placeholder, hplaceholder⟩ := List.exists_mem_of_ne_nil _ hlive
      refine (exportsOf_eq_iff hdefaults hsame).mp (Option.some.inj ?_)
      rw [← hshown placeholder hplaceholder]
      exact hafter next hmodule placeholder hplaceholder
    · intro hprints other hother placeholder hplaceholder
      obtain rfl := Option.some.inj (hmodule.symm.trans hother)
      have hlive : scene.placeholders ≠ [] := List.ne_nil_of_mem hplaceholder
      rw [← (exportsOf_eq_iff hdefaults hsame).mpr (hprints current hcurrent hsame hlive)]
      exact hshown placeholder hplaceholder

/-- An operation keeps the placeholders up to date exactly when it is no publish that leaves a range
with another text. -/
theorem step_showsExports_iff (hdefaults : DefaultsExact runtime) (isEditorHint : Bool)
    {scene : Scene Module Object F32 F64} (h : ShowsExports runtime num scene) (op : Op Module) :
    ShowsExports runtime num (step runtime num isEditorHint scene op) ↔
      PublishPrintsAlike runtime num scene op := by
  cases op with
  | publishModule next =>
    rcases next with _ | next
    · exact iff_of_true h trivial
    · exact publishModule_showsExports_iff hdefaults isEditorHint h next
  | placeholderInstanceCreate owner address =>
    refine iff_of_true ?_ trivial
    simp only [step, placeholderInstanceCreate]
    split
    next => exact h
    next =>
      split_ifs
      · exact h
      · intro module hmodule placeholder hplaceholder
        obtain rfl | hold := List.mem_cons.mp hplaceholder
        · exact updatePlaceholder_shown hmodule _
        · exact h module hmodule placeholder hold
  | placeholderErased address =>
    refine iff_of_true (fun module hmodule placeholder hplaceholder ↦ ?_) trivial
    exact h module hmodule placeholder (List.mem_of_mem_filter hplaceholder)

/-! ### Runs -/

variable (runtime num)

/-- The placeholders show the exports of the script's module after every operation of a run, exactly
when no publish of the run leaves a range with another text. -/
theorem run_showsExports_iff (hdefaults : DefaultsExact runtime) (isEditorHint : Bool)
    (ops : List (Op Module)) :
    (∀ before after, ops = before ++ after →
        ShowsExports runtime num (exec (step runtime num isEditorHint)
          (initialScene Module Object F32 F64) before)) ↔
      Along (step runtime num isEditorHint) (PublishPrintsAlike runtime num)
        (initialScene Module Object F32 F64) ops := by
  have hstart : ShowsExports runtime num (initialScene Module Object F32 F64) :=
    fun _ _ _ hplaceholder ↦ absurd hplaceholder List.not_mem_nil
  exact forall_exec_iff_along (step runtime num isEditorHint) (PublishPrintsAlike runtime num)
    (ShowsExports runtime num) (fun _ ↦ True) (fun _ _ _ ↦ trivial)
    (fun _ op _ h ↦ step_showsExports_iff hdefaults isEditorHint h op) trivial hstart ops

end Steps

/-! ### A bound that changes its sign -/

/-- Doubles by their bits: zero and negative zero are equal, and what is not a number is not equal
to itself. -/
def doubleEqual (lhs rhs : UInt64) : Bool :=
  lhs <<< 1 ≤ 0xFFE0000000000000 && rhs <<< 1 ≤ 0xFFE0000000000000 &&
    (lhs = rhs || (lhs ||| rhs) <<< 1 = 0)

/-- The text of zero, of negative zero and of one. -/
def sampleNum (bits : UInt64) : String :=
  if bits = 0 then "0" else if bits = 0x8000000000000000 then "-0" else "1"

/-- The engine's equality, of two integers. -/
def sampleVariantEqual : Variant Empty UInt32 UInt64 → Variant Empty UInt32 UInt64 → Bool
  | .int lhs, .int rhs => lhs = rhs
  | _, _ => false

/-- An integer from a bound to one. -/
def speed (rangeMin : UInt64) : PropertyDescriptor UInt32 UInt64 where
  name := [115]
  type := 2
  hint := propertyHintRange
  hintString := []
  className := []
  rangeMin := rangeMin
  rangeMax := 0x3FF0000000000000
  rangeStep := 0x3FF0000000000000
  defaultValue := .int 0

/-- Two modules, with the bound zero and then negative zero. -/
def sampleRuntime : Runtime Bool Empty UInt32 UInt64 where
  descriptor negative :=
    { baseClass := [78]
      properties := [speed (if negative then 0x8000000000000000 else 0)]
      inspectorEntries := [⟨inspectorEntryProperty, 0, [], []⟩] }
  engine := sampleEngine
  equality := ⟨doubleEqual, sampleVariantEqual⟩

theorem sampleRuntime_defaultsExact : DefaultsExact sampleRuntime where
  typed negative property hproperty := by
    obtain rfl := List.mem_singleton.mp hproperty
    rfl
  exact lhs rhs _ hequal := by
    rcases lhs with _ | _ | lhs
    case int =>
      rcases rhs with _ | _ | rhs
      case int => exact congrArg Variant.int (of_decide_eq_true hequal)
      all_goals exact absurd hequal Bool.false_ne_true
    all_goals exact absurd hequal Bool.false_ne_true

/-- The sign of the bound changes when the placeholder is gone. -/
def erasedInTime : List (Op Bool) :=
  [.publishModule (some false), .placeholderInstanceCreate (some 1) 7,
    .publishModule (some false), .placeholderErased 7, .publishModule (some true)]

theorem run_showsExports_iff_sample :
    sameExports sampleRuntime false true = true ∧
      ∀ before after, erasedInTime = before ++ after →
        ShowsExports sampleRuntime sampleNum (exec (step sampleRuntime sampleNum true)
          (initialScene Bool Empty UInt32 UInt64) before) := by
  refine ⟨by decide, (run_showsExports_iff sampleRuntime sampleNum sampleRuntime_defaultsExact true
    erasedInTime).mpr ⟨?_, trivial, ?_, trivial, ?_, trivial⟩⟩
  · exact fun current hcurrent ↦ nomatch hcurrent
  · rintro current hcurrent - -
    obtain rfl := Option.some.inj hcurrent
    exact (exportsOf_eq_iff sampleRuntime_defaultsExact (by decide)).mp rfl
  · exact fun current _ _ hlive ↦ absurd rfl hlive

/-- The placeholder shows a range from zero, and the module has one from negative zero. -/
theorem signChanged_outdated :
    DefaultsExact sampleRuntime ∧
      ¬ ShowsExports sampleRuntime sampleNum (exec (step sampleRuntime sampleNum true)
        (initialScene Bool Empty UInt32 UInt64)
        [.publishModule (some false), .placeholderInstanceCreate (some 1) 7,
          .publishModule (some true)]) := by
  refine ⟨sampleRuntime_defaultsExact, fun h ↦ ?_⟩
  have hshown : (some (exportsOf sampleRuntime sampleNum false)) =
      some (exportsOf sampleRuntime sampleNum true) := h true rfl _ (List.mem_singleton_self _)
  have htexts := congrArg
    (fun exports ↦ exports.properties.map (Option.map PropertyInfo.hintString))
    (Option.some.inj hshown)
  exact absurd htexts (by decide)

end Gzscript.Script.Placeholders
