import Gzscript.Script.Retention

/-!
# Runs that keep object fields checked and retained

The engine's way of setting a field keeps an instance checked (`instanceSet_checked`). The script's
code, and a migration, keep it checked unless they leave a field stuck or an object lost; a new
instance and a migrated one have empty slots, so that no object can be lost there. An instance is
checked after every operation of a run exactly when every operation meets this condition
(`run_checked_iff`). `wrongSprite_unchecked` is a run in which one does not.
-/

set_option autoImplicit false
set_option relaxedAutoImplicit false

namespace Gzscript.Script.CheckedFields

open Library.ReferenceCounts Library.Transition ObjectFields Retention

variable (classes : Classes)

/-- What the script's code leaves of the fields, of an instance that has the slots it had. -/
def KeepsFields (references : References) (live : Finset ObjectId) (data : InstanceData)
    (code : ScriptCode) : Prop :=
  NoneStuck classes data.properties (assign (live ∪ code.born) code.assigned data.fields)
      data.retained ∧
    NoneLost classes references (live ∪ code.born) data.properties
      (assign (live ∪ code.born) code.assigned data.fields) data.retained

/-- The operation leaves no field stuck and no object lost. -/
def Keeps (world : World) (op : Op) : Prop :=
  match op, world.data with
  | .create _ properties init, none =>
    NoneStuck classes properties (assign (world.live ∪ init.born) init.assigned fun _ ↦ 0)
      fun _ ↦ 0
  | .call references argumentsValid code, some data =>
    argumentsValid = true → KeepsFields classes references world.live data code
  | .notification references code, some data => KeepsFields classes references world.live data code
  | .migrate _ next init copies, some data =>
    ∀ fields, copyFields copies data.fields next data.properties 0
        (assign (world.live ∪ init.born) init.assigned fun _ ↦ 0) = some fields →
      NoneStuck classes next fields fun _ ↦ 0
  | _, _ => True

variable {classes}
variable {references : References} {live : Finset ObjectId}

/-! ### Checked instances -/

theorem worldChecked_some {data : InstanceData} :
    WorldChecked classes ⟨live, some data⟩ ↔ Checked classes live data := by
  constructor
  · intro h
    exact h data rfl
  · intro h other hother
    cases hother
    exact h

theorem worldChecked_none : WorldChecked classes ⟨live, none⟩ := by
  intro data hdata
  cases hdata

/-- With more objects live, an instance stays checked. -/
theorem checked_mono {data : InstanceData} (h : Checked classes live data)
    {more : Finset ObjectId} (hmore : live ⊆ more) :
    Checked classes more data := by
  intro index className isOptional htype
  obtain ⟨hslot, hfield⟩ := h index className isOptional htype
  exact ⟨hslot, hfield.imp_right fun haccepted ↦ ⟨hmore haccepted.1, haccepted.2⟩⟩

/-- The same for fewer, as long as the objects that slots refer to are among them. -/
theorem checked_anti {data : InstanceData} (h : Checked classes live data)
    {fewer : Finset ObjectId}
    (hkept : ∀ index < data.properties.length, data.retained index ∈ live →
      data.retained index ∈ fewer) : Checked classes fewer data := by
  intro index className isOptional htype
  obtain ⟨hslot, hfield⟩ := h index className isOptional htype
  refine ⟨hslot, hfield.imp_right fun haccepted ↦ ⟨?_, haccepted.2⟩⟩
  rw [← hslot] at haccepted ⊢
  exact hkept index (typeAt_lt htype) haccepted.1

theorem assign_live {assigned : ℕ → Option ObjectId} {fields : ℕ → ObjectId} {index : ℕ}
    (h : fields index = 0 ∨ fields index ∈ live) :
    assign live assigned fields index = 0 ∨ assign live assigned fields index ∈ live := by
  unfold assign
  split
  next => exact h
  next object _ =>
    split
    next hlive => exact hlive
    next => exact h

/-- Empty slots lose no object. -/
theorem noneLost_of_empty (properties : List Property) (fields : ℕ → ObjectId) :
    NoneLost classes references live properties fields fun _ ↦ 0 := by
  rintro index ⟨-, -, hfalls⟩
  refine Freed.not_of_kept ?_ _ hfalls
  rintro lost ⟨-, -, rfl⟩
  rw [isKept, classes.null_not_counted]
  rfl

/-! ### The script's code -/

theorem runAndSync_checked_iff {data : InstanceData} (h : Checked classes live data)
    (code : ScriptCode) :
    WorldChecked classes (runAndSync classes references code live data) ↔
      KeepsFields classes references live data code := by
  have hmore := checked_mono h (fun _ hobject ↦ Finset.mem_union_left code.born hobject)
  refine worldChecked_some.trans (syncRetainedObjects_checked_iff classes references
    (live ∪ code.born)
    { data with fields := assign (live ∪ code.born) code.assigned data.fields } ?_ ?_)
  · intro index className isOptional htype
    exact assign_live ((hmore index className isOptional htype).2.imp_right And.left)
  · intro index className isOptional htype
    obtain ⟨hslot, hfield⟩ := hmore index className isOptional htype
    rw [← hslot] at hfield
    exact hfield

/-! ### The engine -/

/-- A field set to an object that was accepted, or to null. -/
theorem setField_checked {data : InstanceData} (h : Checked classes live data) {index : ℕ}
    {className : String} {isOptional : Bool}
    (htype : typeAt data.properties index = some (.object className isOptional))
    {object : ObjectId}
    (hobject : object = 0 ∨ object ∈ live ∧ accepts classes className object = true) :
    WorldChecked classes (setField classes references live data index object) := by
  have hset : Checked classes live { data with
      fields := Function.update data.fields index object
      retained := Function.update data.retained index object } := by
    intro other otherName otherOptional hother
    by_cases heq : other = index
    · subst heq
      rw [htype] at hother
      cases hother
      refine ⟨?_, ?_⟩
      · simp only [Function.update_self]
      · simpa only [Function.update_self] using hobject
    · obtain ⟨hslot, hfield⟩ := h other otherName otherOptional hother
      refine ⟨?_, ?_⟩
      · simpa only [Function.update_of_ne heq] using hslot
      · simpa only [Function.update_of_ne heq] using hfield
  exact worldChecked_some.mpr (checked_anti hset fun slot hslot hlive ↦
    slot_mem_releaseSlots hslot hlive)

theorem fromValue_eq_some {isOptional : Bool} {object result : ObjectId}
    (h : fromValue isOptional object = some result) : result = object := by
  rw [fromValue] at h
  split at h
  next => cases h
  next => exact (Option.some.inj h).symm

/-- `instance_set` keeps an instance checked. -/
theorem instanceSet_checked {data : InstanceData} (h : Checked classes live data) (name : String)
    (incoming : Incoming) :
    WorldChecked classes (instanceSet classes references name incoming live data) := by
  have hsame : WorldChecked classes ⟨live, some data⟩ := worldChecked_some.mpr h
  unfold instanceSet
  split
  next => exact hsame
  next index _ =>
    split
    next className isOptional htype =>
      split
      next object hvalue => exact setField_checked h htype (.inl (fromValue_eq_some hvalue))
      next => exact hsame
    next className isOptional object htype =>
      simp only
      split
      next => exact hsame
      next haccepted =>
        obtain ⟨hnonzero, haccepted⟩ := not_or.mp haccepted
        rw [Bool.not_eq_false] at haccepted
        have hlive : getInstance live object = object ∧ object ∈ live := by
          rw [getInstance] at hnonzero ⊢
          split at hnonzero
          next hlive => exact ⟨if_pos hlive, hlive⟩
          next => exact absurd rfl hnonzero
        split
        next result hvalue =>
          rw [hlive.1] at hvalue haccepted
          rw [fromValue_eq_some hvalue]
          exact setField_checked h htype (.inr ⟨hlive.2, haccepted⟩)
        next => exact hsame
    next => exact hsame

/-! ### Migration -/

/-- The fields of the next instance hold null or live objects, like those they are made from. -/
theorem copyFields_live {copies : ℕ → Bool} {properties next : List Property}
    {fields : ℕ → ObjectId}
    (hfields : ∀ index className isOptional,
      typeAt properties index = some (.object className isOptional) →
        fields index = 0 ∨ fields index ∈ live)
    (rest : List Property) {index : ℕ} {nextFields result : ℕ → ObjectId}
    (hrest : properties.drop index = rest)
    (hnext : ∀ other, nextFields other = 0 ∨ nextFields other ∈ live)
    (h : copyFields copies fields next rest index nextFields = some result) :
    ∀ other, result other = 0 ∨ result other ∈ live := by
  induction rest generalizing index nextFields with
  | nil =>
    cases h
    exact hnext
  | cons property rest ih =>
    have hproperty : properties[index]? = some property := by
      have hhead := congrArg List.head? hrest
      rwa [List.head?_drop, List.head?_cons] at hhead
    have hdrop : properties.drop (index + 1) = rest := by
      rw [← List.tail_drop, hrest, List.tail_cons]
    rw [copyFields] at h
    split at h
    next => exact ih hdrop hnext h
    next nextIndex _ =>
      split at h
      next => exact ih hdrop hnext h
      next nextType _ =>
        split at h
        next hsame =>
          split at h
          next =>
            split at h
            next => exact ih hdrop hnext h
            next => cases h
          next className isOptional =>
            split at h
            next => cases h
            next object hvalue =>
              refine ih hdrop (fun other ↦ ?_) h
              by_cases hother : other = nextIndex
              · rw [hother, Function.update_self, fromValue_eq_some hvalue]
                cases htype : property.type with
                | value type =>
                  rw [htype] at hsame
                  cases hsame
                | object oldName oldOptional =>
                  refine hfields index oldName oldOptional ?_
                  rw [typeAt, hproperty, ← htype]
                  rfl
              · rw [Function.update_of_ne hother]
                exact hnext other
        next => exact ih hdrop hnext h

/-- The new instance is checked exactly when none of its fields is stuck: its slots were empty, and
the objects of the previous instance's slots were kept until then. -/
theorem migrated_checked_iff {next : List Property} {fields : ℕ → ObjectId}
    {lost : Finset ObjectId} {referencesNow : References}
    (hlive : ∀ index, fields index = 0 ∨ fields index ∈ live) :
    Checked classes
        (releaseSlots classes references next.length
          (syncRetainedObjects classes referencesNow live ⟨next, fields, fun _ ↦ 0⟩).2.retained lost
          (syncRetainedObjects classes referencesNow live ⟨next, fields, fun _ ↦ 0⟩).1)
        (syncRetainedObjects classes referencesNow live ⟨next, fields, fun _ ↦ 0⟩).2 ↔
      NoneStuck classes next fields fun _ ↦ 0 := by
  have hsync := syncRetainedObjects_checked_iff classes referencesNow live
    ⟨next, fields, fun _ ↦ 0⟩ (fun index _ _ _ ↦ hlive index) (fun _ _ _ _ ↦ .inl rfl)
  have hproperties : (syncRetainedObjects classes referencesNow live
      ⟨next, fields, fun _ ↦ 0⟩).2.properties = next := syncFrom_properties _ _ _
  refine Iff.trans ⟨fun h ↦ ?_, fun h ↦ ?_⟩
    (hsync.trans (and_iff_left (noneLost_of_empty next fields)))
  · exact checked_mono h fun object hobject ↦ ((mem_releaseSlots_iff ..).mp hobject).1
  · refine checked_anti h fun slot hslot ↦ ?_
    rw [hproperties] at hslot
    exact slot_mem_releaseSlots hslot

theorem migrateEditorInstance_checked_iff {data : InstanceData} (h : Checked classes live data)
    (next : List Property) (init : ScriptCode) (copies : ℕ → Bool) :
    WorldChecked classes (migrateEditorInstance classes references next init copies live data) ↔
      ∀ fields, copyFields copies data.fields next data.properties 0
          (assign (live ∪ init.born) init.assigned fun _ ↦ 0) = some fields →
        NoneStuck classes next fields fun _ ↦ 0 := by
  have hmore := checked_mono h (fun _ hobject ↦ Finset.mem_union_left init.born hobject)
  simp only [migrateEditorInstance]
  cases hcopy : copyFields copies data.fields next data.properties 0
      (assign (live ∪ init.born) init.assigned fun _ ↦ 0) with
  | none => exact iff_of_true (worldChecked_some.mpr hmore) fun fields hfields ↦ by cases hfields
  | some fields =>
    have hlive : ∀ index, fields index = 0 ∨ fields index ∈ live ∪ init.born :=
      copyFields_live (fun index className isOptional htype ↦
        (hmore index className isOptional htype).2.imp_right And.left) data.properties
        List.drop_zero (fun _ ↦ assign_live (.inl rfl)) hcopy
    refine worldChecked_some.trans ((migrated_checked_iff hlive).trans ⟨fun hnone fields' heq ↦ ?_,
      fun hall ↦ hall fields rfl⟩)
    cases heq
    exact hnone

/-! ### Runs -/

/-- An operation on a checked instance leaves it checked exactly when it leaves no field stuck and
no object lost. -/
theorem step_checked_iff {world : World} (h : WorldChecked classes world) (op : Op) :
    WorldChecked classes (step classes world op) ↔ Keeps classes world op := by
  obtain ⟨live, data⟩ := world
  cases data with
  | none =>
    cases op with
    | create references properties init =>
      have hempty : Checked classes live ⟨properties, fun _ ↦ 0, fun _ ↦ 0⟩ :=
        fun _ _ _ _ ↦ ⟨rfl, .inl rfl⟩
      exact (runAndSync_checked_iff hempty init).trans
        (and_iff_left (noneLost_of_empty properties _))
    | set references name incoming => exact iff_of_true h trivial
    | call references argumentsValid code => exact iff_of_true h trivial
    | notification references code => exact iff_of_true h trivial
    | migrate references next init copies => exact iff_of_true h trivial
  | some data =>
    have hdata := worldChecked_some.mp h
    cases op with
    | create references properties init => exact iff_of_true h trivial
    | set references name incoming =>
      exact iff_of_true (instanceSet_checked hdata name incoming) trivial
    | call references argumentsValid code =>
      cases argumentsValid with
      | false => exact iff_of_true h fun hvalid ↦ by cases hvalid
      | true =>
        have hrun : WorldChecked classes (runAndSync classes references code live data) ↔
            KeepsFields classes references live data code := runAndSync_checked_iff hdata code
        exact ⟨fun hchecked _ ↦ hrun.mp hchecked, fun hkeeps ↦ hrun.mpr (hkeeps rfl)⟩
    | notification references code => exact runAndSync_checked_iff hdata code
    | migrate references next init copies =>
      exact migrateEditorInstance_checked_iff hdata next init copies

variable (classes)

/-- After every operation of a run each object field holds null or a live object of its class, and
its slot the same, exactly when no operation leaves a field stuck or an object lost. -/
theorem run_checked_iff (live : Finset ObjectId) (ops : List Op) :
    (∀ before after, ops = before ++ after →
        WorldChecked classes (exec (step classes) (initial live) before)) ↔
      Along (step classes) (Keeps classes) (initial live) ops :=
  forall_exec_iff_along (step classes) (Keeps classes) (WorldChecked classes) (fun _ ↦ True)
    (fun _ _ _ ↦ trivial) (fun _ op _ h ↦ step_checked_iff h op) trivial worldChecked_none ops

/-! ### A node where a sprite is declared -/

/-- No object is a sprite, and every one is reference counted. -/
def nodes : Classes where
  isClass _ className := className ≠ "Sprite2D"
  isRefCounted object := object ≠ 0
  null_not_counted := rfl

/-- Some objects are held, and none refers to another. -/
def holding (objects : List ObjectId) : References where
  held object := objects.contains object
  owns _ _ := false

/-- An assignment to the field at an index. -/
def assigning (index : ℕ) (object : ObjectId) : ScriptCode where
  born := ∅
  assigned other := if other = index then some object else none

/-- The script's `init` leaves a node in a field of sprites. There is nothing to write back, and
null is refused. -/
theorem wrongSprite_unchecked :
    ¬ WorldChecked nodes (exec (step nodes) (initial {2})
      [.create (holding [2]) [⟨"sprite", .object "Sprite2D" false⟩] (assigning 0 2)]) := by
  intro h
  have hslot := (h _ rfl 0 "Sprite2D" false rfl).1
  revert hslot
  decide

/-- An atlas that only its slot keeps alive is replaced by null, while its texture goes to a later
field: with the atlas the texture is freed. -/
example : ¬ WorldChecked nodes (exec (step nodes) (initial {3, 4})
    [.create (holding [3, 4])
        [⟨"atlas", .object "AtlasTexture" true⟩, ⟨"texture", .object "Texture2D" true⟩]
        (assigning 0 4),
      .call ⟨fun _ ↦ false, fun owner object ↦ owner = 4 ∧ object = 3⟩ true
        ⟨∅, fun index ↦ if index = 0 then some 0 else some 3⟩]) := by
  intro h
  have hslot := (h _ rfl 1 "Texture2D" true rfl).1
  revert hslot
  decide

end Gzscript.Script.CheckedFields
