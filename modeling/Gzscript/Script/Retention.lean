import Gzscript.Script.ObjectFields
import Mathlib.Data.Nat.Basic

/-!
# When object fields stay checked and retained

After an operation, every object field should hold null or a live object of its class, and its slot
should hold the same (`Checked`). Two things can go wrong when the slots are synchronised after the
script's code. A field that is not optional is left with an object of another class, and its slot is
empty: null, which should be written back, is refused (`Stuck`). Or a field holds an object that
nothing but the slots of earlier properties keeps alive, be it that they refer to it themselves or
that they refer to what it belongs to: they are overwritten first, and the object is freed before
its own slot is reached (`Lost`).

A synchronisation leaves an instance checked exactly when neither happens
(`syncRetainedObjects_checked_iff`).
-/

set_option autoImplicit false
set_option relaxedAutoImplicit false

namespace Gzscript.Script.Retention

open Library.ReferenceCounts Library.Transition ObjectFields

variable (classes : Classes)

/-! ### Checked instances -/

/-- The field at an index, declared with a class, holds null or a live object of the class, and its
slot holds the same. -/
def SlotChecked (live : Finset ObjectId) (data : InstanceData) (index : ℕ) (className : String) :
    Prop :=
  data.retained index = data.fields index ∧
    (data.fields index = 0 ∨
      data.fields index ∈ live ∧ accepts classes className (data.fields index) = true)

def Checked (live : Finset ObjectId) (data : InstanceData) : Prop :=
  ∀ index className isOptional,
    typeAt data.properties index = some (.object className isOptional) →
      SlotChecked classes live data index className

def WorldChecked (world : World) : Prop :=
  ∀ data, world.data = some data → Checked classes world.live data

/-! ### What a synchronisation should do -/

section Synchronisation

variable (references : References) (start : Finset ObjectId) (properties : List Property)
  (fields retained : ℕ → ObjectId)

/-- What the field and the slot of a property should both hold: the object that the script left
there if it is accepted, and otherwise the one that was retained. -/
def settled (index : ℕ) : ObjectId :=
  match typeAt properties index with
  | some (.object className _) =>
    if fields index = 0 ∨ accepts classes className (fields index) then fields index
    else retained index
  | _ => retained index

/-- A field that is not optional holds an object of another class, and its slot is empty. -/
def Stuck (index : ℕ) : Prop :=
  ∃ className, typeAt properties index = some (.object className false) ∧
    retained index = 0 ∧ fields index ≠ 0 ∧ accepts classes className (fields index) = false

/-- The slots when those before an index are up to date and the others are not. -/
def slotsAt (index other : ℕ) : ObjectId :=
  if other < index then settled classes properties fields retained other else retained other

/-- An object falls with what the slots before an index referred to: nothing keeps it that does not
fall as well, neither a slot nor another object. -/
def Falls (index : ℕ) : ObjectId → Prop :=
  Freed
    (isKept classes references.held properties.length
      (slotsAt classes properties fields retained index))
    references.owns (fun object ↦ ∃ earlier < index, retained earlier = object) (· ∈ start)

/-- A field holds an object that has fallen when its turn comes. -/
def Lost (index : ℕ) : Prop :=
  (∃ className isOptional, typeAt properties index = some (.object className isOptional)) ∧
    fields index ≠ 0 ∧
    Falls classes references start properties fields retained index (fields index)

/-- No field is stuck. -/
def NoneStuck : Prop := ∀ index, ¬ Stuck classes properties fields retained index

/-- No object is lost. -/
def NoneLost : Prop := ∀ index, ¬ Lost classes references start properties fields retained index

/-- The live objects, the fields and the slots when the properties before an index are done. -/
structure Described (index : ℕ) (scene : Finset ObjectId × InstanceData) : Prop where
  sameProperties : scene.2.properties = properties
  fieldsDone : ∀ earlier < index, ∀ className isOptional,
    typeAt properties earlier = some (.object className isOptional) →
      scene.2.fields earlier = settled classes properties fields retained earlier
  fieldsToDo : ∀ later, index ≤ later → scene.2.fields later = fields later
  slots : scene.2.retained = slotsAt classes properties fields retained index
  live : ∀ object, object ∈ scene.1 ↔
    object ∈ start ∧ ¬ Falls classes references start properties fields retained index object

end Synchronisation

variable {classes}
variable {references : References} {start : Finset ObjectId} {properties : List Property}
  {fields retained : ℕ → ObjectId}

/-! ### One property -/

theorem typeAt_lt {index : ℕ} {type : PropertyType} (htype : typeAt properties index = some type) :
    index < properties.length := by
  rw [typeAt, Option.map_eq_some_iff] at htype
  obtain ⟨property, hproperty, -⟩ := htype
  exact (List.getElem?_eq_some_iff.mp hproperty).1

theorem typeAt_of_getElem? {index : ℕ} {property : Property}
    (hproperty : properties[index]? = some property) :
    typeAt properties index = some property.type := by
  rw [typeAt, hproperty]
  rfl

theorem settled_of_refused {index : ℕ} {className : String} {isOptional : Bool}
    (htype : typeAt properties index = some (.object className isOptional))
    (hwrong : fields index ≠ 0 ∧ accepts classes className (fields index) = false) :
    settled classes properties fields retained index = retained index := by
  simp only [settled, htype]
  rw [if_neg]
  rintro (hzero | haccepts)
  · exact hwrong.1 hzero
  · rw [hwrong.2] at haccepts
    cases haccepts

theorem settled_of_accepted {index : ℕ} {className : String} {isOptional : Bool}
    (htype : typeAt properties index = some (.object className isOptional))
    (haccepted : fields index = 0 ∨ accepts classes className (fields index) = true) :
    settled classes properties fields retained index = fields index := by
  simp only [settled, htype]
  rw [if_pos haccepted]

theorem isKept_eq_false_iff {held : ObjectId → Bool} {count : ℕ} {slots : ℕ → ObjectId}
    {object : ObjectId} : isKept classes held count slots object = false ↔
      classes.isRefCounted object = true ∧ held object = false ∧
        ∀ index < count, slots index ≠ object := by
  simp only [isKept, isRetained, Bool.or_eq_false_iff, Bool.not_eq_false', List.any_eq_false,
    List.mem_range, decide_eq_true_eq, and_assoc, ne_eq]

theorem isKept_of_slot {held : ObjectId → Bool} {count : ℕ} {slots : ℕ → ObjectId} {index : ℕ}
    (hindex : index < count) : isKept classes held count slots (slots index) = true := by
  rw [← Bool.not_eq_false, isKept_eq_false_iff]
  rintro ⟨-, -, hnone⟩
  exact hnone index hindex rfl

/-- Null is no object that could fall. -/
theorem not_falls_null {index : ℕ} :
    ¬ Falls classes references start properties fields retained index 0 := by
  intro hfalls
  have hcounted := (isKept_eq_false_iff.mp hfalls.not_kept).1
  rw [classes.null_not_counted] at hcounted
  cases hcounted

theorem mem_releaseSlots_iff (count : ℕ) (slots : ℕ → ObjectId) (lost live : Finset ObjectId)
    (object : ObjectId) : object ∈ releaseSlots classes references count slots lost live ↔
      object ∈ live ∧ ¬ Freed (isKept classes references.held count slots) references.owns
        (· ∈ lost) (· ∈ live) object :=
  mem_release_iff lost live object

/-- What a slot refers to stays live when others are overwritten. -/
theorem slot_mem_releaseSlots {count : ℕ} {slots : ℕ → ObjectId} {lost live : Finset ObjectId}
    {index : ℕ} (hindex : index < count) (hlive : slots index ∈ live) :
    slots index ∈ releaseSlots classes references count slots lost live := by
  refine (mem_releaseSlots_iff ..).mpr ⟨hlive, fun hfreed ↦ ?_⟩
  have hkept := hfreed.not_kept
  rw [isKept_of_slot hindex] at hkept
  cases hkept

theorem slotsAt_zero : slotsAt classes properties fields retained 0 = retained := by
  funext other
  rw [slotsAt, if_neg (Nat.not_lt_zero other)]

theorem slotsAt_of_lt {index other : ℕ} (hother : other < index) :
    slotsAt classes properties fields retained index other =
      settled classes properties fields retained other := if_pos hother

theorem slotsAt_of_le {index other : ℕ} (hother : index ≤ other) :
    slotsAt classes properties fields retained index other = retained other :=
  if_neg (Nat.not_lt.mpr hother)

theorem slotsAt_succ (index : ℕ) : slotsAt classes properties fields retained (index + 1) =
    Function.update (slotsAt classes properties fields retained index) index
      (settled classes properties fields retained index) := by
  funext other
  by_cases heq : other = index
  · rw [heq, Function.update_self, slotsAt_of_lt (Nat.lt_succ_self index)]
  · rw [Function.update_of_ne heq]
    by_cases hlt : other < index
    · rw [slotsAt_of_lt hlt, slotsAt_of_lt (by omega)]
    · rw [slotsAt_of_le (by omega), slotsAt_of_le (by omega)]

/-- What falls when one more slot is overwritten, by an object that has not fallen: `live` are the
objects that were left. -/
theorem falls_succ_iff {index : ℕ} {live : Finset ObjectId}
    (hlive : ∀ object, object ∈ live ↔
      object ∈ start ∧ ¬ Falls classes references start properties fields retained index object)
    (hstays : ¬ Falls classes references start properties fields retained index
      (settled classes properties fields retained index)) (object : ObjectId) :
    Falls classes references start properties fields retained (index + 1) object ↔
      Falls classes references start properties fields retained index object ∨
        Freed
          (isKept classes references.held properties.length
            (slotsAt classes properties fields retained (index + 1)))
          references.owns (· ∈ ({retained index} : Finset ObjectId)) (· ∈ live) object := by
  have hlost : (fun object ↦ ∃ earlier < index + 1, retained earlier = object) =
      fun object ↦ (∃ earlier < index, retained earlier = object) ∨
        object ∈ ({retained index} : Finset ObjectId) := by
    funext object
    rw [Nat.exists_lt_succ_right, Finset.mem_singleton, eq_comm (a := object)]
  rw [Falls, hlost]
  refine freed_union_iff hlive (fun object hfalls ↦ ?_) (fun object hkept hfree ↦ ?_) object
  · obtain ⟨hcounted, hheld, hnone⟩ := isKept_eq_false_iff.mp hfalls.not_kept
    refine isKept_eq_false_iff.mpr ⟨hcounted, hheld, fun slot hslot ↦ ?_⟩
    rw [slotsAt_succ]
    by_cases heq : slot = index
    · rw [heq, Function.update_self]
      rintro rfl
      exact hstays hfalls
    · rw [Function.update_of_ne heq]
      exact hnone slot hslot
  · obtain ⟨hcounted, hheld, hnone⟩ := isKept_eq_false_iff.mp hfree
    rw [← Bool.not_eq_false, isKept_eq_false_iff] at hkept
    by_contra hother
    refine hkept ⟨hcounted, hheld, fun slot hslot ↦ ?_⟩
    by_cases heq : slot = index
    · rw [heq, slotsAt_of_le le_rfl]
      rintro rfl
      exact hother (Finset.mem_singleton_self _)
    · have hnot := hnone slot hslot
      rwa [slotsAt_succ, Function.update_of_ne heq] at hnot

/-- Where the slot keeps what it refers to, nothing more falls. -/
theorem falls_succ_of_same {index : ℕ} {live : Finset ObjectId} (hindex : index < properties.length)
    (hlive : ∀ object, object ∈ live ↔
      object ∈ start ∧ ¬ Falls classes references start properties fields retained index object)
    (hsame : settled classes properties fields retained index = retained index)
    (object : ObjectId) :
    Falls classes references start properties fields retained (index + 1) object ↔
      Falls classes references start properties fields retained index object := by
  have hstays : ¬ Falls classes references start properties fields retained index
      (settled classes properties fields retained index) := by
    intro hfalls
    have hkept := hfalls.not_kept
    have hslot : slotsAt classes properties fields retained index index = retained index :=
      slotsAt_of_le le_rfl
    rw [hsame, ← hslot, isKept_of_slot hindex] at hkept
    cases hkept
  refine (falls_succ_iff hlive hstays object).trans (or_iff_left (Freed.not_of_kept ?_ object))
  intro lost hlost
  rw [Finset.mem_singleton.mp hlost, ← hsame,
    ← slotsAt_of_lt (Nat.lt_succ_self index)]
  exact isKept_of_slot hindex

theorem Described.slotsDone {index : ℕ} {scene : Finset ObjectId × InstanceData}
    (h : Described classes references start properties fields retained index scene) {earlier : ℕ}
    (hearlier : earlier < index) :
    scene.2.retained earlier = settled classes properties fields retained earlier := by
  rw [h.slots, slotsAt_of_lt hearlier]

theorem Described.slotsToDo {index : ℕ} {scene : Finset ObjectId × InstanceData}
    (h : Described classes references start properties fields retained index scene) {later : ℕ}
    (hlater : index ≤ later) : scene.2.retained later = retained later := by
  rw [h.slots, slotsAt_of_le hlater]

/-- One more property is done when its field and its slot hold what they should. -/
theorem Described.advance {index : ℕ} {scene next : Finset ObjectId × InstanceData}
    (h : Described classes references start properties fields retained index scene)
    (hproperties : next.2.properties = scene.2.properties)
    (hfields : ∀ other ≠ index, next.2.fields other = scene.2.fields other)
    (hfield : ∀ className isOptional,
      typeAt properties index = some (.object className isOptional) →
        next.2.fields index = settled classes properties fields retained index)
    (hslots : next.2.retained = slotsAt classes properties fields retained (index + 1))
    (hlive : ∀ object, object ∈ next.1 ↔ object ∈ start ∧
      ¬ Falls classes references start properties fields retained (index + 1) object) :
    Described classes references start properties fields retained (index + 1) next where
  sameProperties := hproperties.trans h.sameProperties
  fieldsDone earlier hearlier className isOptional htype := by
    by_cases heq : earlier = index
    · subst heq
      exact hfield className isOptional htype
    · rw [hfields earlier heq]
      exact h.fieldsDone earlier (by omega) className isOptional htype
  fieldsToDo later hlater := by
    rw [hfields later (by omega)]
    exact h.fieldsToDo later (by omega)
  slots := hslots
  live := hlive

/-- The slot of a property keeps what it refers to, and the field is made to hold the same if it is
of an object type. -/
theorem Described.keep {index : ℕ} {live : Finset ObjectId} {data next : InstanceData}
    (h : Described classes references start properties fields retained index (live, data))
    (hindex : index < properties.length)
    (hsame : settled classes properties fields retained index = retained index)
    (hproperties : next.properties = data.properties)
    (hfields : ∀ other ≠ index, next.fields other = data.fields other)
    (hretained : next.retained = data.retained)
    (hfield : ∀ className isOptional,
      typeAt properties index = some (.object className isOptional) →
        next.fields index = retained index) :
    Described classes references start properties fields retained (index + 1) (live, next) := by
  refine h.advance hproperties hfields ?_ ?_ ?_
  · intro className isOptional htype
    rw [hsame]
    exact hfield className isOptional htype
  · have hslots : data.retained = slotsAt classes properties fields retained index := h.slots
    have hslot : slotsAt classes properties fields retained index index = retained index :=
      slotsAt_of_le le_rfl
    change next.retained = _
    rw [hretained, hslots, slotsAt_succ, hsame, ← hslot, Function.update_eq_self]
  · intro object
    rw [falls_succ_of_same hindex h.live hsame]
    exact h.live object

/-- The slot of a property is overwritten by the object of its field, which is accepted. -/
theorem Described.overwrite {index : ℕ} {live : Finset ObjectId} {data : InstanceData}
    (h : Described classes references start properties fields retained index (live, data))
    (hsettled : settled classes properties fields retained index = fields index)
    (hstays : ¬ Falls classes references start properties fields retained index (fields index)) :
    Described classes references start properties fields retained (index + 1)
      (releaseSlots classes references data.properties.length
          (Function.update data.retained index (fields index)) {retained index} live,
        { data with retained := Function.update data.retained index (fields index) }) := by
  have hslots : Function.update data.retained index (fields index) =
      slotsAt classes properties fields retained (index + 1) := by
    have hbefore : data.retained = slotsAt classes properties fields retained index := h.slots
    rw [slotsAt_succ, hsettled, hbefore]
  refine h.advance rfl (fun _ _ ↦ rfl) ?_ hslots ?_
  · intro _ _ _
    rw [hsettled]
    exact h.fieldsToDo index le_rfl
  · intro object
    have hcount : data.properties = properties := h.sameProperties
    rw [← hsettled] at hstays
    change object ∈ releaseSlots classes references data.properties.length
      (Function.update data.retained index (fields index)) {retained index} live ↔ _
    rw [mem_releaseSlots_iff, h.live object, hslots, hcount, falls_succ_iff h.live hstays, not_or,
      and_assoc]

/-- An object that is not lost is still found when its property is reached. -/
theorem Described.getInstance_eq {index : ℕ} {live : Finset ObjectId} {data : InstanceData}
    (h : Described classes references start properties fields retained index (live, data))
    (hlive : fields index = 0 ∨ fields index ∈ start)
    (hstays : ¬ Falls classes references start properties fields retained index (fields index)) :
    getInstance live (fields index) = fields index := by
  rw [getInstance]
  by_cases hzero : fields index = 0
  · rw [hzero, ite_self]
  · rw [if_pos]
    exact (h.live _).mpr ⟨hlive.resolve_left hzero, hstays⟩

/-- A property is done as it should be, unless its field is stuck or its object lost. -/
theorem syncProperty_described {index : ℕ} {property : Property} {live : Finset ObjectId}
    {data : InstanceData}
    (h : Described classes references start properties fields retained index (live, data))
    (hproperty : properties[index]? = some property)
    (hlive : ∀ className isOptional,
      typeAt properties index = some (.object className isOptional) →
        fields index = 0 ∨ fields index ∈ start)
    (hstuck : ¬ Stuck classes properties fields retained index)
    (hlost : ¬ Lost classes references start properties fields retained index) :
    Described classes references start properties fields retained (index + 1)
      (syncProperty classes references (live, data) index property) := by
  have hindex : index < properties.length := (List.getElem?_eq_some_iff.mp hproperty).1
  have htypeAt := typeAt_of_getElem? hproperty
  have hfield : data.fields index = fields index := h.fieldsToDo index le_rfl
  have hslot : data.retained index = retained index := h.slotsToDo le_rfl
  cases htype : property.type with
  | value type =>
    rw [htype] at htypeAt
    have hsame : settled classes properties fields retained index = retained index := by
      simp only [settled, htypeAt]
    simp only [syncProperty, htype]
    refine h.keep hindex hsame rfl (fun _ _ ↦ rfl) rfl fun className isOptional hobject ↦ ?_
    rw [htypeAt] at hobject
    cases hobject
  | object className isOptional =>
    rw [htype] at htypeAt
    have hstays :
        ¬ Falls classes references start properties fields retained index (fields index) := by
      intro hfalls
      by_cases hzero : fields index = 0
      · exact not_falls_null (hzero ▸ hfalls)
      · exact hlost ⟨⟨className, isOptional, htypeAt⟩, hzero, hfalls⟩
    have hread := h.getInstance_eq (hlive className isOptional htypeAt) hstays
    simp only [syncProperty, htype, hfield, hslot, hread]
    by_cases hwrong : fields index ≠ 0 ∧ accepts classes className (fields index) = false
    · have hwritten : fromValue isOptional (retained index) = some (retained index) := by
        rw [fromValue, if_neg]
        rintro ⟨hempty, rfl⟩
        exact hstuck ⟨className, htypeAt, hempty, hwrong⟩
      rw [if_pos hwrong, hwritten]
      exact h.keep hindex (settled_of_refused htypeAt hwrong) rfl
        (fun _ hne ↦ Function.update_of_ne hne _ _) rfl fun _ _ _ ↦ Function.update_self ..
    · have haccepted : fields index = 0 ∨ accepts classes className (fields index) = true := by
        by_cases hzero : fields index = 0
        · exact .inl hzero
        · exact .inr (Bool.not_eq_false _ ▸ fun haccepts ↦ hwrong ⟨hzero, haccepts⟩)
      rw [if_neg hwrong]
      exact h.overwrite (settled_of_accepted htypeAt haccepted) hstays

/-! ### The loop -/

theorem syncProperty_frame (scene : Finset ObjectId × InstanceData) (index : ℕ)
    (property : Property) {other : ℕ} (hother : other ≠ index) :
    (syncProperty classes references scene index property).2.fields other = scene.2.fields other ∧
      (syncProperty classes references scene index property).2.retained other =
        scene.2.retained other := by
  obtain ⟨live, data⟩ := scene
  simp only [syncProperty]
  split
  · exact ⟨rfl, rfl⟩
  · split
    · split
      · exact ⟨Function.update_of_ne hother _ _, rfl⟩
      · exact ⟨rfl, rfl⟩
    · exact ⟨rfl, Function.update_of_ne hother _ _⟩

theorem syncProperty_properties (scene : Finset ObjectId × InstanceData) (index : ℕ)
    (property : Property) :
    (syncProperty classes references scene index property).2.properties = scene.2.properties := by
  obtain ⟨live, data⟩ := scene
  simp only [syncProperty]
  split
  · rfl
  · split
    · split <;> rfl
    · rfl

variable (classes references) in
/-- The rest of the loop leaves the properties before it alone. -/
theorem syncFrom_frame (rest : List Property) (index : ℕ)
    (scene : Finset ObjectId × InstanceData) {other : ℕ} (hother : other < index) :
    (syncFrom classes references rest index scene).2.fields other = scene.2.fields other ∧
      (syncFrom classes references rest index scene).2.retained other = scene.2.retained other := by
  induction rest generalizing index scene with
  | nil => exact ⟨rfl, rfl⟩
  | cons property rest ih =>
    obtain ⟨hfields, hretained⟩ := ih (index + 1)
      (syncProperty classes references scene index property) (Nat.lt_succ_of_lt hother)
    obtain ⟨hfield, hslot⟩ := syncProperty_frame scene index property (Nat.ne_of_lt hother)
    exact ⟨hfields.trans hfield, hretained.trans hslot⟩

theorem syncFrom_properties (rest : List Property) (index : ℕ)
    (scene : Finset ObjectId × InstanceData) :
    (syncFrom classes references rest index scene).2.properties = scene.2.properties := by
  induction rest generalizing index scene with
  | nil => rfl
  | cons property rest ih => exact (ih _ _).trans (syncProperty_properties scene index property)

/-- A stuck field and a lost object are not checked, and stay so. -/
theorem syncProperty_unchecked {index : ℕ} {property : Property} {live : Finset ObjectId}
    {data : InstanceData}
    (h : Described classes references start properties fields retained index (live, data))
    (hproperty : properties[index]? = some property)
    (hwrong : Stuck classes properties fields retained index ∨
      Lost classes references start properties fields retained index) :
    ∃ className isOptional, typeAt properties index = some (.object className isOptional) ∧
      ∀ lastLive : Finset ObjectId, ∀ last : InstanceData,
        last.fields index =
          (syncProperty classes references (live, data) index property).2.fields index →
        last.retained index =
          (syncProperty classes references (live, data) index property).2.retained index →
        ¬ SlotChecked classes lastLive last index className := by
  have htypeAt := typeAt_of_getElem? hproperty
  have hfield : data.fields index = fields index := h.fieldsToDo index le_rfl
  have hslot : data.retained index = retained index := h.slotsToDo le_rfl
  by_cases hlost : Lost classes references start properties fields retained index
  · obtain ⟨⟨className, isOptional, hobject⟩, hnonzero, hfalls⟩ := hlost
    have htype : property.type = .object className isOptional := by
      rw [hobject] at htypeAt
      exact (Option.some.inj htypeAt).symm
    have hdead : getInstance live (fields index) = 0 := by
      rw [getInstance, if_neg]
      intro hlive
      exact ((h.live _).mp hlive).2 hfalls
    refine ⟨className, isOptional, hobject, fun lastLive last hlastField hlastSlot hchecked ↦ ?_⟩
    simp only [syncProperty, htype, hfield, hslot, hdead, ne_eq, not_true_eq_false, false_and,
      if_false, Function.update_self] at hlastField hlastSlot
    rw [SlotChecked, hlastField, hlastSlot] at hchecked
    exact hnonzero hchecked.1.symm
  · obtain ⟨className, hobject, hempty, hnonzero, hrefused⟩ := hwrong.resolve_right hlost
    have htype : property.type = .object className false := by
      rw [hobject] at htypeAt
      exact (Option.some.inj htypeAt).symm
    refine ⟨className, false, hobject, fun lastLive last hlastField hlastSlot hchecked ↦ ?_⟩
    have hlastField' : last.fields index = fields index := by
      simp only [syncProperty, htype, hfield, hslot, hempty, fromValue, and_self, if_true]
        at hlastField
      split at hlastField
      · exact hlastField.trans hfield
      · exact hlastField.trans hfield
    rw [SlotChecked, hlastField'] at hchecked
    rcases hchecked.2 with hzero | ⟨-, haccepted⟩
    · exact hnonzero hzero
    · rw [hrefused] at haccepted
      cases haccepted

theorem not_wrong_of_length_le {index : ℕ} (hindex : properties.length ≤ index) :
    ¬ (Stuck classes properties fields retained index ∨
      Lost classes references start properties fields retained index) := by
  have hnone {type : PropertyType} (htype : typeAt properties index = some type) : False := by
    have := typeAt_lt htype
    omega
  rintro (⟨className, htype, -⟩ | ⟨⟨className, isOptional, htype⟩, -⟩)
  · exact hnone htype
  · exact hnone htype

/-- The loop from a property on: it does the rest as it should be, or a field that is stuck or has
lost its object is not checked in the end. -/
theorem syncFrom_cases
    (hlive : ∀ index className isOptional,
      typeAt properties index = some (.object className isOptional) →
        fields index = 0 ∨ fields index ∈ start)
    (rest : List Property) {index : ℕ} {scene : Finset ObjectId × InstanceData}
    (hindex : index ≤ properties.length) (hrest : properties.drop index = rest)
    (h : Described classes references start properties fields retained index scene) :
    (Described classes references start properties fields retained properties.length
        (syncFrom classes references rest index scene) ∧
      ∀ other, index ≤ other → ¬ (Stuck classes properties fields retained other ∨
        Lost classes references start properties fields retained other)) ∨
    ((∃ other, Stuck classes properties fields retained other ∨
        Lost classes references start properties fields retained other) ∧
      ¬ Checked classes (syncFrom classes references rest index scene).1
        (syncFrom classes references rest index scene).2) := by
  induction rest generalizing index scene with
  | nil =>
    have hlength : properties.length ≤ index := List.drop_eq_nil_iff.mp hrest
    have hend : index = properties.length := Nat.le_antisymm hindex hlength
    refine .inl ⟨?_, fun other hother ↦ not_wrong_of_length_le (le_trans hlength hother)⟩
    rw [← hend]
    exact h
  | cons property rest ih =>
    have hproperty : properties[index]? = some property := by
      have hhead := congrArg List.head? hrest
      rwa [List.head?_drop, List.head?_cons] at hhead
    have hlt : index < properties.length := (List.getElem?_eq_some_iff.mp hproperty).1
    have hdrop : properties.drop (index + 1) = rest := by
      rw [← List.tail_drop, hrest, List.tail_cons]
    obtain ⟨live, data⟩ := scene
    by_cases hwrong : Stuck classes properties fields retained index ∨
        Lost classes references start properties fields retained index
    · refine .inr ⟨⟨index, hwrong⟩, fun hchecked ↦ ?_⟩
      obtain ⟨className, isOptional, htype, hunchecked⟩ :=
        syncProperty_unchecked h hproperty hwrong
      have hframe := syncFrom_frame classes references rest (index + 1)
        (syncProperty classes references (live, data) index property) (Nat.lt_succ_self index)
      refine hunchecked _ _ hframe.1 hframe.2 (hchecked index className isOptional ?_)
      have hproperties :
          (syncFrom classes references (property :: rest) index (live, data)).2.properties =
            properties :=
        (syncFrom_properties _ _ _).trans h.sameProperties
      rw [hproperties]
      exact htype
    · obtain ⟨hstuck, hlost⟩ := not_or.mp hwrong
      have hnext := syncProperty_described h hproperty (hlive index) hstuck hlost
      refine (ih hlt hdrop hnext).imp_left fun hdone ↦ ⟨hdone.1, fun other hother ↦ ?_⟩
      by_cases heq : other = index
      · rw [heq]
        exact hwrong
      · exact hdone.2 other (by omega)

/-- Before the loop nothing is done. -/
theorem described_start (data : InstanceData) :
    Described classes references start data.properties data.fields data.retained 0
      (start, data) where
  sameProperties := rfl
  fieldsDone _ hearlier := absurd hearlier (Nat.not_lt_zero _)
  fieldsToDo _ _ := rfl
  slots := slotsAt_zero.symm
  live object := by
    refine (and_iff_left (Freed.not_of_kept ?_ object)).symm
    rintro lost ⟨earlier, hearlier, -⟩
    exact absurd hearlier (Nat.not_lt_zero _)

/-- An instance all of whose properties are done is checked, if what was retained before was. -/
theorem Described.checked {scene : Finset ObjectId × InstanceData}
    (h : Described classes references start properties fields retained properties.length scene)
    (hlive : ∀ index className isOptional,
      typeAt properties index = some (.object className isOptional) →
        fields index = 0 ∨ fields index ∈ start)
    (hretained : ∀ index className isOptional,
      typeAt properties index = some (.object className isOptional) →
        retained index = 0 ∨
          retained index ∈ start ∧ accepts classes className (retained index) = true) :
    Checked classes scene.1 scene.2 := by
  intro index className isOptional htype
  rw [h.sameProperties] at htype
  have hindex := typeAt_lt htype
  have hfield := h.fieldsDone index hindex className isOptional htype
  have hslot := h.slotsDone hindex
  refine ⟨hslot.trans hfield.symm, ?_⟩
  rw [hfield]
  have hsettled : settled classes properties fields retained index = 0 ∨
      settled classes properties fields retained index ∈ start ∧
        accepts classes className (settled classes properties fields retained index) = true := by
    simp only [settled, htype]
    split
    next haccepted =>
      by_cases hzero : fields index = 0
      · exact .inl hzero
      · exact .inr ⟨(hlive index className isOptional htype).resolve_left hzero,
          haccepted.resolve_left hzero⟩
    next => exact hretained index className isOptional htype
  by_cases hzero : settled classes properties fields retained index = 0
  · exact .inl hzero
  · obtain ⟨hstart, haccepted⟩ := hsettled.resolve_left hzero
    refine .inr ⟨(h.live _).mpr ⟨hstart, fun hfalls ↦ ?_⟩, haccepted⟩
    have hkept := hfalls.not_kept
    rw [← hslot, h.slots, isKept_of_slot hindex] at hkept
    cases hkept

variable (classes references start) in
/-- After a synchronisation the instance is checked exactly when no field was stuck and no object
lost. -/
theorem syncRetainedObjects_checked_iff (data : InstanceData)
    (hlive : ∀ index className isOptional,
      typeAt data.properties index = some (.object className isOptional) →
        data.fields index = 0 ∨ data.fields index ∈ start)
    (hretained : ∀ index className isOptional,
      typeAt data.properties index = some (.object className isOptional) →
        data.retained index = 0 ∨
          data.retained index ∈ start ∧
            accepts classes className (data.retained index) = true) :
    Checked classes (syncRetainedObjects classes references start data).1
        (syncRetainedObjects classes references start data).2 ↔
      NoneStuck classes data.properties data.fields data.retained ∧
        NoneLost classes references start data.properties data.fields data.retained := by
  have hstart : Described classes references start data.properties data.fields data.retained 0
      (start, data) := described_start data
  have hcases := syncFrom_cases hlive data.properties (Nat.zero_le _) List.drop_zero hstart
  rcases hcases with ⟨hdone, hright⟩ | ⟨⟨index, hwrong⟩, hunchecked⟩
  · refine iff_of_true (hdone.checked hlive hretained) ⟨fun index hstuck ↦ ?_, fun index hlost ↦ ?_⟩
    · exact hright index (Nat.zero_le _) (.inl hstuck)
    · exact hright index (Nat.zero_le _) (.inr hlost)
  · refine iff_of_false hunchecked ?_
    rintro ⟨hnoneStuck, hnoneLost⟩
    rcases hwrong with hstuck | hlost
    · exact hnoneStuck index hstuck
    · exact hnoneLost index hlost

end Gzscript.Script.Retention
