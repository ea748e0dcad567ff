import Mathlib.Data.Set.Card

/-!
# Shared pointers

Slots hold objects, and every object has a use count. A slot is made to hold another value by
`assign` and by `move`, which raise and lower the counts and hand back the object that they destroy.
The counts are `Exact` when they are the numbers of slots that hold each object. Both operations
keep them so, and they destroy an object exactly when it was held before and no slot holds it
afterwards (`Exact.assign_destroyed`, `Exact.move_destroyed`).
-/

set_option autoImplicit false
set_option relaxedAutoImplicit false

namespace Gzscript.Library.SharedPointers

variable {Slot Object : Type*}

structure Pointers (Slot Object : Type*) where
  held : Slot → Option Object
  useCount : Object → ℕ

namespace Pointers

def empty : Pointers Slot Object := ⟨fun _ ↦ none, fun _ ↦ 0⟩

def IsHeld (pointers : Pointers Slot Object) (object : Object) : Prop :=
  ∃ slot, pointers.held slot = some object

def users (held : Slot → Option Object) (object : Object) : Set Slot :=
  {slot | held slot = some object}

/-- The use count of each object is the number of slots that hold it. -/
def Exact (pointers : Pointers Slot Object) : Prop :=
  ∀ object, (users pointers.held object).encard = pointers.useCount object

theorem exact_empty : Exact (empty : Pointers Slot Object) := by
  intro object
  simp [users, empty]

variable {pointers : Pointers Slot Object}

theorem Exact.useCount_eq_zero (h : pointers.Exact) (object : Object) :
    pointers.useCount object = 0 ↔ ¬ pointers.IsHeld object := by
  have hempty : users pointers.held object = ∅ ↔ ¬ pointers.IsHeld object := by
    rw [Set.eq_empty_iff_forall_notMem, IsHeld, not_exists]
    rfl
  rw [← hempty, ← Set.encard_eq_zero, h object]
  exact_mod_cast Iff.rfl

theorem Exact.useCount_pos (h : pointers.Exact) (object : Object) :
    0 < pointers.useCount object ↔ pointers.IsHeld object := by
  rw [Nat.pos_iff_ne_zero, Ne, h.useCount_eq_zero, not_not]

/-- Users that are counted are finitely many. -/
theorem eq_sub_of_add_eq {users : ℕ∞} {count gained lost : ℕ}
    (h : users + lost = (count + gained : ℕ)) : users = (count + gained - lost : ℕ) := by
  have hfinite : users ≠ ⊤ := by
    intro htop
    rw [htop, top_add] at h
    exact ENat.top_ne_natCast _ h
  lift users to ℕ using hfinite
  have hsum : users + lost = count + gained := by exact_mod_cast h
  have hdifference : users = count + gained - lost := by omega
  rw [hdifference]

/-! ### Counting users -/

variable [DecidableEq Object]

def retain (pointers : Pointers Slot Object) : Option Object → Pointers Slot Object
  | none => pointers
  | some object =>
    { pointers with
      useCount := Function.update pointers.useCount object (pointers.useCount object + 1) }

/-- The last user of an object destroys it. -/
def release (pointers : Pointers Slot Object) :
    Option Object → Pointers Slot Object × Option Object
  | none => (pointers, none)
  | some object =>
    ({ pointers with
        useCount := Function.update pointers.useCount object (pointers.useCount object - 1) },
      if pointers.useCount object = 1 then some object else none)

variable (pointers)

@[simp] theorem held_release (object : Option Object) :
    (pointers.release object).1.held = pointers.held := by
  cases object <;> rfl

/-- One, if a value is the object. -/
def share (value : Option Object) (object : Object) : ℕ := if value = some object then 1 else 0

theorem useCount_retain (value : Option Object) (object : Object) :
    (pointers.retain value).useCount object = pointers.useCount object + share value object := by
  cases value with
  | none => simp [retain, share]
  | some kept =>
    by_cases heq : object = kept
    · subst heq
      simp [retain, share]
    · simp [retain, share, Function.update_of_ne heq, Ne.symm heq]

theorem useCount_release (value : Option Object) (object : Object) :
    (pointers.release value).1.useCount object =
      pointers.useCount object - share value object := by
  cases value with
  | none => simp [release, share]
  | some dropped =>
    by_cases heq : object = dropped
    · subst heq
      simp [release, share]
    · simp [release, share, Function.update_of_ne heq, Ne.symm heq]

theorem release_destroyed (value : Option Object) (object : Object) :
    (pointers.release value).2 = some object ↔
      0 < pointers.useCount object ∧ (pointers.release value).1.useCount object = 0 := by
  rw [useCount_release]
  cases value with
  | none => simp [release, share, Nat.pos_iff_ne_zero]
  | some dropped =>
    by_cases heq : dropped = object
    · subst heq
      simp only [release, share, if_true, Option.ite_none_right_eq_some, and_true]
      omega
    · simp [release, share, heq, Nat.pos_iff_ne_zero]

/-! ### Writing a slot -/

variable [DecidableEq Slot]

def put (pointers : Pointers Slot Object) (slot : Slot) (value : Option Object) :
    Pointers Slot Object :=
  { pointers with held := Function.update pointers.held slot value }

/-- A slot becomes another user of a value, and what it held is released. -/
def assign (pointers : Pointers Slot Object) (slot : Slot) (value : Option Object) :
    Pointers Slot Object × Option Object :=
  ((pointers.retain value).put slot value).release (pointers.held slot)

/-- What one slot holds passes to another, and what that one held is released. -/
def move (pointers : Pointers Slot Object) (target source : Slot) :
    Pointers Slot Object × Option Object :=
  ((pointers.put source none).put target (pointers.held source)).release (pointers.held target)

@[simp] theorem held_assign (slot : Slot) (value : Option Object) :
    (pointers.assign slot value).1.held = Function.update pointers.held slot value := by
  rw [assign, held_release]
  cases value <;> rfl

@[simp] theorem held_move (target source : Slot) :
    (pointers.move target source).1.held =
      Function.update (Function.update pointers.held source none) target
        (pointers.held source) := by
  rw [move, held_release, put, put]

/-- A slot that is written has one user more of what it holds then, and one less of what it held. -/
theorem encard_users_update (held : Slot → Option Object) (slot : Slot) (value : Option Object)
    (object : Object) :
    (users (Function.update held slot value) object).encard + share (held slot) object =
      (users held object).encard + share value object := by
  by_cases hvalue : value = some object
  · have hafter : users (Function.update held slot value) object =
        insert slot (users held object) := by
      ext other
      by_cases heq : other = slot
      · simp [users, heq, hvalue]
      · simp [users, heq]
    rw [hafter]
    by_cases hbefore : held slot = some object
    · have hmem : slot ∈ users held object := hbefore
      rw [Set.insert_eq_of_mem hmem, hbefore, hvalue]
    · have hmem : slot ∉ users held object := hbefore
      rw [Set.encard_insert_of_notMem hmem]
      simp [share, hbefore, hvalue]
  · have hafter : users (Function.update held slot value) object = users held object \ {slot} := by
      ext other
      by_cases heq : other = slot
      · simp [users, heq, hvalue]
      · simp [users, heq]
    rw [hafter]
    by_cases hbefore : held slot = some object
    · have hmem : slot ∈ users held object := hbefore
      simp [share, hbefore, hvalue, Set.encard_sdiff_singleton_add_one hmem]
    · have hmem : slot ∉ users held object := hbefore
      simp [share, hbefore, hvalue, Set.sdiff_singleton_eq_self hmem]

variable {pointers}

/-- What is held after a slot is written was held before, or is what was written. -/
theorem isHeld_of_assign {slot : Slot} {value : Option Object} {object : Object}
    (h : (pointers.assign slot value).1.IsHeld object) :
    value = some object ∨ pointers.IsHeld object := by
  obtain ⟨other, hother⟩ := h
  rw [held_assign] at hother
  by_cases heq : other = slot
  · rw [heq, Function.update_self] at hother
    exact .inl hother
  · rw [Function.update_of_ne heq] at hother
    exact .inr ⟨other, hother⟩

theorem isHeld_of_move {target source : Slot} {object : Object}
    (h : (pointers.move target source).1.IsHeld object) : pointers.IsHeld object := by
  obtain ⟨other, hother⟩ := h
  rw [held_move] at hother
  by_cases htarget : other = target
  · rw [htarget, Function.update_self] at hother
    exact ⟨source, hother⟩
  · rw [Function.update_of_ne htarget] at hother
    by_cases hsource : other = source
    · rw [hsource, Function.update_self] at hother
      cases hother
    · rw [Function.update_of_ne hsource] at hother
      exact ⟨other, hother⟩

theorem Exact.assign (h : pointers.Exact) (slot : Slot) (value : Option Object) :
    (pointers.assign slot value).1.Exact := by
  intro object
  have hcount : (pointers.assign slot value).1.useCount object =
      pointers.useCount object + share value object - share (pointers.held slot) object := by
    rw [Pointers.assign, useCount_release, put, useCount_retain]
  rw [held_assign, hcount]
  apply eq_sub_of_add_eq
  rw [encard_users_update, h object]
  push_cast
  rfl

theorem Exact.move (h : pointers.Exact) {target source : Slot} (hne : target ≠ source) :
    (pointers.move target source).1.Exact := by
  intro object
  have hcount : (pointers.move target source).1.useCount object =
      pointers.useCount object + 0 - share (pointers.held target) object := by
    rw [Pointers.move, useCount_release, put, put, Nat.add_zero]
  have hsource := encard_users_update pointers.held source none object
  have htarget := encard_users_update (Function.update pointers.held source none) target
    (pointers.held source) object
  rw [Function.update_of_ne hne] at htarget
  rw [held_move, hcount]
  apply eq_sub_of_add_eq
  rw [htarget, hsource, h object]
  simp [share]

theorem Exact.assign_destroyed (h : pointers.Exact) (slot : Slot) (value : Option Object)
    (object : Object) :
    (pointers.assign slot value).2 = some object ↔
      pointers.IsHeld object ∧ ¬ (pointers.assign slot value).1.IsHeld object := by
  rw [← (h.assign slot value).useCount_eq_zero, ← h.useCount_pos, Pointers.assign,
    release_destroyed]
  refine and_congr_left fun hzero ↦ ?_
  rw [useCount_release, put, useCount_retain] at hzero
  rw [put, useCount_retain]
  constructor
  · intro hpositive
    rw [h.useCount_pos]
    by_cases hheld : pointers.held slot = some object
    · exact ⟨slot, hheld⟩
    · rw [share, share, if_neg hheld] at hzero
      rw [share] at hpositive
      omega
  · intro hpositive
    exact Nat.lt_of_lt_of_le hpositive (Nat.le_add_right _ _)

theorem Exact.move_destroyed (h : pointers.Exact) {target source : Slot} (hne : target ≠ source)
    (object : Object) :
    (pointers.move target source).2 = some object ↔
      pointers.IsHeld object ∧ ¬ (pointers.move target source).1.IsHeld object := by
  rw [← (h.move hne).useCount_eq_zero, ← h.useCount_pos, Pointers.move, release_destroyed, put, put]

end Pointers

end Gzscript.Library.SharedPointers
