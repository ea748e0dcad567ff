import Mathlib.Tactic.Common

/-!
# Checked computations

A computation over the numbers of an unsigned type, which are those below its size, and over the
elements of lists. It may refuse what it is given. Apart from that it stops at a step that is not
exact: a sum or a product that is not a number of the type, a difference below zero, an element that
is not there.

Where every step is exact, the computation is `exactly` the one over all numbers. It then has the
same results (`exactly_eq_ok_iff`), and that a step is not exact is excluded (`exactly_ne_inexact`).
-/

set_option autoImplicit false
set_option relaxedAutoImplicit false

namespace Gzscript.Library.CheckedArithmetic

variable {ε α β : Type}

inductive Failure (ε : Type)
  | refused (reason : ε)
  | inexact
  deriving DecidableEq

abbrev Checked (ε : Type) := Except (Failure ε)

def refuse (reason : ε) : Checked ε α := .error (.refused reason)

/-! ### Steps -/

def plus (size first second : ℕ) : Checked ε ℕ :=
  if first + second < size then .ok (first + second) else .error .inexact

def times (size first second : ℕ) : Checked ε ℕ :=
  if first * second < size then .ok (first * second) else .error .inexact

def minus (first second : ℕ) : Checked ε ℕ :=
  if second ≤ first then .ok (first - second) else .error .inexact

def elementAt (elements : List α) (index : ℕ) : Checked ε α :=
  match elements[index]? with
  | some element => .ok element
  | none => .error .inexact

/-- The `count` elements from `start` on. -/
def slice (elements : List α) (start count : ℕ) : Checked ε (List α) :=
  if start + count ≤ elements.length then .ok ((elements.drop start).take count)
  else .error .inexact

theorem plus_of_lt {size first second : ℕ} (h : first + second < size) :
    plus size first second = (.ok (first + second) : Checked ε ℕ) := if_pos h

theorem times_of_lt {size first second : ℕ} (h : first * second < size) :
    times size first second = (.ok (first * second) : Checked ε ℕ) := if_pos h

theorem minus_of_le {first second : ℕ} (h : second ≤ first) :
    minus first second = (.ok (first - second) : Checked ε ℕ) := if_pos h

theorem elementAt_append (before : List α) (element : α) (after : List α) :
    elementAt (before ++ element :: after) before.length = (.ok element : Checked ε α) := by
  have helement : (before ++ element :: after)[before.length]? = some element := by
    rw [List.getElem?_append_right (Nat.le_refl _), Nat.sub_self, List.getElem?_cons_zero]
  rw [elementAt, helement]

theorem length_lt_append (before : List α) (element : α) (after : List α) :
    before.length < (before ++ element :: after).length := by
  rw [List.length_append, List.length_cons]
  omega

theorem slice_of_le {elements : List α} {start count : ℕ}
    (h : start + count ≤ elements.length) :
    slice elements start count =
      (.ok ((elements.drop start).take count) : Checked ε (List α)) := if_pos h

theorem eq_of_plus {size first second result : ℕ}
    (h : plus size first second = (.ok result : Checked ε ℕ)) : result = first + second := by
  rw [plus] at h
  split at h
  · exact (Except.ok.inj h).symm
  · cases h

/-! ### Computations of which every step is exact -/

def exactly : Except ε α → Checked ε α := Except.mapError .refused

theorem exactly_eq_ok_iff {computation : Except ε α} {value : α} :
    exactly computation = .ok value ↔ computation = .ok value := by
  rcases computation with reason | result
  · exact iff_of_false (fun h ↦ by cases h) (fun h ↦ by cases h)
  · constructor
    · intro h
      rw [← Except.ok.inj h]
    · intro h
      rw [Except.ok.inj h]
      rfl

theorem exactly_ne_inexact (computation : Except ε α) :
    exactly computation ≠ .error .inexact := by
  cases computation <;> nofun

end Gzscript.Library.CheckedArithmetic
