import Mathlib.Data.List.Forall2

/-!
# Computations that can fail

What is known of the parts of a computation in `Except` that has succeeded. `bind_eq_ok` takes a
sequence apart, `mem_mapM_iff` and `exists_of_mapM_eq_ok` say that the results are those of the
elements, and `foldlM_invariant` carries a property through a loop. Where all parts succeed the
whole does (`mapM_succeeds`, `foldlM_succeeds`), and where it fails one of them did
(`bind_eq_error`, `foldlM_eq_error`). `Meets` is the triple of a computation that may fail in some
ways and not in others, with its rules for a sequence (`meets_bind`) and a counted loop
(`meets_foldlM_range`).
-/

set_option autoImplicit false
set_option relaxedAutoImplicit false

namespace Gzscript.Library.Fallible

variable {ε α β : Type}

theorem bind_eq_ok {computation : Except ε α} {next : α → Except ε β} {result : β} :
    (computation >>= next) = .ok result ↔
      ∃ value, computation = .ok value ∧ next value = .ok result := by
  rcases computation with error | value
  · refine iff_of_false (fun h ↦ ?_) ?_
    · exact absurd h (by simp [bind, Except.bind])
    · rintro ⟨value, hvalue, -⟩
      cases hvalue
  · constructor
    · exact fun h ↦ ⟨value, rfl, h⟩
    · rintro ⟨other, hother, h⟩
      cases hother
      exact h

/-- A sequence fails where one of its parts does. -/
theorem bind_eq_error {computation : Except ε α} {next : α → Except ε β} {error : ε} :
    (computation >>= next) = .error error ↔
      computation = .error error ∨
        ∃ value, computation = .ok value ∧ next value = .error error := by
  rcases computation with failure | value
  · simp [bind, Except.bind]
  · simp [bind, Except.bind]

theorem mapM_eq_ok {f : α → Except ε β} {elements : List α} {results : List β}
    (h : elements.mapM f = .ok results) :
    List.Forall₂ (fun element result ↦ f element = .ok result) elements results := by
  induction elements generalizing results with
  | nil =>
    rw [List.mapM_nil] at h
    obtain rfl := Except.ok.inj h
    exact .nil
  | cons element elements ih =>
    rw [List.mapM_cons] at h
    obtain ⟨result, hresult, h⟩ := bind_eq_ok.mp h
    obtain ⟨rest, hrest, h⟩ := bind_eq_ok.mp h
    obtain rfl := Except.ok.inj h
    exact .cons hresult (ih hrest)

/-- What is seen of the results is what is known of the elements. -/
theorem map_mapM_eq {γ : Type} {f : α → Except ε β} {seen : β → γ} {known : α → γ}
    (hf : ∀ element result, f element = .ok result → seen result = known element)
    {elements : List α} {results : List β} (h : elements.mapM f = .ok results) :
    results.map seen = elements.map known := by
  have hall := mapM_eq_ok h
  clear h
  induction hall with
  | nil => rfl
  | cons hvalue _ ih => rw [List.map_cons, List.map_cons, ih, hf _ _ hvalue]

/-- The results are those of the elements. -/
theorem mem_mapM_iff {f : α → Except ε β} {elements : List α} {results : List β}
    (h : elements.mapM f = .ok results) (result : β) :
    result ∈ results ↔ ∃ element ∈ elements, f element = .ok result := by
  have hall := mapM_eq_ok h
  clear h
  induction hall with
  | nil => simp only [List.not_mem_nil, false_and, exists_false]
  | @cons element value elements results hvalue _ ih =>
    rw [List.mem_cons]
    constructor
    · rintro (rfl | hrest)
      · exact ⟨element, List.mem_cons_self, hvalue⟩
      · obtain ⟨other, hother, heq⟩ := ih.mp hrest
        exact ⟨other, List.mem_cons_of_mem element hother, heq⟩
    · rintro ⟨other, hother, heq⟩
      obtain rfl | hmem := List.mem_cons.mp hother
      · exact .inl (Except.ok.inj (heq.symm.trans hvalue))
      · exact .inr (ih.mpr ⟨other, hmem, heq⟩)

/-- Every element has a result. -/
theorem exists_of_mapM_eq_ok {f : α → Except ε β} {elements : List α} {results : List β}
    (h : elements.mapM f = .ok results) {element : α} (hmem : element ∈ elements) :
    ∃ result ∈ results, f element = .ok result := by
  have hall := mapM_eq_ok h
  clear h
  induction hall with
  | nil => exact absurd hmem List.not_mem_nil
  | @cons first value elements results hvalue _ ih =>
    obtain rfl | hrest := List.mem_cons.mp hmem
    · exact ⟨value, List.mem_cons_self, hvalue⟩
    · obtain ⟨result, hresult, heq⟩ := ih hrest
      exact ⟨result, List.mem_cons_of_mem value hresult, heq⟩

/-- Where the function succeeds for every element, it does for the list. -/
theorem mapM_succeeds {f : α → Except ε β} {elements : List α}
    (h : ∀ element ∈ elements, ∃ result, f element = .ok result) :
    ∃ results, elements.mapM f = .ok results := by
  induction elements with
  | nil => exact ⟨[], List.mapM_nil⟩
  | cons element elements ih =>
    obtain ⟨result, hresult⟩ := h element List.mem_cons_self
    obtain ⟨results, hresults⟩ :=
      ih fun other hother ↦ h other (List.mem_cons_of_mem element hother)
    refine ⟨result :: results, ?_⟩
    rw [List.mapM_cons]
    exact bind_eq_ok.mpr ⟨result, hresult, bind_eq_ok.mpr ⟨results, hresults, rfl⟩⟩

/-- A loop each of whose passes succeeds does. -/
theorem foldlM_succeeds {f : β → α → Except ε β} {elements : List α}
    (h : ∀ state, ∀ element ∈ elements, ∃ next, f state element = .ok next) (start : β) :
    ∃ result, elements.foldlM f start = .ok result := by
  induction elements generalizing start with
  | nil => exact ⟨start, List.foldlM_nil⟩
  | cons element elements ih =>
    obtain ⟨next, hnext⟩ := h start element List.mem_cons_self
    obtain ⟨result, hresult⟩ :=
      ih (fun state other hother ↦ h state other (List.mem_cons_of_mem element hother)) next
    refine ⟨result, ?_⟩
    rw [List.foldlM_cons]
    exact bind_eq_ok.mpr ⟨next, hnext, hresult⟩

/-- A loop fails with the error of one of its passes. -/
theorem foldlM_eq_error {f : β → α → Except ε β} {elements : List α} {start : β} {error : ε}
    (h : elements.foldlM f start = .error error) :
    ∃ state, ∃ element ∈ elements, f state element = .error error := by
  induction elements generalizing start with
  | nil => exact absurd h (by simp [pure, Except.pure])
  | cons element elements ih =>
    rw [List.foldlM_cons] at h
    obtain hfirst | ⟨next, -, hrest⟩ := bind_eq_error.mp h
    · exact ⟨start, element, List.mem_cons_self, hfirst⟩
    · obtain ⟨state, other, hother, herror⟩ := ih hrest
      exact ⟨state, other, List.mem_cons_of_mem element hother, herror⟩

/-- What every pass of a loop keeps holds after it. -/
theorem foldlM_invariant {f : β → α → Except ε β} (property : β → Prop) {elements : List α}
    (hstep : ∀ state element next, element ∈ elements → property state →
      f state element = .ok next → property next)
    {start result : β} (hstart : property start) (h : elements.foldlM f start = .ok result) :
    property result := by
  induction elements generalizing start with
  | nil =>
    rw [List.foldlM_nil] at h
    obtain rfl := Except.ok.inj h
    exact hstart
  | cons element elements ih =>
    rw [List.foldlM_cons] at h
    obtain ⟨next, hnext, h⟩ := bind_eq_ok.mp h
    refine ih (fun state other after hmem ↦ hstep state other after ?_) ?_ h
    · exact List.mem_cons_of_mem element hmem
    · exact hstep start element next List.mem_cons_self hstart hnext

/-- Where every pass of a loop takes a state on, the result is one that each pass is taken on to. -/
theorem foldlM_reaches {f : β → α → Except ε β} {relation : β → β → Prop}
    (hrefl : ∀ state, relation state state)
    (htrans : ∀ first second third, relation first second → relation second third →
      relation first third)
    (hstep : ∀ state element next, f state element = .ok next → relation state next)
    {elements : List α} {start result : β} (h : elements.foldlM f start = .ok result) :
    relation start result ∧ ∀ element ∈ elements, ∃ state next,
      f state element = .ok next ∧ relation next result := by
  induction elements generalizing start with
  | nil =>
    rw [List.foldlM_nil] at h
    obtain rfl := Except.ok.inj h
    exact ⟨hrefl _, fun _ hmem ↦ absurd hmem List.not_mem_nil⟩
  | cons first elements ih =>
    rw [List.foldlM_cons] at h
    obtain ⟨next, hnext, h⟩ := bind_eq_ok.mp h
    obtain ⟨hresult, hlater⟩ := ih h
    refine ⟨htrans _ _ _ (hstep _ _ _ hnext) hresult, fun element hmem ↦ ?_⟩
    obtain rfl | hrest := List.mem_cons.mp hmem
    · exact ⟨start, next, hnext, hresult⟩
    · exact hlater element hrest

/-- The computation fails in an allowed way at most, and its result meets the condition. -/
def Meets (allowed : ε → Prop) (condition : α → Prop) : Except ε α → Prop
  | .error error => allowed error
  | .ok value => condition value

section Meets

variable {allowed : ε → Prop} {condition : α → Prop} {computation : Except ε α}

theorem meets_bind {next : α → Except ε β} {after : β → Prop}
    (hfirst : Meets allowed condition computation)
    (hnext : ∀ value, condition value → Meets allowed after (next value)) :
    Meets allowed after (computation >>= next) := by
  rcases computation with error | value
  · exact hfirst
  · exact hnext value hfirst

theorem meets_mono {weaker : α → Prop} (h : Meets allowed condition computation)
    (hweaker : ∀ value, condition value → weaker value) : Meets allowed weaker computation := by
  rcases computation with error | value
  · exact h
  · exact hweaker value h

/-- A counted loop: what each pass takes on by one holds of the count after it. -/
theorem meets_foldlM_range {f : α → ℕ → Except ε α} (invariant : ℕ → α → Prop) {start : α}
    (hstart : invariant 0 start) (count : ℕ)
    (hstep : ∀ index < count, ∀ state, invariant index state →
      Meets allowed (invariant (index + 1)) (f state index)) :
    Meets allowed (invariant count) ((List.range count).foldlM f start) := by
  induction count with
  | zero => exact hstart
  | succ count ih =>
    rw [List.range_succ, List.foldlM_append]
    refine meets_bind (ih fun index hindex ↦ hstep index (Nat.lt_succ_of_lt hindex)) ?_
    intro state hstate
    rw [List.foldlM_cons]
    exact meets_bind (hstep count (Nat.lt_succ_self count) state hstate) fun next hnext ↦ hnext

theorem not_error_of_meets (h : Meets allowed condition computation) {error : ε}
    (herror : ¬ allowed error) : computation ≠ .error error := by
  rintro rfl
  exact herror h

theorem of_meets (h : Meets allowed condition computation) {value : α}
    (hvalue : computation = .ok value) : condition value := by
  subst hvalue
  exact h

end Meets

/-- A computation that succeeds has a result, with what is computed of it. -/
theorem exists_of_any {computation : Except ε α} {property : α → Bool}
    (h : computation.toOption.any property = true) :
    ∃ value, computation = .ok value ∧ property value = true := by
  rcases computation with error | value
  · exact absurd h Bool.false_ne_true
  · exact ⟨value, rfl, h⟩

end Gzscript.Library.Fallible
