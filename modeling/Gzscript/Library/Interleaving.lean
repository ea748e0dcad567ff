import Gzscript.Library.Transition
import Mathlib.Data.List.Basic

/-!
# Interleavings of two independent clients

Two clients send operations to one machine. An interleaving of their two lists is a list of tagged
operations whose parts are the two lists (`Interleaves`). States are compared by a relation
`similar` that steps and results respect, so that data which depends on the order without being
observed can be left out. `Independent` is what is asked of one operation of each client: in either
order they lead to similar states, and neither changes the result of the other.

Then the order of the clients is not observable: every interleaving ends in a state similar to the
one after the first list and then the second (`exec_interleaving`), and gives each client the
results it gets alone (`leftResults_interleaving`, `rightResults_interleaving`).
-/

set_option autoImplicit false
set_option relaxedAutoImplicit false

namespace Gzscript.Library.Interleaving

open Library.Transition

variable {State Op Result : Type*}

/-- The operations of a tagged list, in order. -/
def untagged (merged : List (Op ⊕ Op)) : List Op :=
  merged.map (Sum.elim id id)

/-- The operations of the first client. -/
def lefts {α β : Type*} (merged : List (α ⊕ β)) : List α :=
  merged.filterMap Sum.getLeft?

/-- The operations of the second client. -/
def rights {α β : Type*} (merged : List (α ⊕ β)) : List β :=
  merged.filterMap Sum.getRight?

/-- A tagged list is an interleaving of the two lists it consists of. -/
def Interleaves (merged : List (Op ⊕ Op)) (first second : List Op) : Prop :=
  lefts merged = first ∧ rights merged = second

@[simp] theorem lefts_inl {α β : Type*} (element : α) (merged : List (α ⊕ β)) :
    lefts (.inl element :: merged) = element :: lefts merged := rfl

@[simp] theorem lefts_inr {α β : Type*} (element : β) (merged : List (α ⊕ β)) :
    lefts (.inr element :: merged) = lefts merged := rfl

@[simp] theorem rights_inl {α β : Type*} (element : α) (merged : List (α ⊕ β)) :
    rights (.inl element :: merged) = rights merged := rfl

@[simp] theorem rights_inr {α β : Type*} (element : β) (merged : List (α ⊕ β)) :
    rights (.inr element :: merged) = element :: rights merged := rfl

variable (step : State → Op → State) (result : State → Op → Result)

/-- The results of a list of operations. -/
def results : State → List Op → List Result
  | _, [] => []
  | state, op :: ops => result state op :: results (step state op) ops

/-- The results of an interleaving, each with the tag of its operation. -/
def taggedResults : State → List (Op ⊕ Op) → List (Result ⊕ Result)
  | _, [] => []
  | state, .inl op :: merged => .inl (result state op) :: taggedResults (step state op) merged
  | state, .inr op :: merged => .inr (result state op) :: taggedResults (step state op) merged

/-- A relation between states that no operation and no result can tell apart. -/
structure Congruence (similar : State → State → Prop) : Prop where
  equivalence : Equivalence similar
  onStep : ∀ state state' op, similar state state' → similar (step state op) (step state' op)
  onResult : ∀ state state' op, similar state state' → result state op = result state' op

/-- An operation of each client that do not see each other. -/
structure Independent (similar : State → State → Prop) (left right : Op) : Prop where
  commute : ∀ state, similar (step (step state right) left) (step (step state left) right)
  leftResult : ∀ state, result (step state right) left = result state left
  rightResult : ∀ state, result (step state left) right = result state right

variable {step result} {similar : State → State → Prop}

theorem exec_congr (hsimilar : Congruence step result similar) {state state' : State}
    (h : similar state state') (ops : List Op) :
    similar (exec step state ops) (exec step state' ops) := by
  induction ops generalizing state state' with
  | nil => exact h
  | cons op ops ih => exact ih (hsimilar.onStep state state' op h)

theorem results_congr (hsimilar : Congruence step result similar) {state state' : State}
    (h : similar state state') (ops : List Op) :
    results step result state ops = results step result state' ops := by
  induction ops generalizing state state' with
  | nil => rfl
  | cons op ops ih =>
    rw [results, results, hsimilar.onResult state state' op h,
      ih (hsimilar.onStep state state' op h)]

/-- An operation of the second client moves behind the operations of the first. -/
theorem exec_commute (hsimilar : Congruence step result similar) {ops : List Op} {other : Op}
    (hindependent : ∀ op ∈ ops, Independent step result similar op other) (state : State) :
    similar (exec step (step state other) ops) (step (exec step state ops) other) := by
  induction ops generalizing state with
  | nil => exact hsimilar.equivalence.refl _
  | cons op ops ih =>
    have hop := (hindependent op List.mem_cons_self).commute state
    have hrest := ih (fun next hnext ↦ hindependent next (List.mem_cons_of_mem op hnext))
      (step state op)
    exact hsimilar.equivalence.trans (exec_congr hsimilar hop ops) hrest

/-- An operation of the second client does not change the results of the first. -/
theorem results_left (hsimilar : Congruence step result similar) {ops : List Op} {other : Op}
    (hindependent : ∀ op ∈ ops, Independent step result similar op other) (state : State) :
    results step result (step state other) ops = results step result state ops := by
  induction ops generalizing state with
  | nil => rfl
  | cons op ops ih =>
    have hop := hindependent op List.mem_cons_self
    rw [results, results, hop.leftResult, results_congr hsimilar (hop.commute state) ops,
      ih (fun next hnext ↦ hindependent next (List.mem_cons_of_mem op hnext))]

/-- An operation of the first client does not change the results of the second. -/
theorem results_right (hsimilar : Congruence step result similar) {ops : List Op}
    {other : Op} (hindependent : ∀ op ∈ ops, Independent step result similar other op)
    (state : State) :
    results step result (step state other) ops = results step result state ops := by
  refine results_left hsimilar (fun op hop ↦ ?_) state
  have h := hindependent op hop
  exact ⟨fun before ↦ hsimilar.equivalence.symm (h.commute before), h.rightResult, h.leftResult⟩

/-- The operations of two clients are independent, each of one and each of the other. -/
def IndependentClients (step : State → Op → State) (result : State → Op → Result)
    (similar : State → State → Prop) (first second : List Op) : Prop :=
  ∀ left ∈ first, ∀ right ∈ second, Independent step result similar left right

/-- Every interleaving of independent clients ends as one client after the other. -/
theorem exec_interleaving (hsimilar : Congruence step result similar)
    (merged : List (Op ⊕ Op))
    (hindependent : IndependentClients step result similar (lefts merged) (rights merged))
    (state : State) :
    similar (exec step state (untagged merged))
      (exec step (exec step state (lefts merged)) (rights merged)) := by
  induction merged generalizing state with
  | nil => exact hsimilar.equivalence.refl state
  | cons tagged merged ih =>
    cases tagged with
    | inl op =>
      exact ih (fun left hleft ↦ hindependent left (List.mem_cons_of_mem op hleft))
        (step state op)
    | inr op =>
      have hrest := ih (fun left hleft right hright ↦
        hindependent left hleft right (List.mem_cons_of_mem op hright)) (step state op)
      have hmoved := exec_commute hsimilar
        (fun left hleft ↦ hindependent left hleft op List.mem_cons_self) state
      exact hsimilar.equivalence.trans hrest (exec_congr hsimilar hmoved (rights merged))

/-- In every interleaving of independent clients the first one gets the results it gets alone. -/
theorem leftResults_interleaving (hsimilar : Congruence step result similar)
    (merged : List (Op ⊕ Op))
    (hindependent : IndependentClients step result similar (lefts merged) (rights merged))
    (state : State) :
    lefts (taggedResults step result state merged) =
      results step result state (lefts merged) := by
  induction merged generalizing state with
  | nil => rfl
  | cons tagged merged ih =>
    cases tagged with
    | inl op =>
      rw [taggedResults, lefts_inl, lefts_inl, results,
        ih (fun left hleft ↦ hindependent left (List.mem_cons_of_mem op hleft))]
    | inr op =>
      rw [taggedResults, lefts_inr, lefts_inr, ih (fun left hleft right hright ↦
        hindependent left hleft right (List.mem_cons_of_mem op hright))]
      exact results_left hsimilar
        (fun left hleft ↦ hindependent left hleft op List.mem_cons_self) state

/-- In every interleaving of independent clients the second one gets the results it gets alone. -/
theorem rightResults_interleaving (hsimilar : Congruence step result similar)
    (merged : List (Op ⊕ Op))
    (hindependent : IndependentClients step result similar (lefts merged) (rights merged))
    (state : State) :
    rights (taggedResults step result state merged) =
      results step result state (rights merged) := by
  induction merged generalizing state with
  | nil => rfl
  | cons tagged merged ih =>
    cases tagged with
    | inl op =>
      rw [taggedResults, rights_inl, rights_inl,
        ih (fun left hleft ↦ hindependent left (List.mem_cons_of_mem op hleft))]
      exact results_right hsimilar
        (fun right hright ↦ hindependent op List.mem_cons_self right hright) state
    | inr op =>
      rw [taggedResults, rights_inr, rights_inr, results, ih (fun left hleft right hright ↦
        hindependent left hleft right (List.mem_cons_of_mem op hright))]

end Gzscript.Library.Interleaving
