import Mathlib.Data.List.Basic

/-!
# Runs of a deterministic machine

A machine is a step function on a state and an operation. `exec` runs a list of operations,
`exec_append` splits a run at a point, and every statement about a whole run is derived from a
statement about one step: `exec_invariant` for a predicate every step keeps, `exec_relation` for a
reflexive and transitive relation every step respects, and `exec_along` for a predicate kept by the
steps that meet a condition (`forall_exec_iff_along` when it is kept by no others). `Along` says
that every step of a run meets such a condition in the state it is taken from; `along_append` and
`along_iff_split` move it between a run and its parts. A log is `Lawful` if every entry may come
after the ones before it.
-/

set_option autoImplicit false
set_option relaxedAutoImplicit false

namespace Gzscript.Library.Transition

variable {State Op : Type*}

/-- The state after a list of operations, taken one after the other. -/
def exec (step : State → Op → State) (start : State) (ops : List Op) : State :=
  ops.foldl step start

variable (step : State → Op → State)

@[simp] theorem exec_nil (start : State) : exec step start [] = start := rfl

@[simp] theorem exec_cons (start : State) (op : Op) (ops : List Op) :
    exec step start (op :: ops) = exec step (step start op) ops := rfl

@[simp] theorem exec_append (start : State) (first second : List Op) :
    exec step start (first ++ second) = exec step (exec step start first) second :=
  List.foldl_append

/-- The last operation of a run acts on the state the rest of the run reached. -/
theorem exec_concat (start : State) (ops : List Op) (op : Op) :
    exec step start (ops ++ [op]) = step (exec step start ops) op := by
  rw [exec_append, exec_cons, exec_nil]

/-- A condition on a state and the operation taken from it holds at every step of a run. -/
def Along (condition : State → Op → Prop) : State → List Op → Prop
  | _, [] => True
  | start, op :: ops => condition start op ∧ Along condition (step start op) ops

@[simp] theorem along_nil (condition : State → Op → Prop) (start : State) :
    Along step condition start [] := trivial

@[simp] theorem along_cons (condition : State → Op → Prop) (start : State) (op : Op)
    (ops : List Op) : Along step condition start (op :: ops) ↔
      condition start op ∧ Along step condition (step start op) ops := Iff.rfl

instance decidableAlong (condition : State → Op → Prop)
    [∀ state op, Decidable (condition state op)] :
    ∀ start ops, Decidable (Along step condition start ops)
  | _, [] => .isTrue trivial
  | start, op :: ops =>
    have := decidableAlong condition (step start op) ops
    inferInstanceAs (Decidable (condition start op ∧ Along step condition (step start op) ops))

theorem along_append (condition : State → Op → Prop) (start : State) (first second : List Op) :
    Along step condition start (first ++ second) ↔
      Along step condition start first ∧
        Along step condition (exec step start first) second := by
  induction first generalizing start with
  | nil => simp
  | cons op ops ih => simp only [List.cons_append, along_cons, ih, exec_cons, and_assoc]

/-- A condition holds along a run exactly when it holds at every point the run can be split at. -/
theorem along_iff_split (condition : State → Op → Prop) (start : State) (ops : List Op) :
    Along step condition start ops ↔
      ∀ before op after, ops = before ++ op :: after →
        condition (exec step start before) op := by
  constructor
  · rintro halong before op after rfl
    exact ((along_append step condition start before (op :: after)).mp halong).2.1
  · intro hsplit
    induction ops generalizing start with
    | nil => trivial
    | cons op ops ih =>
      refine ⟨hsplit [] op ops rfl, ih (step start op) fun before next after heq ↦ ?_⟩
      exact hsplit (op :: before) next after (by rw [heq, List.cons_append])

/-- A predicate kept by every step that meets a condition holds at the end of a run all of whose
steps meet it. -/
theorem exec_along (condition : State → Op → Prop) (property : State → Prop)
    (hstep : ∀ state op, condition state op → property state → property (step state op))
    {start : State} {ops : List Op} (halong : Along step condition start ops)
    (hstart : property start) : property (exec step start ops) := by
  induction ops generalizing start with
  | nil => exact hstart
  | cons op ops ih => exact ih halong.2 (hstep start op halong.1 hstart)

/-- A predicate kept by every step holds at the end of every run that starts in it. -/
theorem exec_invariant (property : State → Prop)
    (hstep : ∀ state op, property state → property (step state op))
    {start : State} (hstart : property start) (ops : List Op) :
    property (exec step start ops) := by
  induction ops generalizing start with
  | nil => exact hstart
  | cons op ops ih => exact ih (hstep start op hstart)

/-- A reflexive and transitive relation between the two ends of every step that meets a condition
relates the two ends of a run all of whose steps meet it. -/
theorem exec_relation (condition : State → Op → Prop) (relation : State → State → Prop)
    (hrefl : ∀ state, relation state state)
    (htrans : ∀ first middle last, relation first middle → relation middle last →
      relation first last)
    (hstep : ∀ state op, condition state op → relation state (step state op))
    {start : State} {ops : List Op} (halong : Along step condition start ops) :
    relation start (exec step start ops) := by
  induction ops generalizing start with
  | nil => exact hrefl start
  | cons op ops ih => exact htrans _ _ _ (hstep start op halong.1) (ih halong.2)

/-- Where a step from a state with a property keeps the property exactly when it meets a condition,
a run keeps it throughout exactly when all of its steps meet the condition. -/
theorem forall_exec_iff_along (condition : State → Op → Prop) (property invariant : State → Prop)
    (hinvariant : ∀ state op, invariant state → invariant (step state op))
    (hstep : ∀ state op, invariant state → property state →
      (property (step state op) ↔ condition state op))
    {start : State} (hholds : invariant start) (hstart : property start) (ops : List Op) :
    (∀ before after, ops = before ++ after → property (exec step start before)) ↔
      Along step condition start ops := by
  induction ops generalizing start with
  | nil =>
    refine iff_of_true (fun before after hsplit ↦ ?_) trivial
    obtain ⟨rfl, -⟩ := List.append_eq_nil_iff.mp hsplit.symm
    exact hstart
  | cons op ops ih =>
    rw [along_cons, ← hstep start op hholds hstart]
    constructor
    · intro hall
      have hnext : property (step start op) := hall [op] ops rfl
      refine ⟨hnext, (ih (hinvariant start op hholds) hnext).mp ?_⟩
      intro before after hsplit
      exact hall (op :: before) after (by rw [hsplit, List.cons_append])
    · rintro ⟨hnext, halong⟩ before after hsplit
      have hrest := (ih (hinvariant start op hholds) hnext).mpr halong
      cases before with
      | nil => exact hstart
      | cons first before =>
        obtain ⟨rfl, hops⟩ := List.cons.inj hsplit
        exact hrest before after hops

/-! ### Logs -/

variable {Entry : Type*}

/-- A log with one more entry. -/
def record (log : List Entry) (entry : Entry) : List Entry := log ++ [entry]

theorem exec_record (log more : List Entry) : exec record log more = log ++ more := by
  induction more generalizing log with
  | nil => rw [exec_nil, List.append_nil]
  | cons entry more ih =>
    rw [exec_cons, ih, record, List.append_assoc, List.singleton_append]

/-- Every entry of the log may come after the ones before it. -/
def Lawful (permitted : List Entry → Entry → Prop) (log : List Entry) : Prop :=
  Along record permitted [] log

theorem lawful_iff_split (permitted : List Entry → Entry → Prop) (log : List Entry) :
    Lawful permitted log ↔
      ∀ before entry after, log = before ++ entry :: after → permitted before entry := by
  rw [Lawful, along_iff_split]
  simp only [exec_record, List.nil_append]

theorem lawful_concat {permitted : List Entry → Entry → Prop} {log : List Entry} {entry : Entry} :
    Lawful permitted (log ++ [entry]) ↔ Lawful permitted log ∧ permitted log entry := by
  rw [Lawful, along_append, along_cons, exec_record, List.nil_append]
  exact and_congr_right fun _ ↦ and_iff_left trivial

end Gzscript.Library.Transition
