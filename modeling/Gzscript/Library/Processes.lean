import Gzscript.Library.Transition
import Mathlib.Logic.Function.Basic

/-!
# Processes on shared state

Any number of processes run one program on the state they share, one atomic step at a time. A run
follows a schedule: the process of each step, with what the step is given from outside. So every
interleaving is the run of a schedule.

An `Outline` says what holds of the shared state, what holds of a process at each point of the
program, and which points two processes may be at. It is `Valid` if the step of one process keeps it
for that process and for every other one. Then it holds in every state of a run (`Valid.run`).
-/

set_option autoImplicit false
set_option relaxedAutoImplicit false

namespace Gzscript.Library.Processes

open Library.Transition

variable {Shared Point Event Input Process : Type*}

/-- What an atomic step leads to. -/
structure Move (Shared Point Event : Type*) where
  shared : Shared
  point : Point
  event : Event

/-- A program, by its step at each point. There is none where a process has ended. -/
abbrev Program (Shared Point Event Input : Type*) :=
  Shared → Point → Input → Option (Move Shared Point Event)

/-- The processes with the state they share and what they have done so far. -/
structure System (Shared Point Event Process : Type*) where
  shared : Shared
  point : Process → Point
  log : List Event

/-- The step of a process whose turn it is. -/
def System.next (program : Program Shared Point Event Input)
    (system : System Shared Point Event Process) (turn : Process × Input) :
    Option (Move Shared Point Event) :=
  program system.shared (system.point turn.1) turn.2

section Steps

variable [DecidableEq Process]

def System.take (system : System Shared Point Event Process) (process : Process)
    (move : Move Shared Point Event) : System Shared Point Event Process where
  shared := move.shared
  point := Function.update system.point process move.point
  log := system.log ++ [move.event]

def System.step (program : Program Shared Point Event Input)
    (system : System Shared Point Event Process) (turn : Process × Input) :
    System Shared Point Event Process :=
  ((system.next program turn).map (system.take turn.1)).getD system

theorem System.step_of_next {program : Program Shared Point Event Input}
    {system : System Shared Point Event Process} {turn : Process × Input}
    {move : Move Shared Point Event} (hnext : system.next program turn = some move) :
    system.step program turn = system.take turn.1 move := by
  rw [System.step, hnext]
  rfl

theorem System.step_of_ended {program : Program Shared Point Event Input}
    {system : System Shared Point Event Process} {turn : Process × Input}
    (hnext : system.next program turn = none) : system.step program turn = system := by
  rw [System.step, hnext]
  rfl

end Steps

/-- What is to hold of the shared state, of a process at a point, and of the points of two
processes. -/
structure Outline (Shared Point Event : Type*) where
  shared : Shared → List Event → Prop
  process : Shared → List Event → Point → Prop
  compatible : Point → Point → Prop

/-- An outline holds of a system. -/
structure Outline.Holds (outline : Outline Shared Point Event)
    (system : System Shared Point Event Process) : Prop where
  shared : outline.shared system.shared system.log
  process : ∀ process, outline.process system.shared system.log (system.point process)
  compatible : ∀ first second, first ≠ second →
    outline.compatible (system.point first) (system.point second)

/-- The step of a process keeps an outline, for itself and for another process. -/
structure Outline.Valid (outline : Outline Shared Point Event)
    (program : Program Shared Point Event Input) : Prop where
  symm : ∀ {first second}, outline.compatible first second → outline.compatible second first
  own : ∀ {shared log point input move}, program shared point input = some move →
    outline.shared shared log → outline.process shared log point →
    outline.shared move.shared (log ++ [move.event]) ∧
      outline.process move.shared (log ++ [move.event]) move.point
  other : ∀ {shared log point input move other}, program shared point input = some move →
    outline.shared shared log → outline.process shared log point →
    outline.process shared log other → outline.compatible point other →
    outline.process move.shared (log ++ [move.event]) other ∧ outline.compatible move.point other

variable {outline : Outline Shared Point Event} {program : Program Shared Point Event Input}
  {system : System Shared Point Event Process} [DecidableEq Process]

theorem Outline.Valid.take (hvalid : outline.Valid program) (h : outline.Holds system)
    {turn : Process × Input} {move : Move Shared Point Event}
    (hnext : system.next program turn = some move) :
    outline.Holds (system.take turn.1 move) := by
  obtain ⟨hshared, hown⟩ := hvalid.own hnext h.shared (h.process turn.1)
  have hother : ∀ process, process ≠ turn.1 →
      outline.process move.shared (system.log ++ [move.event]) (system.point process) ∧
        outline.compatible move.point (system.point process) := fun process hprocess ↦
    hvalid.other hnext h.shared (h.process turn.1) (h.process process)
      (h.compatible turn.1 process (Ne.symm hprocess))
  refine ⟨hshared, fun process ↦ ?_, fun first second hne ↦ ?_⟩
  · show outline.process move.shared _ (Function.update system.point turn.1 move.point process)
    rw [Function.update_apply]
    split_ifs with hprocess
    · exact hown
    · exact (hother process hprocess).1
  · show outline.compatible (Function.update system.point turn.1 move.point first)
      (Function.update system.point turn.1 move.point second)
    rw [Function.update_apply, Function.update_apply]
    split_ifs with hfirst hsecond hsecond
    · exact absurd (hfirst.trans hsecond.symm) hne
    · exact (hother second hsecond).2
    · exact hvalid.symm (hother first hfirst).2
    · exact h.compatible first second hne

theorem Outline.Valid.step (hvalid : outline.Valid program) (h : outline.Holds system)
    (turn : Process × Input) : outline.Holds (system.step program turn) := by
  cases hnext : system.next program turn with
  | none =>
    rw [System.step_of_ended hnext]
    exact h
  | some move =>
    rw [System.step_of_next hnext]
    exact hvalid.take h hnext

theorem Outline.Valid.run (hvalid : outline.Valid program) (h : outline.Holds system)
    (schedule : List (Process × Input)) :
    outline.Holds (exec (System.step program) system schedule) :=
  exec_invariant (System.step program) outline.Holds (fun _ turn hholds ↦ hvalid.step hholds turn)
    h schedule

end Gzscript.Library.Processes
