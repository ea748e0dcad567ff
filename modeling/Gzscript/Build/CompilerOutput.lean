import Gzscript.Library.BoundedBuffer
import Gzscript.Library.Transition
import Gzscript.Lsp.Frames

/-!
# What a compiler says

A compiler writes to two pipes, and the build manager reads them while it waits for the compiler to
end: in `pump`, which looks at the compiler once and returns, or in `run_process`, which waits. Both
kill a compiler after `COMPILER_TIMEOUT_MSEC`, keep the first `COMPILER_OUTPUT_LIMIT` bytes, and say
so if they have left anything out.

Every access to the compiler is a `Move` of its own, so that the compiler may write, or end, between
any two of them. After the manager has seen that the compiler has ended it reads each pipe once
more. That is enough if a pipe holds no more than one reading takes: then the report is the one of
everything that the compiler has written (`output_reported`).
-/

set_option autoImplicit false
set_option relaxedAutoImplicit false

namespace Gzscript.Build.CompilerOutput

open Library.BoundedBuffer Library.Bytes Library.Transition
open Lsp.Frames (decimal)

def compilerTimeoutMsec : ℕ := 120000

def processKillGraceMsec : ℕ := 1000

def pipeReadLimit : ℕ := 64 * 1024

def compilerOutputLimit : ℕ := 64 * 1024

def outputTruncated : ByteString := ascii "\n[gzscript: compiler output truncated]"

def timedOutText : ByteString :=
  ascii "\nZig compiler timed out after " ++ decimal compilerTimeoutMsec ++ ascii " ms"

/-! ### The manager and the compiler -/

inductive Stream
  | stdout
  | stderr
  deriving DecidableEq

/-- How the manager waits for the compiler. -/
inductive Way
  | pump
  | runProcess

/-- Where the manager is. A pump is `idle` until it is called again; the phases from `grace` to
`killDrain` are those of `run_process` after a timeout. -/
inductive Phase
  | idle
  | drain (stream : Stream)
  | running
  | clock
  | graceStart
  | grace
  | graceClock
  | graceDrain (stream : Stream)
  | killing
  | killDrain (stream : Stream)
  | last (stream : Stream)
  | done
  deriving DecidableEq

/-- The manager, the compiler and its pipes. What has been written and read is recorded in
`written`, `early` (before a timeout) and `late`, which are never read. -/
structure State where
  phase : Phase
  output : Buffer UInt8
  timedOut : Bool
  deadline : ℕ
  result : Option (ℤ × ByteString)
  kills : List ℕ
  waiting : Stream → ByteString
  exited : Option ℤ
  now : ℕ
  written : Stream → ByteString
  early : List (Stream × ByteString)
  late : List (Stream × ByteString)

/-- A compiler has been started. -/
def initial (way : Way) (started : ℕ) : State where
  phase := match way with
    | .pump => .idle
    | .runProcess => .running
  output := empty
  timedOut := false
  deadline := 0
  result := none
  kills := []
  waiting _ := []
  exited := none
  now := started
  written _ := []
  early := []
  late := []

def State.goTo (phase : Phase) (state : State) : State := { state with phase }

/-- A reading is recorded. -/
def State.record (stream : Stream) (chunk : ByteString) (state : State) : State :=
  { state with
    early := if state.timedOut then state.early else state.early ++ [(stream, chunk)]
    late := if state.timedOut then state.late ++ [(stream, chunk)] else state.late }

/-- `drain`: what there is in a pipe, up to the limit for one reading. -/
def State.drain (stream : Stream) (state : State) : State :=
  if state.waiting stream = [] then state
  else
    let chunk := (state.waiting stream).take pipeReadLimit
    { state with
      output := append compilerOutputLimit state.output chunk
      waiting := Function.update state.waiting stream ((state.waiting stream).drop pipeReadLimit)
      }.record stream chunk

/-- `gz_terminate_process_tree`. -/
def State.terminate (state : State) : State := { state with kills := state.kills ++ [state.now] }

/-- The compiler is found to be running too long. A pump says so at once. -/
def State.expire (way : Way) (state : State) : State :=
  { state with
    timedOut := true
    output := match way with
      | .pump => extend state.output timedOutText
      | .runProcess => state.output }

/-- The manager returns from the compiler. -/
def State.complete (way : Way) (state : State) : State :=
  let output := if state.output.dropped then state.output.kept ++ outputTruncated
    else state.output.kept
  let text := match way with
    | .pump => output
    | .runProcess => if state.timedOut then output ++ timedOutText else output
  { state with
    result := some (if state.timedOut then 124 else state.exited.getD (-1), text) }

/-- The next access of a manager whose `pump` is called again and again. -/
def actPump (started : ℕ) (state : State) : State :=
  match state.phase with
  | .idle => state.goTo (.drain .stdout)
  | .drain .stdout => (state.drain .stdout).goTo (.drain .stderr)
  | .drain .stderr => (state.drain .stderr).goTo .running
  | .running => state.goTo (if state.exited = none then .clock else .last .stdout)
  | .clock =>
    if !state.timedOut && decide (state.now - started < compilerTimeoutMsec) then state.goTo .idle
    else (if state.timedOut then state else state.expire .pump).terminate.goTo .idle
  | .last .stdout => (state.drain .stdout).goTo (.last .stderr)
  | .last .stderr => ((state.drain .stderr).complete .pump).goTo .done
  | _ => state

/-- The next access in `run_process`. -/
def actRunProcess (started : ℕ) (state : State) : State :=
  match state.phase with
  | .running => state.goTo (if state.exited = none then .drain .stdout else .last .stdout)
  | .drain .stdout => (state.drain .stdout).goTo (.drain .stderr)
  | .drain .stderr => (state.drain .stderr).goTo .clock
  | .clock =>
    if compilerTimeoutMsec ≤ state.now - started then
      (state.terminate.expire .runProcess).goTo .graceStart
    else state.goTo .running
  | .graceStart => { state with deadline := state.now + processKillGraceMsec }.goTo .grace
  | .grace => state.goTo (if state.exited = none then .graceClock else .killing)
  | .graceClock =>
    state.goTo (if state.now < state.deadline then .graceDrain .stdout else .killing)
  | .graceDrain .stdout => (state.drain .stdout).goTo (.graceDrain .stderr)
  | .graceDrain .stderr => (state.drain .stderr).goTo .grace
  | .killing =>
    if state.exited = none then state.terminate.goTo (.killDrain .stdout)
    else state.goTo (.last .stdout)
  | .killDrain .stdout => (state.drain .stdout).goTo (.killDrain .stderr)
  | .killDrain .stderr => (state.drain .stderr).goTo .killing
  | .last .stdout => (state.drain .stdout).goTo (.last .stderr)
  | .last .stderr => ((state.drain .stderr).complete .runProcess).goTo .done
  | _ => state

inductive Move
  /-- The compiler writes, as much as the pipe has room for. -/
  | write (stream : Stream) (bytes : ByteString)
  /-- The compiler ends. -/
  | exit (code : ℤ)
  /-- Time passes. -/
  | wait (msec : ℕ)
  /-- The manager goes on. -/
  | act
  deriving DecidableEq

/-- A move that is not possible changes nothing. -/
def step (way : Way) (capacity started : ℕ) (state : State) : Move → State
  | .write stream bytes =>
    if state.exited = none ∧ (state.waiting stream ++ bytes).length ≤ capacity then
      { state with
        waiting := Function.update state.waiting stream (state.waiting stream ++ bytes)
        written := Function.update state.written stream (state.written stream ++ bytes) }
    else state
  | .exit code => if state.exited = none then { state with exited := some code } else state
  | .wait msec => { state with now := state.now + msec }
  | .act =>
    match way with
    | .pump => actPump started state
    | .runProcess => actRunProcess started state

/-! ### What is reported -/

/-- Everything that was read. -/
def allBytes (readings : List (Stream × ByteString)) : ByteString :=
  (readings.map Prod.snd).flatten

/-- What was read of one stream. -/
def bytesOf (stream : Stream) (readings : List (Stream × ByteString)) : ByteString :=
  allBytes (readings.filter fun reading ↦ reading.1 = stream)

/-- The report on a compiler that has written `early` and, after a timeout, `late`. -/
def report : Way → Bool → ByteString → ByteString → ByteString
  | .pump, false, early, _ =>
    early.take compilerOutputLimit ++
      if compilerOutputLimit < early.length then outputTruncated else []
  | .pump, true, early, late =>
    let text := early.take compilerOutputLimit ++ timedOutText
    let room := compilerOutputLimit - text.length
    text ++ late.take room ++
      if compilerOutputLimit < early.length ∨ room < late.length then outputTruncated else []
  | .runProcess, timedOut, early, late =>
    (early ++ late).take compilerOutputLimit ++
      (if compilerOutputLimit < (early ++ late).length then outputTruncated else []) ++
      if timedOut then timedOutText else []

theorem length_report_le (way : Way) (timedOut : Bool) (early late : ByteString) :
    (report way timedOut early late).length ≤
      compilerOutputLimit + timedOutText.length + outputTruncated.length := by
  have hoptional (condition : Prop) [Decidable condition] (text : ByteString) :
      (if condition then text else []).length ≤ text.length := by
    split
    · exact le_rfl
    · exact Nat.zero_le _
  cases way with
  | pump =>
    cases timedOut with
    | false =>
      have hmark := hoptional (compilerOutputLimit < early.length) outputTruncated
      simp only [report, List.length_append, List.length_take]
      omega
    | true =>
      simp only [report, List.length_append, List.length_take]
      refine Nat.add_le_add ?_ (hoptional _ _)
      omega
  | runProcess =>
    have hmark := hoptional (compilerOutputLimit < (early ++ late).length) outputTruncated
    have htimeout := hoptional (timedOut = true) timedOutText
    simp only [report, List.length_append, List.length_take] at hmark ⊢
    omega

/-! ### Readings -/

theorem allBytes_append (first second : List (Stream × ByteString)) :
    allBytes (first ++ second) = allBytes first ++ allBytes second := by
  simp [allBytes]

theorem bytesOf_append (stream : Stream) (first second : List (Stream × ByteString)) :
    bytesOf stream (first ++ second) = bytesOf stream first ++ bytesOf stream second := by
  rw [bytesOf, List.filter_append, allBytes_append, bytesOf, bytesOf]

theorem bytesOf_self (stream : Stream) (chunk : ByteString) :
    bytesOf stream [(stream, chunk)] = chunk := by
  simp [bytesOf, allBytes]

theorem bytesOf_of_ne {stream other : Stream} (hne : other ≠ stream) (chunk : ByteString) :
    bytesOf stream [(other, chunk)] = [] := by
  simp [bytesOf, allBytes, hne]

/-! ### What is accounted for -/

/-- The buffer after what was read before a timeout, and the timeout itself. -/
def opened (way : Way) (timedOut : Bool) (early : ByteString) : Buffer UInt8 :=
  match way, timedOut with
  | .pump, true => extend (append compilerOutputLimit empty early) timedOutText
  | .pump, false => append compilerOutputLimit empty early
  | .runProcess, _ => append compilerOutputLimit empty early

/-- What the compiler has written was read or waits in its pipe, the output is what was read, and
the compiler is killed only when it has run too long. -/
structure Accounted (way : Way) (capacity started : ℕ) (state : State) : Prop where
  small : ∀ stream, (state.waiting stream).length ≤ capacity
  read : ∀ stream, bytesOf stream (state.early ++ state.late) ++ state.waiting stream =
    state.written stream
  late_nil : state.timedOut = false → state.late = []
  output : state.output = append compilerOutputLimit
    (opened way state.timedOut (allBytes state.early)) (allBytes state.late)
  overdue : state.timedOut = true → started + compilerTimeoutMsec ≤ state.now
  kills : ∀ time ∈ state.kills, started + compilerTimeoutMsec ≤ time
  killed : state.timedOut = true ↔ state.kills ≠ []

section Accounts

variable {way : Way} {capacity started : ℕ} {state : State}

theorem accounted_initial : Accounted way capacity started (initial way started) where
  small _ := Nat.zero_le _
  read _ := rfl
  late_nil _ := rfl
  output := by cases way <;> rfl
  overdue htimedOut := nomatch htimedOut
  kills _ htime := nomatch htime
  killed := by simp [initial]

theorem Accounted.goTo (h : Accounted way capacity started state) (phase : Phase) :
    Accounted way capacity started (state.goTo phase) :=
  ⟨h.small, h.read, h.late_nil, h.output, h.overdue, h.kills, h.killed⟩

/-- Nothing is lost between a pipe and the buffer. -/
theorem Accounted.drain (h : Accounted way capacity started state) (stream : Stream) :
    Accounted way capacity started (state.drain stream) := by
  rw [State.drain]
  split
  · exact h
  next hwaiting =>
    have hread (readings : List (Stream × ByteString))
        (heq : ∀ other, bytesOf other readings ++ state.waiting other = state.written other)
        (other : Stream) :
        bytesOf other (readings ++ [(stream, (state.waiting stream).take pipeReadLimit)]) ++
          Function.update state.waiting stream ((state.waiting stream).drop pipeReadLimit) other =
            state.written other := by
      rw [bytesOf_append, ← heq other]
      by_cases hother : other = stream
      · rw [hother, bytesOf_self, Function.update_self, List.append_assoc, List.take_append_drop]
      · rw [bytesOf_of_ne (Ne.symm hother), Function.update_of_ne hother, List.append_nil]
    have hsmall (other : Stream) : (Function.update state.waiting stream
        ((state.waiting stream).drop pipeReadLimit) other).length ≤ capacity := by
      by_cases hother : other = stream
      · have hlength := h.small stream
        rw [hother, Function.update_self, List.length_drop]
        omega
      · rw [Function.update_of_ne hother]
        exact h.small other
    have hsingle (chunk : ByteString) : allBytes [(stream, chunk)] = chunk := by simp [allBytes]
    refine ⟨hsmall, ?_, ?_, ?_, h.overdue, h.kills, h.killed⟩
    · intro other
      show bytesOf other ((if state.timedOut then state.early else state.early ++ _) ++
        (if state.timedOut then state.late ++ _ else state.late)) ++ _ = _
      split
      · rw [← List.append_assoc]
        exact hread _ h.read other
      next hfalse =>
        have hlate := h.late_nil (Bool.eq_false_of_not_eq_true hfalse)
        rw [hlate, List.append_nil]
        refine hread _ (fun stream ↦ ?_) other
        rw [← h.read stream, hlate, List.append_nil]
    · intro hfalse
      show (if state.timedOut then state.late ++ _ else state.late) = []
      rw [if_neg (by rw [show state.timedOut = false from hfalse]; simp)]
      exact h.late_nil hfalse
    · show append compilerOutputLimit state.output _ = append compilerOutputLimit
        (opened way state.timedOut
          (allBytes (if state.timedOut then state.early else state.early ++ _)))
        (allBytes (if state.timedOut then state.late ++ _ else state.late))
      rw [h.output]
      split
      · rw [append_append, allBytes_append, hsingle]
      next hfalse =>
        have hopened (early : ByteString) : opened way state.timedOut early =
            append compilerOutputLimit empty early := by
          rw [Bool.eq_false_of_not_eq_true hfalse]
          cases way <;> rfl
        have hlate : allBytes state.late = [] := by
          rw [h.late_nil (Bool.eq_false_of_not_eq_true hfalse)]
          rfl
        rw [hlate, hopened, hopened, allBytes_append, hsingle]
        simp only [append_nil, append_append]

/-- A compiler that has run too long is killed, and the output says so or will. -/
theorem Accounted.timeOut (h : Accounted way capacity started state)
    (hoverdue : started + compilerTimeoutMsec ≤ state.now)
    (hpump : way = .pump → state.timedOut = false) :
    Accounted way capacity started (state.expire way).terminate := by
  refine ⟨h.small, h.read, fun hfalse ↦ (nomatch hfalse), ?_, fun _ ↦ hoverdue, ?_, ?_⟩
  · cases way with
    | pump =>
      have hfalse := hpump rfl
      have hlate := h.late_nil hfalse
      show extend state.output timedOutText = append compilerOutputLimit
        (opened .pump true (allBytes state.early)) (allBytes state.late)
      rw [h.output, hlate, hfalse]
      simp only [allBytes, List.map_nil, List.flatten_nil, append_nil, opened]
    | runProcess => exact h.output
  · intro time htime
    rcases List.mem_append.mp htime with hearlier | hnow
    · exact h.kills time hearlier
    · rw [List.mem_singleton.mp hnow]
      exact hoverdue
  · show true = true ↔ state.kills ++ [state.now] ≠ []
    simp

theorem Accounted.terminate (h : Accounted way capacity started state)
    (htimedOut : state.timedOut = true) : Accounted way capacity started state.terminate := by
  refine ⟨h.small, h.read, h.late_nil, h.output, h.overdue, ?_, ?_⟩
  · intro time htime
    rcases List.mem_append.mp htime with hearlier | hnow
    · exact h.kills time hearlier
    · rw [List.mem_singleton.mp hnow]
      exact h.overdue htimedOut
  · show state.timedOut = true ↔ state.kills ++ [state.now] ≠ []
    simp [htimedOut]

/-- The text of a buffer. -/
def spoken (way : Way) (timedOut : Bool) (buffer : Buffer UInt8) : ByteString :=
  let output := if buffer.dropped then buffer.kept ++ outputTruncated else buffer.kept
  match way with
  | .pump => output
  | .runProcess => if timedOut then output ++ timedOutText else output

theorem spoken_eq_report (way : Way) (timedOut : Bool) (early : ByteString) {late : ByteString}
    (hlate : timedOut = false → late = []) :
    spoken way timedOut (append compilerOutputLimit (opened way timedOut early) late) =
      report way timedOut early late := by
  have hmarked (condition : Prop) [Decidable condition] (text : ByteString) :
      (if decide condition = true then text ++ outputTruncated else text) =
        text ++ if condition then outputTruncated else [] := by
    by_cases hcondition : condition
    · simp [hcondition]
    · simp [hcondition]
  cases way with
  | pump =>
    cases timedOut with
    | false =>
      rw [hlate rfl, opened, append_nil, append_empty, spoken, report]
      exact hmarked _ _
    | true =>
      rw [opened, append_empty, spoken, report, extend, append, ← Bool.decide_or]
      exact hmarked _ _
  | runProcess =>
    rw [opened, append_append, append_empty, spoken, report]
    show (if timedOut then _ ++ timedOutText else _) = _
    rw [hmarked]
    cases timedOut with
    | false => exact (List.append_nil _).symm
    | true => rfl

/-- The text that the manager returns is the report on what it has read. -/
theorem result_complete (h : Accounted way capacity started state) {code : ℤ}
    (hexited : state.exited = some code) : (state.complete way).result =
      some (if state.timedOut then 124 else code,
        report way state.timedOut (allBytes state.early) (allBytes state.late)) := by
  have hlate : state.timedOut = false → allBytes state.late = [] := fun hfalse ↦ by
    rw [h.late_nil hfalse]
    rfl
  rw [← spoken_eq_report way state.timedOut (allBytes state.early) hlate, ← h.output]
  show some (if state.timedOut then 124 else state.exited.getD (-1), _) = _
  rw [hexited]
  rfl

end Accounts

/-! ### Where the manager is -/

/-- What the manager knows where it is: after a timeout that there was one, and after the compiler
has ended that nothing more is written. -/
def Located (way : Way) (state : State) : Prop :=
  match state.phase with
  | .idle => way = .pump
  | .graceStart | .grace | .graceClock | .graceDrain _ | .killing | .killDrain _ =>
    way = .runProcess ∧ state.timedOut = true
  | .last .stdout => state.exited ≠ none
  | .last .stderr => state.exited ≠ none ∧ state.waiting .stdout = []
  | .done => ∃ code, state.exited = some code ∧ (∀ stream, state.waiting stream = []) ∧
      state.result = some (if state.timedOut then 124 else code,
        report way state.timedOut (allBytes state.early) (allBytes state.late))
  | _ => True

/-- Where the manager is, and its accounts. -/
structure Sound (way : Way) (capacity started : ℕ) (state : State) : Prop where
  accounted : Accounted way capacity started state
  located : Located way state
  result : state.phase ≠ .done → state.result = none

section Runs

variable {way : Way} {capacity started : ℕ} {state : State}

/-- A pipe that holds no more than one reading is empty after it. -/
theorem waiting_drain (h : Accounted way capacity started state)
    (hcapacity : capacity ≤ pipeReadLimit) (stream : Stream) :
    (state.drain stream).waiting = Function.update state.waiting stream [] := by
  have hlength : (state.waiting stream).length ≤ pipeReadLimit := (h.small stream).trans hcapacity
  rw [State.drain]
  split
  next hempty => rw [← hempty, Function.update_eq_self]
  · show Function.update state.waiting stream ((state.waiting stream).drop pipeReadLimit) = _
    rw [List.drop_eq_nil_of_le hlength]

@[simp] theorem exited_drain (stream : Stream) (state : State) :
    (state.drain stream).exited = state.exited := by
  rw [State.drain]
  split
  · rfl
  · rfl

@[simp] theorem result_drain (stream : Stream) (state : State) :
    (state.drain stream).result = state.result := by
  rw [State.drain]
  split
  · rfl
  · rfl

@[simp] theorem timedOut_drain (stream : Stream) (state : State) :
    (state.drain stream).timedOut = state.timedOut := by
  rw [State.drain]
  split
  · rfl
  · rfl

/-- The manager goes from one place to another, and does not return yet. -/
theorem sound_goTo {phase : Phase} (haccounted : Accounted way capacity started state)
    (hresult : state.result = none) (hlocated : Located way (state.goTo phase)) :
    Sound way capacity started (state.goTo phase) :=
  ⟨haccounted.goTo phase, hlocated, fun _ ↦ hresult⟩

/-- The first reading after the compiler has ended. -/
theorem sound_lastStdout (h : Sound way capacity started state)
    (hcapacity : capacity ≤ pipeReadLimit) (hphase : state.phase = .last .stdout) :
    Sound way capacity started ((state.drain .stdout).goTo (.last .stderr)) := by
  have hlocated := h.located
  rw [Located, hphase] at hlocated
  refine sound_goTo (h.accounted.drain _) (by simp [h.result, hphase]) ⟨?_, ?_⟩
  · show (state.drain .stdout).exited ≠ none
    rw [exited_drain]
    exact hlocated
  · show (state.drain .stdout).waiting .stdout = []
    rw [waiting_drain h.accounted hcapacity, Function.update_self]

/-- The last reading, and the return. -/
theorem sound_complete (h : Sound way capacity started state) (hcapacity : capacity ≤ pipeReadLimit)
    (hphase : state.phase = .last .stderr) :
    Sound way capacity started (((state.drain .stderr).complete way).goTo .done) := by
  have hlocated := h.located
  rw [Located, hphase] at hlocated
  obtain ⟨hexited, hstdout⟩ := hlocated
  obtain ⟨code, hcode⟩ := Option.ne_none_iff_exists'.mp hexited
  have haccounted := h.accounted.drain .stderr
  refine ⟨?_, ?_, fun hdone ↦ absurd rfl hdone⟩
  · exact ⟨haccounted.small, haccounted.read, haccounted.late_nil, haccounted.output,
      haccounted.overdue, haccounted.kills, haccounted.killed⟩
  · refine ⟨code, ?_, ?_, ?_⟩
    · show (state.drain .stderr).exited = some code
      rw [exited_drain, hcode]
    · intro stream
      show (state.drain .stderr).waiting stream = []
      rw [waiting_drain h.accounted hcapacity]
      cases stream with
      | stdout => rw [Function.update_of_ne (by decide), hstdout]
      | stderr => rw [Function.update_self]
    · exact result_complete haccounted (by rw [exited_drain, hcode])

theorem sound_actPump (h : Sound .pump capacity started state)
    (hcapacity : capacity ≤ pipeReadLimit) :
    Sound .pump capacity started (actPump started state) := by
  have hresult := h.result
  rw [actPump]
  split
  next hphase => exact sound_goTo h.accounted (hresult (by simp [hphase])) trivial
  next hphase =>
    exact sound_goTo (h.accounted.drain _) (by simp [hresult, hphase]) trivial
  next hphase =>
    exact sound_goTo (h.accounted.drain _) (by simp [hresult, hphase]) trivial
  next hphase =>
    split
    · exact sound_goTo h.accounted (hresult (by simp [hphase])) trivial
    next hexited => exact sound_goTo h.accounted (hresult (by simp [hphase])) hexited
  next hphase =>
    have hnone := hresult (by simp [hphase])
    split
    · exact sound_goTo h.accounted hnone rfl
    next hlate =>
      by_cases htimedOut : state.timedOut = true
      · rw [if_pos htimedOut]
        exact sound_goTo (h.accounted.terminate htimedOut) hnone rfl
      · rw [if_neg htimedOut]
        have hfalse := Bool.eq_false_of_not_eq_true htimedOut
        have hoverdue : started + compilerTimeoutMsec ≤ state.now := by
          simp only [hfalse, Bool.not_false, Bool.true_and, decide_eq_true_eq, not_lt] at hlate
          have hpositive : 0 < compilerTimeoutMsec := by decide
          omega
        exact sound_goTo (h.accounted.timeOut hoverdue fun _ ↦ hfalse) hnone rfl
  next hphase => exact sound_lastStdout h hcapacity hphase
  next hphase => exact sound_complete h hcapacity hphase
  next => exact h

theorem sound_actRunProcess (h : Sound .runProcess capacity started state)
    (hcapacity : capacity ≤ pipeReadLimit) :
    Sound .runProcess capacity started (actRunProcess started state) := by
  have hresult := h.result
  have hlocated := h.located
  rw [Located] at hlocated
  rw [actRunProcess]
  split
  next hphase =>
    split
    · exact sound_goTo h.accounted (hresult (by simp [hphase])) trivial
    next hexited => exact sound_goTo h.accounted (hresult (by simp [hphase])) hexited
  next hphase => exact sound_goTo (h.accounted.drain _) (by simp [hresult, hphase]) trivial
  next hphase => exact sound_goTo (h.accounted.drain _) (by simp [hresult, hphase]) trivial
  next hphase =>
    have hnone := hresult (by simp [hphase])
    split
    next hlate =>
      have hoverdue : started + compilerTimeoutMsec ≤ state.now := by
        have hpositive : 0 < compilerTimeoutMsec := by decide
        omega
      exact sound_goTo (h.accounted.timeOut hoverdue fun hpump ↦ nomatch hpump) hnone ⟨rfl, rfl⟩
    · exact sound_goTo h.accounted hnone trivial
  next hphase =>
    simp only [hphase, true_and] at hlocated
    have haccounted := h.accounted
    refine sound_goTo ?_ (hresult (by simp [hphase])) ⟨rfl, hlocated⟩
    exact ⟨haccounted.small, haccounted.read, haccounted.late_nil, haccounted.output,
      haccounted.overdue, haccounted.kills, haccounted.killed⟩
  next hphase =>
    simp only [hphase, true_and] at hlocated
    split
    · exact sound_goTo h.accounted (hresult (by simp [hphase])) ⟨rfl, hlocated⟩
    · exact sound_goTo h.accounted (hresult (by simp [hphase])) ⟨rfl, hlocated⟩
  next hphase =>
    simp only [hphase, true_and] at hlocated
    split
    · exact sound_goTo h.accounted (hresult (by simp [hphase])) ⟨rfl, hlocated⟩
    · exact sound_goTo h.accounted (hresult (by simp [hphase])) ⟨rfl, hlocated⟩
  next hphase =>
    simp only [hphase, true_and] at hlocated
    exact sound_goTo (h.accounted.drain _) (by simp [hresult, hphase])
      ⟨rfl, (timedOut_drain _ _).trans hlocated⟩
  next hphase =>
    simp only [hphase, true_and] at hlocated
    exact sound_goTo (h.accounted.drain _) (by simp [hresult, hphase])
      ⟨rfl, (timedOut_drain _ _).trans hlocated⟩
  next hphase =>
    simp only [hphase, true_and] at hlocated
    split
    · exact sound_goTo (h.accounted.terminate hlocated) (hresult (by simp [hphase])) ⟨rfl, hlocated⟩
    next hexited => exact sound_goTo h.accounted (hresult (by simp [hphase])) hexited
  next hphase =>
    simp only [hphase, true_and] at hlocated
    exact sound_goTo (h.accounted.drain _) (by simp [hresult, hphase])
      ⟨rfl, (timedOut_drain _ _).trans hlocated⟩
  next hphase =>
    simp only [hphase, true_and] at hlocated
    exact sound_goTo (h.accounted.drain _) (by simp [hresult, hphase])
      ⟨rfl, (timedOut_drain _ _).trans hlocated⟩
  next hphase => exact sound_lastStdout h hcapacity hphase
  next hphase => exact sound_complete h hcapacity hphase
  next => exact h

/-- As long as the compiler runs, the manager cannot be past its end. -/
theorem located_of_running {after : State} (hlocated : Located way state)
    (hrunning : state.exited = none) (hphase : after.phase = state.phase)
    (htimedOut : after.timedOut = state.timedOut) : Located way after := by
  rw [Located] at hlocated ⊢
  rw [hphase, htimedOut]
  split at hlocated <;> try exact hlocated
  · exact absurd hrunning hlocated
  · exact absurd hrunning hlocated.1
  · obtain ⟨code, hcode, -⟩ := hlocated
    rw [hrunning] at hcode
    cases hcode

/-- The compiler writes nothing more once it has ended, and the manager does not see the rest. -/
theorem sound_step (h : Sound way capacity started state) (hcapacity : capacity ≤ pipeReadLimit)
    (move : Move) : Sound way capacity started (step way capacity started state move) := by
  obtain ⟨haccounted, hlocated, hresult⟩ := h
  cases move with
  | write stream bytes =>
    rw [step]
    split
    next hwrite =>
      obtain ⟨hrunning, hfits⟩ := hwrite
      refine ⟨⟨?_, ?_, haccounted.late_nil, haccounted.output, haccounted.overdue,
        haccounted.kills, haccounted.killed⟩, ?_, hresult⟩
      · intro other
        show (Function.update state.waiting stream _ other).length ≤ capacity
        by_cases hother : other = stream
        · rw [hother, Function.update_self]
          exact hfits
        · rw [Function.update_of_ne hother]
          exact haccounted.small other
      · intro other
        show _ ++ Function.update state.waiting stream _ other =
          Function.update state.written stream _ other
        by_cases hother : other = stream
        · rw [hother, Function.update_self, Function.update_self, ← List.append_assoc,
            haccounted.read]
        · rw [Function.update_of_ne hother, Function.update_of_ne hother]
          exact haccounted.read other
      · exact located_of_running hlocated hrunning rfl rfl
    · exact ⟨haccounted, hlocated, hresult⟩
  | exit code =>
    rw [step]
    split
    next hrunning =>
      exact ⟨⟨haccounted.small, haccounted.read, haccounted.late_nil, haccounted.output,
        haccounted.overdue, haccounted.kills, haccounted.killed⟩,
        located_of_running hlocated hrunning rfl rfl, hresult⟩
    · exact ⟨haccounted, hlocated, hresult⟩
  | wait msec =>
    refine ⟨⟨haccounted.small, haccounted.read, haccounted.late_nil, haccounted.output, ?_,
      haccounted.kills, haccounted.killed⟩, hlocated, hresult⟩
    exact fun htimedOut ↦ (haccounted.overdue htimedOut).trans (Nat.le_add_right _ _)
  | act =>
    cases way with
    | pump => exact sound_actPump ⟨haccounted, hlocated, hresult⟩ hcapacity
    | runProcess => exact sound_actRunProcess ⟨haccounted, hlocated, hresult⟩ hcapacity

theorem sound_exec (hcapacity : capacity ≤ pipeReadLimit) (h : Sound way capacity started state)
    (moves : List Move) :
    Sound way capacity started (exec (step way capacity started) state moves) :=
  exec_invariant (step way capacity started) (Sound way capacity started)
    (fun _ move h ↦ sound_step h hcapacity move) h moves

theorem sound_initial : Sound way capacity started (initial way started) where
  accounted := accounted_initial
  located := by cases way <;> trivial
  result _ := rfl

/-- How often the manager goes on, at most, after the compiler has ended. -/
def remaining : Way → Phase → ℕ
  | .pump, .clock => 7
  | .pump, .idle => 6
  | .pump, .drain .stdout => 5
  | .pump, .drain .stderr => 4
  | .runProcess, .drain .stdout => 8
  | .runProcess, .drain .stderr => 7
  | .runProcess, .clock => 6
  | _, .graceClock => 7
  | _, .graceDrain .stdout => 6
  | _, .graceDrain .stderr => 5
  | _, .graceStart => 5
  | _, .killDrain .stdout => 5
  | _, .killDrain .stderr => 4
  | _, .grace => 4
  | _, .killing => 3
  | _, .running => 3
  | _, .last .stdout => 2
  | _, .last .stderr => 1
  | _, _ => 0

theorem remaining_le (way : Way) (phase : Phase) : remaining way phase ≤ 8 := by
  unfold remaining
  split <;> decide

/-- Once the compiler has ended, every access brings the manager nearer to its return. -/
theorem remaining_act (hlocated : Located way state) (hexited : state.exited ≠ none) :
    remaining way (step way capacity started state .act).phase ≤ remaining way state.phase - 1 := by
  rw [Located] at hlocated
  cases way with
  | pump =>
    show remaining .pump (actPump started state).phase ≤ _
    rw [actPump]
    split
    next hphase => simp [State.goTo, remaining, hphase]
    next hphase => simp [State.goTo, remaining, hphase]
    next hphase => simp [State.goTo, remaining, hphase]
    next hphase => simp [State.goTo, remaining, hphase, hexited]
    next hphase =>
      split
      · simp [State.goTo, remaining, hphase]
      · simp [State.goTo, remaining, hphase]
    next hphase => simp [State.goTo, remaining, hphase]
    next hphase => simp [State.goTo, remaining]
    next => cases hphase : state.phase <;> simp_all [remaining]
  | runProcess =>
    show remaining .runProcess (actRunProcess started state).phase ≤ _
    rw [actRunProcess]
    split
    next hphase => simp [State.goTo, remaining, hphase, hexited]
    next hphase => simp [State.goTo, remaining, hphase]
    next hphase => simp [State.goTo, remaining, hphase]
    next hphase =>
      split
      · simp [State.goTo, remaining, hphase]
      · simp [State.goTo, remaining, hphase]
    next hphase => simp [State.goTo, remaining, hphase]
    next hphase => simp [State.goTo, remaining, hphase, hexited]
    next hphase =>
      split
      · simp [State.goTo, remaining, hphase]
      · simp [State.goTo, remaining, hphase]
    next hphase => simp [State.goTo, remaining, hphase]
    next hphase => simp [State.goTo, remaining, hphase]
    next hphase => simp [State.goTo, remaining, hphase, hexited]
    next hphase => simp [State.goTo, remaining, hphase]
    next hphase => simp [State.goTo, remaining, hphase]
    next hphase => simp [State.goTo, remaining, hphase]
    next hphase => simp [State.goTo, remaining]
    next => cases hphase : state.phase <;> simp_all [remaining]

theorem done_of_remaining (hlocated : Located way state)
    (hzero : remaining way state.phase = 0) : state.phase = .done := by
  rw [Located] at hlocated
  cases hphase : state.phase with
  | done => rfl
  | idle =>
    have hpump : way = .pump := by simpa only [hphase] using hlocated
    rw [hpump, hphase] at hzero
    exact absurd hzero (by decide)
  | drain stream | graceDrain stream | killDrain stream | last stream =>
    cases way <;> cases stream <;> simp [remaining, hphase] at hzero
  | _ => cases way <;> simp [remaining, hphase] at hzero

/-- A compiler that has ended stays so, and only the manager moves the manager. -/
theorem exited_step (way : Way) (capacity started : ℕ) (hexited : state.exited ≠ none)
    (move : Move) :
    (step way capacity started state move).exited ≠ none ∧
      (move ≠ .act → (step way capacity started state move).phase = state.phase) := by
  cases move with
  | write stream bytes =>
    rw [step, if_neg fun hwrite ↦ hexited hwrite.1]
    exact ⟨hexited, fun _ ↦ rfl⟩
  | exit code =>
    rw [step, if_neg hexited]
    exact ⟨hexited, fun _ ↦ rfl⟩
  | wait msec => exact ⟨hexited, fun _ ↦ rfl⟩
  | act =>
    refine ⟨?_, fun hact ↦ absurd rfl hact⟩
    have hkept : (step way capacity started state .act).exited = state.exited := by
      cases way with
      | pump =>
        show (actPump started state).exited = _
        rw [actPump]
        repeat' split
        all_goals simp [State.goTo, State.terminate, State.expire, State.complete]
      | runProcess =>
        show (actRunProcess started state).exited = _
        rw [actRunProcess]
        repeat' split
        all_goals simp [State.goTo, State.terminate, State.expire, State.complete]
    rwa [hkept]

/-- Once the compiler has ended, the manager returns after a few accesses. -/
theorem phase_exec_of_exited (hcapacity : capacity ≤ pipeReadLimit) {state : State}
    (h : Sound way capacity started state) (hexited : state.exited ≠ none) (moves : List Move)
    (hacts : remaining way state.phase ≤ moves.count .act) :
    (exec (step way capacity started) state moves).phase = .done := by
  induction moves generalizing state with
  | nil =>
    exact done_of_remaining h.located (Nat.le_zero.mp hacts)
  | cons move moves ih =>
    obtain ⟨hstays, hphase⟩ := exited_step way capacity started hexited move
    refine ih (sound_step h hcapacity move) hstays ?_
    by_cases hmove : move = .act
    · subst hmove
      rw [List.count_cons_self] at hacts
      exact (remaining_act h.located hexited).trans (Nat.sub_le_of_le_add hacts)
    · rw [hphase hmove]
      rwa [List.count_cons_of_ne hmove] at hacts

/-- What a manager has returned: the code of a compiler that has ended, unless it was killed, which
it was only when its time was over, and the report on everything that it has written to either pipe,
in an order of reading. -/
def Reported (way : Way) (started : ℕ) (state : State) (code : ℤ) (text : ByteString) : Prop :=
  ∃ exitCode, state.exited = some exitCode ∧
    (∀ time ∈ state.kills, started + compilerTimeoutMsec ≤ time) ∧
    code = (if state.kills = [] then exitCode else 124) ∧
    ∃ early late : List (Stream × ByteString), (state.kills = [] → late = []) ∧
      (∀ stream, bytesOf stream (early ++ late) = state.written stream) ∧
      text = report way (state.kills ≠ []) (allBytes early) (allBytes late)

theorem reported_of_sound (h : Sound way capacity started state) {code : ℤ} {text : ByteString}
    (hresult : state.result = some (code, text)) : Reported way started state code text := by
  have hdone : state.phase = .done := by
    by_contra hphase
    rw [h.result hphase] at hresult
    cases hresult
  have hlocated := h.located
  rw [Located, hdone] at hlocated
  obtain ⟨exitCode, hexited, hempty, hreturned⟩ := hlocated
  have haccounted := h.accounted
  have htimedOut : state.timedOut = decide (state.kills ≠ []) := by
    rw [Bool.eq_iff_iff, haccounted.killed, decide_eq_true_eq]
  rw [hreturned] at hresult
  obtain ⟨hcode, htext⟩ := Prod.mk.inj (Option.some.inj hresult)
  refine ⟨exitCode, hexited, haccounted.kills, ?_, state.early, state.late, ?_, ?_, ?_⟩
  · rw [← hcode, htimedOut]
    by_cases hkills : state.kills = []
    · simp [hkills]
    · simp [hkills]
  · intro hkills
    exact haccounted.late_nil (by simp [htimedOut, hkills])
  · intro stream
    rw [← haccounted.read stream, hempty stream, List.append_nil]
  · rw [← htext, htimedOut]

/-- In every run, whatever the compiler and the manager do between each other, the manager returns
the report on all that the compiler has written, and once the compiler has ended it returns within
eight accesses. -/
theorem output_reported (way : Way) (started : ℕ) {capacity : ℕ}
    (hcapacity : capacity ≤ pipeReadLimit) (moves : List Move) :
    (∀ code text,
      (exec (step way capacity started) (initial way started) moves).result = some (code, text) →
        Reported way started (exec (step way capacity started) (initial way started) moves)
          code text) ∧
    ((exec (step way capacity started) (initial way started) moves).exited ≠ none →
      ∀ more : List Move, 8 ≤ more.count .act →
        (exec (step way capacity started) (initial way started) (moves ++ more)).result ≠
          none) := by
  have hinitial : Sound way capacity started (initial way started) := sound_initial
  have hsound := sound_exec hcapacity hinitial moves
  refine ⟨fun code text ↦ reported_of_sound hsound, ?_⟩
  intro hexited more hacts
  have hdone := phase_exec_of_exited hcapacity hsound hexited more ((remaining_le _ _).trans hacts)
  have hlater := sound_exec hcapacity hsound more
  have hlocated := hlater.located
  rw [Located, hdone] at hlocated
  obtain ⟨code, -, -, hresult⟩ := hlocated
  rw [exec_append, hresult]
  exact Option.some_ne_none _

end Runs

/-- A compiler reports an error, which waits in its pipe when it ends. -/
def failingRun : List Move :=
  [.act, .act, .act, .write .stderr (ascii "error"), .exit 1, .act, .act, .act]

theorem failingRun_reported :
    Reported .pump 0 (exec (step .pump pipeReadLimit 0) (initial .pump 0) failingRun) 1
      (ascii "error") :=
  (output_reported .pump 0 le_rfl failingRun).1 1 (ascii "error") (by decide)

end Gzscript.Build.CompilerOutput
