import Gzscript.Library.Bytes
import Gzscript.Library.Processes

/-!
# Method binds are resolved once

A generated method calls the engine by a method bind, which `MethodCache.get` looks up at the first
call and keeps. Callers may be any number of threads. The one that finds `state` at 0 and sets it to
1 looks the bind up, writes it to `value` and sets `state` to 2; every other one waits until then.
`get` is the program of a caller with one atomic step at each point, and the lookup is answered by
the engine as it is at that time.

At most one caller is on its way from 1 to 2 (`Point.Owns`), and nothing but its steps changes the
cache from then on (`get_unchanged`), which is why the outline of the program is valid
(`outline_valid`). Of every run it follows that the bind is looked up at most once, that `value` is
written before `state` is 2 and read afterwards, and that all callers get one result
(`run_resolvedOnce`).
-/

set_option autoImplicit false
set_option relaxedAutoImplicit false

namespace Gzscript.Abi.MethodBinds

open Library.Bytes Library.Transition Library.Processes

variable {Pointer Caller : Type}

/-- `MethodBind`: a pointer of the engine, or null. -/
abbrev MethodBind (Pointer : Type) := Option Pointer

/-- The table of functions of the engine, as far as it is used here. -/
structure EngineApi (Pointer : Type) where
  getMethodBind : ByteString → ByteString → Int64 → MethodBind Pointer

/-- `runtime.getMethodBind`. -/
def getMethodBind (engineApi : Option (EngineApi Pointer)) (className methodName : ByteString)
    (hash : Int64) : MethodBind Pointer :=
  engineApi.bind fun api ↦ api.getMethodBind className methodName hash

/-! ### The cache -/

/-- What a cache is made for at compile time. -/
structure Method where
  className : ByteString
  methodName : ByteString
  hash : Int64

structure MethodCache (Pointer : Type) where
  value : MethodBind Pointer := none
  state : UInt8 := 0

inductive Error where
  | methodBindNotFound
  deriving DecidableEq

/-- Where a caller of `get` is, by the step it takes next. -/
inductive Point (Pointer : Type)
  | load
  | exchange
  | lookup
  | write (bind : MethodBind Pointer)
  | store
  | spin
  | read
  | returned (result : Except Error Pointer)

/-- What an atomic step of `get` is. -/
inductive Event (Pointer : Type)
  | loaded (state : UInt8)
  | exchanged (success : Bool)
  | lookedUp (bind : MethodBind Pointer)
  | wrote (bind : MethodBind Pointer)
  | stored (state : UInt8)
  | read (bind : MethodBind Pointer)

/-- `value orelse error.MethodBindNotFound`. -/
def orNotFound : MethodBind Pointer → Except Error Pointer
  | some pointer => .ok pointer
  | none => .error .methodBindNotFound

/-- `MethodCache.get`, one atomic step at a time. -/
def get (method : Method) (cache : MethodCache Pointer) :
    Point Pointer → Option (EngineApi Pointer) →
      Option (Move (MethodCache Pointer) (Point Pointer) (Event Pointer))
  | .load, _ => some
    { shared := cache
      point := if cache.state ≠ 2 then .exchange else .read
      event := .loaded cache.state }
  | .exchange, _ =>
    if cache.state = 0 then some
      { shared := { cache with state := 1 }
        point := .lookup
        event := .exchanged true }
    else some
      { shared := cache
        point := .spin
        event := .exchanged false }
  | .lookup, engineApi =>
    let bind := getMethodBind engineApi method.className method.methodName method.hash
    some { shared := cache, point := .write bind, event := .lookedUp bind }
  | .write bind, _ => some
    { shared := { cache with value := bind }
      point := .store
      event := .wrote bind }
  | .store, _ => some
    { shared := { cache with state := 2 }
      point := .read
      event := .stored 2 }
  | .spin, _ => some
    { shared := cache
      point := if cache.state ≠ 2 then .spin else .read
      event := .loaded cache.state }
  | .read, _ => some
    { shared := cache
      point := .returned (orNotFound cache.value)
      event := .read cache.value }
  | .returned _, _ => none

/-- No caller has begun yet. -/
def initial : System (MethodCache Pointer) (Point Pointer) (Event Pointer) Caller where
  shared := {}
  point _ := .load
  log := []

/-- The callers after the steps of a schedule. -/
def run [DecidableEq Caller] (method : Method)
    (schedule : List (Caller × Option (EngineApi Pointer))) :
    System (MethodCache Pointer) (Point Pointer) (Event Pointer) Caller :=
  exec (System.step (get method)) initial schedule

/-- What the next step of a caller does. -/
def performs (method : Method)
    (system : System (MethodCache Pointer) (Point Pointer) (Event Pointer) Caller)
    (turn : Caller × Option (EngineApi Pointer)) : Option (Event Pointer) :=
  (system.next (get method) turn).map Move.event

/-! ### What has been looked up -/

def Event.answer? : Event Pointer → Option (MethodBind Pointer)
  | .lookedUp bind => some bind
  | _ => none

/-- The answers to the lookups so far. -/
def lookups (log : List (Event Pointer)) : List (MethodBind Pointer) :=
  log.filterMap Event.answer?

theorem lookups_concat (log : List (Event Pointer)) (event : Event Pointer) :
    lookups (log ++ [event]) = lookups log ++ event.answer?.toList := by
  rw [lookups, List.filterMap_append, lookups]
  cases event <;> rfl

/-! ### The outline of the program -/

/-- The caller has set `state` to 1 and not yet to 2. -/
def Point.Owns : Point Pointer → Prop
  | .lookup | .write _ | .store => True
  | .load | .exchange | .spin | .read | .returned _ => False

/-- The caller has not got hold of the cache nor seen that it is ready. -/
def Point.Waits : Point Pointer → Prop
  | .load | .exchange | .spin => True
  | .lookup | .write _ | .store | .read | .returned _ => False

theorem Point.Waits.not_owns {point : Point Pointer} (h : point.Waits) : ¬ point.Owns := by
  cases point <;> first | exact not_false | cases h

/-- What is to hold of the cache after some answers to lookups. -/
structure CacheOk (cache : MethodCache Pointer) (answers : List (MethodBind Pointer)) : Prop where
  once : answers.length ≤ 1
  fresh : cache.state = 0 → answers = []
  ready : cache.state = 2 → answers = [cache.value]

/-- What a caller relies on at a point. -/
def PointOk (cache : MethodCache Pointer) (answers : List (MethodBind Pointer)) :
    Point Pointer → Prop
  | .load | .exchange | .spin => True
  | .lookup => cache.state = 1 ∧ answers = []
  | .write bind => cache.state = 1 ∧ answers = [bind]
  | .store => cache.state = 1 ∧ answers = [cache.value]
  | .read => cache.state = 2
  | .returned result => cache.state = 2 ∧ result = orNotFound cache.value

def outline : Outline (MethodCache Pointer) (Point Pointer) (Event Pointer) where
  shared cache log := CacheOk cache (lookups log)
  process cache log := PointOk cache (lookups log)
  compatible first second := ¬ (first.Owns ∧ second.Owns)

section Steps

variable {method : Method} {cache : MethodCache Pointer} {answers : List (MethodBind Pointer)}
  {log : List (Event Pointer)} {point other : Point Pointer}
  {engineApi : Option (EngineApi Pointer)}
  {move : Move (MethodCache Pointer) (Point Pointer) (Event Pointer)}

theorem CacheOk.of_claimed (honce : answers.length ≤ 1) (hstate : cache.state = 1) :
    CacheOk cache answers where
  once := honce
  fresh hfresh := absurd (hstate.symm.trans hfresh) (by decide)
  ready hready := absurd (hstate.symm.trans hready) (by decide)

theorem PointOk.of_waits (h : point.Waits) : PointOk cache answers point := by
  cases point <;> first | exact trivial | cases h

/-- A caller that does not wait tells the state of the cache by whether it owns it. -/
theorem PointOk.waits_or (h : PointOk cache answers point) :
    point.Waits ∨ point.Owns ∧ cache.state = 1 ∨ ¬ point.Owns ∧ cache.state = 2 := by
  cases point with
  | load => exact .inl trivial
  | exchange => exact .inl trivial
  | spin => exact .inl trivial
  | lookup => exact .inr (.inl ⟨trivial, h.1⟩)
  | write bind => exact .inr (.inl ⟨trivial, h.1⟩)
  | store => exact .inr (.inl ⟨trivial, h.1⟩)
  | read => exact .inr (.inr ⟨not_false, h⟩)
  | returned result => exact .inr (.inr ⟨not_false, h.1⟩)

theorem PointOk.state_of_owns (h : PointOk cache answers point) (howns : point.Owns) :
    cache.state = 1 := by
  obtain hwaits | ⟨-, hstate⟩ | ⟨hnot, -⟩ := h.waits_or
  · exact absurd howns hwaits.not_owns
  · exact hstate
  · exact absurd howns hnot

/-- Where a caller goes that has loaded the state. -/
theorem pointOk_of_loaded (hwaits : point.Waits) :
    PointOk cache answers (if cache.state ≠ 2 then point else .read) := by
  split_ifs with hstate
  · exact .of_waits hwaits
  · exact not_not.mp hstate

theorem not_owns_of_loaded (hwaits : point.Waits) :
    ¬ (if cache.state ≠ 2 then point else .read).Owns := by
  split_ifs
  · exact hwaits.not_owns
  · exact not_false

theorem lookups_of_quiet {event : Event Pointer} (hevent : event.answer? = none) :
    lookups (log ++ [event]) = lookups log := by
  rw [lookups_concat, hevent, Option.toList_none, List.append_nil]

/-- Once `state` is not 0, a caller that does not own the cache changes nothing. -/
theorem get_unchanged (hmove : get method cache point engineApi = some move)
    (howns : ¬ point.Owns) (hstate : cache.state ≠ 0) :
    move.shared = cache ∧ move.event.answer? = none ∧ ¬ move.point.Owns := by
  cases point with
  | load =>
    obtain rfl := Option.some.inj hmove
    exact ⟨rfl, rfl, not_owns_of_loaded trivial⟩
  | exchange =>
    rw [get, if_neg hstate] at hmove
    obtain rfl := Option.some.inj hmove
    exact ⟨rfl, rfl, not_false⟩
  | lookup => exact absurd trivial howns
  | write bind => exact absurd trivial howns
  | store => exact absurd trivial howns
  | spin =>
    obtain rfl := Option.some.inj hmove
    exact ⟨rfl, rfl, not_owns_of_loaded trivial⟩
  | read =>
    obtain rfl := Option.some.inj hmove
    exact ⟨rfl, rfl, not_false⟩
  | returned result => cases hmove

/-- A step keeps what is to hold of the cache and of the caller that takes it. -/
theorem get_own (hmove : get method cache point engineApi = some move)
    (hcache : CacheOk cache (lookups log)) (h : PointOk cache (lookups log) point) :
    CacheOk move.shared (lookups (log ++ [move.event])) ∧
      PointOk move.shared (lookups (log ++ [move.event])) move.point := by
  cases point with
  | load =>
    obtain rfl := Option.some.inj hmove
    rw [lookups_of_quiet rfl]
    exact ⟨hcache, pointOk_of_loaded trivial⟩
  | exchange =>
    rw [get] at hmove
    split_ifs at hmove with hstate
    · obtain rfl := Option.some.inj hmove
      rw [lookups_of_quiet rfl]
      exact ⟨.of_claimed hcache.once rfl, rfl, hcache.fresh hstate⟩
    · obtain rfl := Option.some.inj hmove
      rw [lookups_of_quiet rfl]
      exact ⟨hcache, trivial⟩
  | lookup =>
    obtain rfl := Option.some.inj hmove
    obtain ⟨hstate, hanswers⟩ := h
    rw [lookups_concat, hanswers]
    exact ⟨.of_claimed (Nat.le_refl 1) hstate, hstate, rfl⟩
  | write bind =>
    obtain rfl := Option.some.inj hmove
    obtain ⟨hstate, hanswers⟩ := h
    rw [lookups_of_quiet rfl, hanswers]
    exact ⟨.of_claimed (Nat.le_refl 1) hstate, hstate, rfl⟩
  | store =>
    obtain rfl := Option.some.inj hmove
    obtain ⟨hstate, hanswers⟩ := h
    rw [lookups_of_quiet rfl]
    refine ⟨⟨hcache.once, fun hfresh ↦ ?_, fun _ ↦ hanswers⟩, rfl⟩
    exact absurd (show (2 : UInt8) = 0 from hfresh) (by decide)
  | spin =>
    obtain rfl := Option.some.inj hmove
    rw [lookups_of_quiet rfl]
    exact ⟨hcache, pointOk_of_loaded trivial⟩
  | read =>
    obtain rfl := Option.some.inj hmove
    rw [lookups_of_quiet rfl]
    exact ⟨hcache, h, rfl⟩
  | returned result => cases hmove

/-- A step leaves what another caller relies on, and does not get hold of what it owns. -/
theorem get_other (hmove : get method cache point engineApi = some move)
    (h : PointOk cache (lookups log) point) (hother : PointOk cache (lookups log) other)
    (hapart : ¬ (point.Owns ∧ other.Owns)) :
    PointOk move.shared (lookups (log ++ [move.event])) other ∧
      ¬ (move.point.Owns ∧ other.Owns) := by
  by_cases hwaits : other.Waits
  · exact ⟨.of_waits hwaits, fun howns ↦ hwaits.not_owns howns.2⟩
  · obtain hothers := hother.waits_or.resolve_left hwaits
    have hstate : cache.state ≠ 0 := by
      obtain ⟨-, hstate⟩ | ⟨-, hstate⟩ := hothers <;> (rw [hstate]; decide)
    have howns : ¬ point.Owns := by
      intro howns
      obtain ⟨hboth, -⟩ | ⟨-, hready⟩ := hothers
      · exact hapart ⟨howns, hboth⟩
      · exact absurd ((h.state_of_owns howns).symm.trans hready) (by decide)
    obtain ⟨hshared, hquiet, hnot⟩ := get_unchanged hmove howns hstate
    rw [hshared, lookups_of_quiet hquiet]
    exact ⟨hother, fun hboth ↦ hnot hboth.1⟩

/-- A step that writes the value or reads it is the one of its point. -/
theorem get_wrote {bind : MethodBind Pointer}
    (hmove : get method cache point engineApi = some move) (hevent : move.event = .wrote bind) :
    point = .write bind := by
  cases point with
  | write other =>
    obtain rfl := Option.some.inj hmove
    exact congrArg Point.write (Event.wrote.inj hevent)
  | exchange =>
    rw [get] at hmove
    split_ifs at hmove <;> (obtain rfl := Option.some.inj hmove; cases hevent)
  | returned result => cases hmove
  | load | lookup | store | spin | read =>
    obtain rfl := Option.some.inj hmove
    cases hevent

theorem get_read {bind : MethodBind Pointer}
    (hmove : get method cache point engineApi = some move) (hevent : move.event = .read bind) :
    point = .read := by
  cases point with
  | read => rfl
  | exchange =>
    rw [get] at hmove
    split_ifs at hmove <;> (obtain rfl := Option.some.inj hmove; cases hevent)
  | returned result => cases hmove
  | load | lookup | write | store | spin =>
    obtain rfl := Option.some.inj hmove
    cases hevent

theorem outline_valid (method : Method) :
    (outline : Outline (MethodCache Pointer) (Point Pointer) (Event Pointer)).Valid
      (get method) where
  symm hapart hboth := hapart hboth.symm
  own hmove hcache h := get_own hmove hcache h
  other hmove _ h hother hapart := get_other hmove h hother hapart

end Steps

/-! ### Runs -/

theorem initial_holds : outline.Holds
    (initial : System (MethodCache Pointer) (Point Pointer) (Event Pointer) Caller) where
  shared :=
    { once := Nat.zero_le 1
      fresh := fun _ ↦ rfl
      ready := fun hready ↦ absurd (show (0 : UInt8) = 2 from hready) (by decide) }
  process _ := trivial
  compatible _ _ _ hboth := hboth.1

variable [DecidableEq Caller] (method : Method)

theorem run_holds (schedule : List (Caller × Option (EngineApi Pointer))) :
    outline.Holds (run method schedule) :=
  (outline_valid method).run initial_holds schedule

section Ready

variable {method}
  {system : System (MethodCache Pointer) (Point Pointer) (Event Pointer) Caller}

/-- A ready cache stays as it is. -/
theorem step_of_ready (h : outline.Holds system) (hready : system.shared.state = 2)
    (turn : Caller × Option (EngineApi Pointer)) :
    (system.step (get method) turn).shared = system.shared := by
  cases hnext : system.next (get method) turn with
  | none => rw [System.step_of_ended hnext]
  | some move =>
    rw [System.step_of_next hnext]
    have howns : ¬ (system.point turn.1).Owns := fun howns ↦
      absurd (((h.process turn.1).state_of_owns howns).symm.trans hready) (by decide)
    exact (get_unchanged hnext howns (by rw [hready]; decide)).1

theorem exec_of_ready (h : outline.Holds system) (hready : system.shared.state = 2)
    (later : List (Caller × Option (EngineApi Pointer))) :
    (exec (System.step (get method)) system later).shared = system.shared := by
  induction later generalizing system with
  | nil => rfl
  | cons turn later ih =>
    have hstep : (system.step (get method) turn).shared = system.shared :=
      step_of_ready h hready turn
    rw [exec_cons, ih ((outline_valid method).step h turn) (by rw [hstep]; exact hready), hstep]

end Ready

/-- Whatever the callers and the order of their steps: the bind is looked up at most once, its value
is not written when the state is 2 or after that and not read before, and every caller that returns
has the result of the one lookup. -/
theorem run_resolvedOnce (schedule : List (Caller × Option (EngineApi Pointer))) :
    (lookups (run method schedule).log).length ≤ 1 ∧
    (∀ later turn bind, (run method schedule).shared.state = 2 →
      performs method (run method (schedule ++ later)) turn ≠ some (.wrote bind)) ∧
    (∀ turn bind, performs method (run method schedule) turn = some (.read bind) →
      (run method schedule).shared.state = 2) ∧
    ∀ caller result, (run method schedule).point caller = .returned result →
      (∃ bind, lookups (run method schedule).log = [bind] ∧ result = orNotFound bind) ∧
      ∀ other result', (run method schedule).point other = .returned result' →
        result' = result := by
  have h := run_holds method schedule
  refine ⟨h.shared.once, fun later turn bind hready hwrote ↦ ?_, fun turn bind hread ↦ ?_,
    fun caller result hresult ↦ ?_⟩
  · obtain ⟨move, hmove, hevent⟩ := Option.map_eq_some_iff.mp hwrote
    have hpoint := (run_holds method (schedule ++ later)).process turn.1
    rw [get_wrote hmove hevent] at hpoint
    have hstate : (run method (schedule ++ later)).shared = (run method schedule).shared := by
      rw [run, exec_append]
      exact exec_of_ready h hready later
    rw [hstate] at hpoint
    exact absurd (hpoint.1.symm.trans hready) (by decide)
  · obtain ⟨move, hmove, hevent⟩ := Option.map_eq_some_iff.mp hread
    have hpoint := h.process turn.1
    rw [get_read hmove hevent] at hpoint
    exact hpoint
  · have hpoint := h.process caller
    rw [hresult] at hpoint
    obtain ⟨hready, hfound⟩ := hpoint
    refine ⟨⟨_, h.shared.ready hready, hfound⟩, fun other result' hother ↦ ?_⟩
    have hpoint := h.process other
    rw [hother] at hpoint
    exact hpoint.2.trans hfound.symm

/-- The second caller comes while the first one looks the bind up, and waits for it. -/
example : (run ⟨ascii "Node", ascii "queue_free", 1⟩
      ([false, false, true, true, false, true, false, false, true, true].map
        fun caller ↦ (caller, some ⟨fun _ _ _ ↦ some 7⟩))).point true =
    .returned (.ok 7) := rfl

end Gzscript.Abi.MethodBinds
