import Gzscript.Lsp.Synchronisation

/-!
# Queries that wait for no server

A query is recorded as pending before the server is started, and `start` refuses without a trace
when the server has failed and may not be tried again yet (`RefusesStart`). The query then stays
pending without a server, and repeats of it return early. Until shutdown begins, no query is
stranded in any state of a run exactly when no new query comes at such a time
(`run_notStranded_iff`). `secondLookup_stranded` is a run in which one does.
-/

set_option autoImplicit false
set_option relaxedAutoImplicit false

namespace Gzscript.Lsp.PendingQueries

open Library.Bytes Library.Transition Protocol Session Session.GzLspClient Synchronisation

variable {engine : Engine} {clock : Clock}

/-! ### Stranded queries -/

/-- A server is running or starting. -/
def IsLive (client : GzLspClient) : Prop :=
  client.state = .initializing ∨ client.state = .ready

def ShutdownBegun (client : GzLspClient) : Prop :=
  client.shutdownStarted = true ∨ client.lifecycleShutdown = true

/-- No query is pending unless a server is running or starting. -/
def Settled (client : GzLspClient) : Prop :=
  client.hasPendingCompletion = true ∨ client.hasPendingDefinition = true → IsLive client

/-- Before shutdown begins, no query is stranded. -/
def NotStranded (client : GzLspClient) : Prop := ¬ ShutdownBegun client → Settled client

/-- `start` returns without an attempt, because the server has failed and has had its second try
or failed a short time ago. -/
def RefusesStart (clock : Clock) (client : GzLspClient) : Prop :=
  client.state = .failed ∧
    (1 ≤ client.consecutiveRestarts ∨
      client.now clock - client.failedAtMsec < restartBackoffMsec)

/-- Before shutdown begins, a query that is neither cached nor pending does not come when `start`
refuses. `complete` reads the clock once before it starts the server. -/
def Welcome (engine : Engine) (clock : Clock) (client : GzLspClient) : Op → Prop
  | .call (.complete code path _) =>
    ¬ ShutdownBegun client → path ≠ [] →
      client.isNewCompletion (makeQuery engine code path) = true → ¬ RefusesStart clock client.read
  | .call (.lookup code path _) =>
    ¬ ShutdownBegun client → path ≠ [] →
      client.isNewDefinition (makeQuery engine code path) = true → ¬ RefusesStart clock client
  | _ => True

/-! ### The flags of a shutdown -/

/-- What only a shutdown changes. -/
def flags (client : GzLspClient) : Bool × Bool :=
  (client.shutdownStarted, client.lifecycleShutdown)

theorem shutdownBegun_congr {client other : GzLspClient} (h : flags other = flags client) :
    ShutdownBegun other ↔ ShutdownBegun client := by
  obtain ⟨hstarted, hlifecycle⟩ := Prod.ext_iff.mp h
  rw [ShutdownBegun, ShutdownBegun, show other.shutdownStarted = client.shutdownStarted from
    hstarted, show other.lifecycleShutdown = client.lifecycleShutdown from hlifecycle]

/-! ### What sending leaves as it is -/

/-- The state, the input and the flags of a shutdown are as they were. -/
structure Untouched (client other : GzLspClient) : Prop where
  state : other.state = client.state
  input : other.input = client.input
  flags : flags other = flags client

theorem Untouched.refl (client : GzLspClient) : Untouched client client := ⟨rfl, rfl, rfl⟩

theorem Untouched.trans {first second third : GzLspClient} (h : Untouched first second)
    (h' : Untouched second third) : Untouched first third :=
  ⟨h'.state.trans h.state, h'.input.trans h.input, h'.flags.trans h.flags⟩

theorem send_untouched (client : GzLspClient) (message : ClientMessage) :
    Untouched client (client.send message) := by
  rw [send]
  split
  · exact ⟨rfl, rfl, rfl⟩
  · exact .refl client

theorem request_untouched (client : GzLspClient) (message : ℤ → ClientMessage)
    (kind : RequestKind) (query : Query) :
    Untouched client (client.request clock message kind query) := by
  refine .trans ?_ (send_untouched _ _)
  exact ⟨rfl, rfl, rfl⟩

theorem synchronize_untouched (client : GzLspClient) (query : Query) :
    Untouched client (client.synchronize query) := by
  unfold synchronize
  split
  · refine .trans ?_ (send_untouched _ _)
    exact ⟨rfl, rfl, rfl⟩
  · split
    · exact .refl client
    · refine .trans ?_ (send_untouched _ _)
      exact ⟨rfl, rfl, rfl⟩

theorem sendDefinition_untouched (client : GzLspClient) (query : Query) :
    Untouched client (client.sendDefinition clock query) :=
  (synchronize_untouched client query).trans (request_untouched _ _ _ _)

theorem sendCompletion_untouched (client : GzLspClient) (query : Query) :
    Untouched client (client.sendCompletion clock query) :=
  ((synchronize_untouched client query).trans (request_untouched _ _ _ _)).trans ⟨rfl, rfl, rfl⟩

theorem afterStart_untouched (started : Bool × GzLspClient) (query : Query) :
    Untouched started.2 (afterStart clock started query) := by
  unfold afterStart
  split
  · exact sendDefinition_untouched _ _
  · exact .refl _

@[simp] theorem launch_flags (client : GzLspClient) (launches : Bool) :
    flags (client.launch clock launches).2 = flags client := by
  unfold launch
  split
  · exact (request_untouched _ _ _ _).flags
  · rfl

@[simp] theorem start_flags (client : GzLspClient) (launches : Bool) :
    flags (client.start clock launches).2 = flags client := by
  unfold start
  split
  · rfl
  · split
    · rfl
    · rfl
    · split_ifs
      · rfl
      · rfl
      · exact launch_flags _ _
    · exact launch_flags _ _

@[simp] theorem call_flags (client : GzLspClient) (call : Call) :
    flags (client.call engine clock call) = flags client := by
  cases call with
  | complete code path launches =>
    simp only [GzLspClient.call, complete]
    split_ifs
    · rfl
    · exact start_flags _ _
    · rfl
    · rfl
  | lookup code path launches =>
    simp only [GzLspClient.call, lookup]
    split_ifs
    · rfl
    · exact (afterStart_untouched _ _).flags.trans (start_flags _ _)
    · rfl
    · rfl

/-! ### A live server -/

theorem IsLive.settled {client : GzLspClient} (h : IsLive client) : Settled client := fun _ ↦ h

theorem isLive_congr {client other : GzLspClient} (hstate : other.state = client.state) :
    IsLive other ↔ IsLive client := by
  rw [IsLive, IsLive, hstate]

/-- Fewer pending queries in the same state. -/
theorem Settled.mono {client other : GzLspClient} (h : Settled client)
    (hstate : other.state = client.state)
    (hcompletion : other.hasPendingCompletion = true → client.hasPendingCompletion = true)
    (hdefinition : other.hasPendingDefinition = true → client.hasPendingDefinition = true) :
    Settled other := by
  intro hpending
  exact (isLive_congr hstate).mpr (h (hpending.imp hcompletion hdefinition))

theorem fail_settled (client : GzLspClient) (message : Text) :
    Settled (client.fail clock message) := by
  intro hpending
  rcases hpending with hpending | hpending <;> cases hpending

theorem send_settled {client : GzLspClient} (h : Settled client) (message : ClientMessage) :
    Settled (client.send message) := by
  rw [send]
  split
  · exact h
  · exact h

theorem start_of_live {client : GzLspClient} (h : IsLive client) (launches : Bool) :
    (client.start clock launches).2 = client := by
  unfold start
  rcases h with hstate | hstate
  · rw [hstate]
    split <;> rfl
  · rw [hstate]
    split <;> rfl

/-- The editor's calls neither start nor fail a server that is live. -/
theorem call_untouched_of_live {client : GzLspClient} (h : IsLive client) (call : Call) :
    Untouched client (client.call engine clock call) := by
  cases call with
  | complete code path launches =>
    have hrecord : IsLive (client.recordCompletion clock (makeQuery engine code path)) := h
    simp only [GzLspClient.call, complete]
    split_ifs
    · exact .refl client
    · rw [start_of_live hrecord]
      exact ⟨rfl, rfl, rfl⟩
    · exact .refl client
    · exact .refl client
  | lookup code path launches =>
    have hrecord : IsLive (client.recordDefinition (makeQuery engine code path)) := h
    simp only [GzLspClient.call, lookup]
    split_ifs
    · exact .refl client
    · refine Untouched.trans ?_ (afterStart_untouched _ _)
      rw [start_of_live hrecord]
      exact ⟨rfl, rfl, rfl⟩
    · exact .refl client
    · exact .refl client

theorem calls_untouched {client : GzLspClient} (h : IsLive client) (calls : List Call) :
    Untouched client (calls.foldl (GzLspClient.call engine clock) client) := by
  induction calls generalizing client with
  | nil => exact .refl client
  | cons call calls ih =>
    have hcall := @call_untouched_of_live engine clock client h call
    exact hcall.trans (ih ((isLive_congr hcall.state).mpr h))

theorem calls_live {client : GzLspClient} (h : IsLive client) (calls : List Call) :
    IsLive (calls.foldl (GzLspClient.call engine clock) client) :=
  (isLive_congr (calls_untouched h calls).state).mpr h

/-! ### The editor's calls -/

theorem launch_settled (client : GzLspClient) (launches : Bool) :
    Settled (client.launch clock launches).2 := by
  unfold launch
  split
  · exact IsLive.settled (.inl (request_untouched _ _ _ _).state)
  · exact fail_settled _ _

/-- Unless it refuses, `start` leaves no query without a server. -/
theorem start_settled {client : GzLspClient} (hbegun : ¬ ShutdownBegun client)
    (haccepts : ¬ RefusesStart clock client) (launches : Bool) :
    Settled (client.start clock launches).2 := by
  have hrunning : (client.shutdownStarted || client.lifecycleShutdown) = false := by
    rw [← Bool.not_eq_true, Bool.or_eq_true]
    exact hbegun
  rw [start, hrunning, if_neg Bool.false_ne_true]
  split
  next hstate => exact IsLive.settled (.inr hstate)
  next hstate => exact IsLive.settled (.inl hstate)
  next hstate =>
    rw [RefusesStart, not_and, not_or] at haccepts
    obtain ⟨hrestarts, hbackoff⟩ := haccepts hstate
    rw [if_neg hrestarts, if_neg hbackoff]
    exact launch_settled _ _
  next => exact launch_settled _ _

/-- When `start` refuses, it changes nothing but the number of readings. -/
theorem start_refused {client : GzLspClient} (hrefuses : RefusesStart clock client)
    (launches : Bool) :
    (client.start clock launches).2 = client ∨ (client.start clock launches).2 = client.read := by
  obtain ⟨hstate, hreason⟩ := hrefuses
  unfold start
  split
  · exact .inl rfl
  · simp only [hstate]
    split_ifs with hrestarts hbackoff
    · exact .inl rfl
    · exact .inr rfl
    · exact absurd hreason (not_or.mpr ⟨hrestarts, hbackoff⟩)

theorem afterStart_settled {started : Bool × GzLspClient} (h : Settled started.2) (query : Query) :
    Settled (afterStart clock started query) := by
  unfold afterStart
  split
  next hready =>
    rw [Bool.and_eq_true, decide_eq_true_eq] at hready
    exact IsLive.settled (.inr ((sendDefinition_untouched _ _).state.trans hready.2))
  next => exact h

/-- What `complete` does with a new query. -/
theorem complete_new {client : GzLspClient} {code path : Text} (hpath : path ≠ [])
    (hnew : client.isNewCompletion (makeQuery engine code path) = true) (launches : Bool) :
    (client.complete engine clock code path launches).2 =
      ((client.recordCompletion clock (makeQuery engine code path)).start clock launches).2 := by
  have hnonempty : path.isEmpty = false := by simpa using hpath
  simp only [complete, hnonempty, Bool.false_eq_true, if_false, hnew, if_true]

/-- What `lookup` does with a new query. -/
theorem lookup_new {client : GzLspClient} {code path : Text} (hpath : path ≠ [])
    (hnew : client.isNewDefinition (makeQuery engine code path) = true) (launches : Bool) :
    (client.lookup engine clock code path launches).2 =
      afterStart clock
        ((client.recordDefinition (makeQuery engine code path)).start clock launches)
        (makeQuery engine code path) := by
  have hnonempty : path.isEmpty = false := by simpa using hpath
  simp only [lookup, hnonempty, Bool.false_eq_true, if_false, hnew, if_true]

/-- A query that is not new changes nothing. -/
theorem complete_old {client : GzLspClient} {code path : Text}
    (hold : path = [] ∨ client.isNewCompletion (makeQuery engine code path) = false)
    (launches : Bool) : (client.complete engine clock code path launches).2 = client := by
  simp only [complete]
  rcases hold with rfl | hold
  · rfl
  · simp only [hold, Bool.false_eq_true, if_false]
    split_ifs <;> rfl

theorem lookup_old {client : GzLspClient} {code path : Text}
    (hold : path = [] ∨ client.isNewDefinition (makeQuery engine code path) = false)
    (launches : Bool) : (client.lookup engine clock code path launches).2 = client := by
  simp only [lookup]
  rcases hold with rfl | hold
  · rfl
  · simp only [hold, Bool.false_eq_true, if_false]
    split_ifs <;> rfl

/-- A new query that is welcome is not stranded. -/
theorem call_notStranded {client : GzLspClient} (h : NotStranded client) (call : Call)
    (hwelcome : Welcome engine clock client (.call call)) :
    NotStranded (client.call engine clock call) := by
  intro hafter
  have hbegun : ¬ ShutdownBegun client := by rwa [shutdownBegun_congr (call_flags _ _)] at hafter
  cases call with
  | complete code path launches =>
    by_cases hold : path = [] ∨ client.isNewCompletion (makeQuery engine code path) = false
    · rw [GzLspClient.call, complete_old hold]
      exact h hbegun
    · obtain ⟨hpath, hnew⟩ := not_or.mp hold
      rw [Bool.not_eq_false] at hnew
      rw [GzLspClient.call, complete_new hpath hnew]
      have hrunning :
          ¬ ShutdownBegun (client.recordCompletion clock (makeQuery engine code path)) :=
        hbegun
      exact start_settled hrunning (hwelcome hbegun hpath hnew) launches
  | lookup code path launches =>
    by_cases hold : path = [] ∨ client.isNewDefinition (makeQuery engine code path) = false
    · rw [GzLspClient.call, lookup_old hold]
      exact h hbegun
    · obtain ⟨hpath, hnew⟩ := not_or.mp hold
      rw [Bool.not_eq_false] at hnew
      rw [GzLspClient.call, lookup_new hpath hnew]
      have hrunning : ¬ ShutdownBegun (client.recordDefinition (makeQuery engine code path)) :=
        hbegun
      exact afterStart_settled (start_settled hrunning (hwelcome hbegun hpath hnew) launches) _

/-- A client that has failed is not settled while a query is pending. -/
theorem not_settled {client : GzLspClient} (hstate : client.state = .failed)
    (hpending : client.hasPendingCompletion = true ∨ client.hasPendingDefinition = true) :
    ¬ Settled client := by
  intro hsettled
  rcases hsettled hpending with hlive | hlive
  · rw [hstate] at hlive
    cases hlive
  · rw [hstate] at hlive
    cases hlive

theorem not_settled_of_refused {client : GzLspClient} (hrefuses : RefusesStart clock client)
    (hpending : client.hasPendingCompletion = true ∨ client.hasPendingDefinition = true)
    (launches : Bool) : ¬ Settled (client.start clock launches).2 := by
  rcases start_refused hrefuses launches with hsame | hread
  · rw [hsame]
    exact not_settled hrefuses.1 hpending
  · rw [hread]
    exact not_settled hrefuses.1 hpending

/-- A new query that is not welcome is stranded. -/
theorem call_stranded {client : GzLspClient} (call : Call)
    (hunwelcome : ¬ Welcome engine clock client (.call call)) :
    ¬ NotStranded (client.call engine clock call) := by
  intro hnot
  cases call with
  | complete code path launches =>
    simp only [Welcome, not_forall, not_not] at hunwelcome
    obtain ⟨hbegun, hpath, hnew, hrefuses⟩ := hunwelcome
    have hsettled := hnot ((shutdownBegun_congr (call_flags _ _)).not.mpr hbegun)
    rw [GzLspClient.call, complete_new hpath hnew] at hsettled
    have hrecorded : RefusesStart clock
        (client.recordCompletion clock (makeQuery engine code path)) := hrefuses
    exact not_settled_of_refused hrecorded (.inl rfl) launches hsettled
  | lookup code path launches =>
    simp only [Welcome, not_forall, not_not] at hunwelcome
    obtain ⟨hbegun, hpath, hnew, hrefuses⟩ := hunwelcome
    have hsettled := hnot ((shutdownBegun_congr (call_flags _ _)).not.mpr hbegun)
    rw [GzLspClient.call, lookup_new hpath hnew] at hsettled
    have hrecorded : RefusesStart clock
        (client.recordDefinition (makeQuery engine code path)) := hrefuses
    have hstarted : ¬ Settled
        ((client.recordDefinition (makeQuery engine code path)).start clock launches).2 :=
      not_settled_of_refused hrecorded (.inr rfl) launches
    have hfailed : ((client.recordDefinition (makeQuery engine code path)).start clock
        launches).2.state = .failed := by
      rcases start_refused hrecorded launches with hsame | hread
      · rw [hsame]
        exact hrefuses.1
      · rw [hread]
        exact hrefuses.1
    rw [afterStart, hfailed] at hsettled
    simp only [reduceCtorEq, decide_false, Bool.and_false, Bool.false_eq_true, if_false]
      at hsettled
    exact hstarted hsettled

/-! ### The server's messages and the pump -/

theorem abandon_untouched (client : GzLspClient) (pending : Request) :
    Untouched client (client.abandon pending) := by
  unfold abandon
  split
  · exact .refl client
  · exact ⟨rfl, rfl, rfl⟩
  · exact ⟨rfl, rfl, rfl⟩

theorem abandon_settled {client : GzLspClient} (h : Settled client) (pending : Request) :
    Settled (client.abandon pending) := by
  refine h.mono (abandon_untouched client pending).state ?_ ?_
  · unfold abandon
    split <;> simp_all
  · unfold abandon
    split <;> simp_all

/-- The answer to a request that was sent to a live server. -/
theorem handleAnswer_settled {client : GzLspClient} (h : IsLive client) (pending : Request)
    (message : List (Text × Json)) (listeners : List Call) :
    Settled (client.handleAnswer engine clock pending message listeners) := by
  simp only [handleAnswer]
  split
  next => exact abandon_settled h.settled pending
  next =>
    split
    next =>
      simp only [handleInitialized]
      split_ifs
      · exact fail_settled _ _
      · exact IsLive.settled (.inr (sendDefinition_untouched _ _).state)
      · exact IsLive.settled (.inr rfl)
    next =>
      have hflight : IsLive (client.setInFlight false) := h
      simp only [handleCompletion]
      split_ifs
      · have hcache (query : Query) (result : Json) :
            IsLive ((client.setInFlight false).cacheCompletion engine query result) := h
        exact (calls_live (hcache _ _) listeners).settled
      · exact hflight.settled
    next =>
      unfold handleDefinition
      split_ifs
      · exact IsLive.settled h
      · exact h.settled

theorem handleResponse_settled {client : GzLspClient} (hinStep : InStep client)
    (h : Settled client) (id : ℤ) (message : List (Text × Json)) (listeners : List Call) :
    Settled (client.handleResponse engine clock id message listeners) := by
  unfold handleResponse
  split
  next => exact h
  next pending hpending =>
    have hprocess : client.hasProcess = true := by
      by_contra hno
      rw [hinStep.requests (Bool.not_eq_true _ ▸ hno)] at hpending
      cases hpending
    have herase : IsLive (client.eraseRequest id) := hinStep.process.mp hprocess
    exact handleAnswer_settled herase pending message listeners

theorem handleBody_settled {client : GzLspClient} (hinStep : InStep client) (h : Settled client)
    (body : ByteString) (listeners : List Call) :
    Settled (client.handleBody engine clock body listeners) := by
  unfold handleBody
  split
  next message _ =>
    have hreceived : InStep (client.receive (.dictionary message)) :=
      hinStep.congr rfl rfl rfl rfl id rfl
    have hsettled : Settled (client.receive (.dictionary message)) := h
    unfold handle
    split_ifs
    · exact send_settled hsettled _
    · exact handleResponse_settled hreceived hsettled _ message listeners
    · exact hsettled
  next => exact h

theorem parseMessages_settled (pump : PumpInput) (left : ℕ) {client : GzLspClient}
    (hinStep : InStep client) (h : Settled client) :
    Settled (parseMessages engine clock pump left client) := by
  induction left generalizing client with
  | zero => exact h
  | succ left ih =>
    simp only [parseMessages]
    split
    next => exact h
    next =>
      split
      next => exact h
      next => exact fail_settled _ _
      next body rest _ =>
        have hinput : InStep (client.setInput rest) := hinStep.congr rfl rfl rfl rfl id rfl
        have hsettled : Settled (client.setInput rest) := h
        exact ih (handleBody_inStep hinput body _) (handleBody_settled hinput hsettled body _)

theorem expireRequests_settled {client : GzLspClient} (h : Settled client) (now : ℕ) :
    Settled (client.expireRequests now) := by
  have hfold (expired : List Request) {start : GzLspClient} (hstart : Settled start) :
      Settled (expired.foldl abandon start) := by
    induction expired generalizing start with
    | nil => exact hstart
    | cons pending expired ih => exact ih (abandon_settled hstart pending)
  exact hfold _ h

theorem serve_settled {client : GzLspClient} (h : Settled client) :
    Settled (client.serve clock) := by
  have hread : Settled client.read := h
  simp only [serve]
  split
  next hdue =>
    simp only [Bool.and_eq_true, decide_eq_true_eq] at hdue
    exact IsLive.settled (.inr ((sendCompletion_untouched _ _).state.trans hdue.1.1.1))
  next => exact expireRequests_settled hread _

theorem afterParsing_settled {client : GzLspClient} (h : Settled client) (pump : PumpInput) :
    Settled (client.afterParsing engine clock pump) := by
  have htrim (stderrOutput : ByteString) : Settled (client.setStderr stderrOutput) := h
  have hread (stderrOutput : ByteString) : Settled (client.setStderr stderrOutput).read := h
  simp only [afterParsing]
  split_ifs
  · exact fail_settled _ _
  · exact fail_settled _ _
  · exact fail_settled _ _
  · exact serve_settled (hread _)
  · exact serve_settled (htrim _)

/-! ### Runs -/

/-- A pump does nothing, or leaves no query without a server. -/
theorem pump_notStranded {client : GzLspClient} (hinStep : InStep client)
    (h : NotStranded client) (pump : PumpInput) :
    NotStranded (client.pump engine clock pump) := by
  unfold GzLspClient.pump
  split_ifs with hshutdown hidle
  · exact h
  · exact h
  · have hlive : IsLive client := by
      simp only [Bool.and_eq_true, decide_eq_true_eq, not_and, not_not] at hidle
      by_cases hstate : client.state = .initializing
      · exact .inl hstate
      · exact .inr (hidle hstate)
    have hdrain : InStep (client.drain pump) := hinStep.congr rfl rfl rfl rfl id rfl
    have hsettled : Settled (client.drain pump) := IsLive.settled hlive
    intro _
    exact afterParsing_settled (parseMessages_settled pump _ hdrain hsettled) pump

theorem shutdown_notStranded {client : GzLspClient} (h : NotStranded client)
    (isProcessRunning : Bool) : NotStranded (client.shutdown isProcessRunning) := by
  unfold GzLspClient.shutdown
  split
  next => exact h
  next => exact fun hbegun ↦ absurd (.inl rfl) hbegun

/-- A step strands no query if and only if it is welcome. -/
theorem step_notStranded_iff {client : GzLspClient} (hinStep : InStep client)
    (h : NotStranded client) (op : Op) :
    NotStranded (step engine clock client op) ↔ Welcome engine clock client op := by
  cases op with
  | call call =>
    constructor
    · intro hnot
      by_contra hunwelcome
      exact call_stranded call hunwelcome hnot
    · exact call_notStranded h call
  | pump pump => exact iff_of_true (pump_notStranded hinStep h pump) trivial
  | shutdown isProcessRunning => exact iff_of_true (shutdown_notStranded h _) trivial
  | beginLifecycleShutdown =>
    exact iff_of_true (fun hbegun ↦ absurd (.inr rfl) hbegun) trivial

theorem initial_notStranded : NotStranded initial := by
  intro _ hpending
  rcases hpending with hpending | hpending <;> cases hpending

variable (engine clock)

/-- Until shutdown begins, no query waits without a server in any state of a run exactly when no
query that is neither cached nor pending comes while the server has failed and may not be started
again. -/
theorem run_notStranded_iff (ops : List Op) :
    (∀ before after, ops = before ++ after → NotStranded (run engine clock before)) ↔
      Along (step engine clock) (Welcome engine clock) initial ops :=
  forall_exec_iff_along (step engine clock) (Welcome engine clock) NotStranded InStep step_inStep
    (fun _ op hinStep h ↦ step_notStranded_iff hinStep h op) initial_inStep initial_notStranded ops

/-! ### A stranded query -/

/-- An engine on a POSIX system whose paths need no encoding, and a server that answers nothing. -/
def plainEngine : Engine where
  globalizePath := id
  localizePath := id
  uriEncode := id
  uriDecode := id
  isWindows := false
  utf8 bytes := bytes.map fun byte ↦ Char.ofNat byte.toNat
  parseString _ := .null
  stringify _ := []
  integerOf _ := 0

/-- A clock that is read several times within one millisecond. -/
def stillClock : Clock := ⟨fun _ ↦ 20, fun _ _ _ ↦ le_rfl⟩

/-- Two lookups of one name, of which the first finds no server to launch. -/
def repeatedLookup : List Op :=
  [.call (.lookup "const answer = 42;".toList "/project/answer.zig".toList false),
    .call (.lookup "const answer = 42;".toList "/project/answer.zig".toList true)]

/-- The second lookup waits for a server that nothing will start. -/
theorem secondLookup_stranded :
    ¬ ∀ before after, repeatedLookup = before ++ after →
      NotStranded (run plainEngine stillClock before) := by
  intro hall
  have hbegun : ¬ ShutdownBegun (run plainEngine stillClock repeatedLookup) := by
    rw [ShutdownBegun, not_or]
    exact ⟨by decide, by decide⟩
  have hlive := hall repeatedLookup [] rfl hbegun (.inr (by decide))
  have hfailed : (run plainEngine stillClock repeatedLookup).state = .failed := by decide
  rcases hlive with hlive | hlive
  · rw [hfailed] at hlive
    cases hlive
  · rw [hfailed] at hlive
    cases hlive

end Gzscript.Lsp.PendingQueries
