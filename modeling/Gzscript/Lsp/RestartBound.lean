import Gzscript.Lsp.Moves
import Mathlib.Data.List.Induction

/-!
# How often the server is launched

A server that fails is launched again once, after `restartBackoffMsec`, and not a second time before
one has become ready. So along every run the attempts to launch are at most two more than the times
a server became ready, and an attempt after a failure has waited since the latest one
(`run_launches_bounded`). The events of a run are `Permitted` one after the other, which the
counters of the client ensure (`Counting`).
-/

set_option autoImplicit false
set_option relaxedAutoImplicit false

namespace Gzscript.Lsp.RestartBound

open Library.Transition Protocol Session Session.GzLspClient Moves

/-! ### Events -/

def isAttempt : Event → Bool
  | .attempt _ => true
  | _ => false

/-- The attempts to launch a server. -/
def attempts (events : List Event) : ℕ := events.countP isAttempt

/-- The transitions to ready. -/
def readies (events : List Event) : ℕ := events.count .ready

def failureTime : Event → Option ℕ
  | .failure atMsec => some atMsec
  | _ => none

def latestFailure (events : List Event) : Option ℕ := (events.filterMap failureTime).getLast?

/-- An attempt that was decided on long enough after the latest failure before it. -/
def HasWaited (before : List Event) (decidedMsec : Option ℕ) : Prop :=
  ∀ failedAt, latestFailure before = some failedAt →
    ∃ decidedAt, decidedMsec = some decidedAt ∧ failedAt + restartBackoffMsec ≤ decidedAt

/-- The latest event is an attempt, so that a server has been launched and has neither become ready
nor failed. -/
def IsStarting (before : List Event) : Prop := ∃ decided, before.getLast? = some (.attempt decided)

/-- An event that may come after some others. -/
def Permitted (before : List Event) : Event → Prop
  | .attempt decidedMsec => attempts before ≤ readies before + 1 ∧ HasWaited before decidedMsec
  | .ready => IsStarting before
  | .failure _ => True

section Counts

variable (events : List Event)

@[simp] theorem attempts_attempt (decided : Option ℕ) :
    attempts (events ++ [.attempt decided]) = attempts events + 1 := by
  rw [attempts, List.countP_append]
  rfl

@[simp] theorem attempts_ready : attempts (events ++ [.ready]) = attempts events := by
  rw [attempts, List.countP_append]
  rfl

@[simp] theorem attempts_failure (atMsec : ℕ) :
    attempts (events ++ [.failure atMsec]) = attempts events := by
  rw [attempts, List.countP_append]
  rfl

@[simp] theorem readies_attempt (decided : Option ℕ) :
    readies (events ++ [.attempt decided]) = readies events := by
  rw [readies, List.count_append]
  rfl

@[simp] theorem readies_ready : readies (events ++ [.ready]) = readies events + 1 := by
  rw [readies, List.count_append]
  rfl

@[simp] theorem readies_failure (atMsec : ℕ) :
    readies (events ++ [.failure atMsec]) = readies events := by
  rw [readies, List.count_append]
  rfl

@[simp] theorem latestFailure_attempt (decided : Option ℕ) :
    latestFailure (events ++ [.attempt decided]) = latestFailure events := by
  simp [latestFailure, failureTime]

@[simp] theorem latestFailure_ready :
    latestFailure (events ++ [.ready]) = latestFailure events := by
  simp [latestFailure, failureTime]

@[simp] theorem latestFailure_failure (atMsec : ℕ) :
    latestFailure (events ++ [.failure atMsec]) = some atMsec := by
  simp [latestFailure, failureTime]

end Counts

/-- Where every event is permitted, the attempts stay within two of the times a server was ready. -/
theorem attempts_le {events : List Event} (h : Lawful Permitted events) :
    attempts events ≤ readies events + 2 := by
  induction events using List.reverseRecOn with
  | nil => exact Nat.zero_le _
  | append_singleton events event ih =>
    obtain ⟨hbefore, hevent⟩ := lawful_concat.mp h
    have hle := ih hbefore
    cases event with
    | attempt decided =>
      rw [attempts_attempt, readies_attempt]
      exact Nat.succ_le_succ hevent.1
    | ready =>
      rw [attempts_ready, readies_ready]
      omega
    | failure atMsec =>
      rw [attempts_failure, readies_failure]
      exact hle

theorem lawful_before {before after : List Event} (h : Lawful Permitted (before ++ after)) :
    Lawful Permitted before := by
  rw [Lawful, along_append] at h
  exact h.1

/-! ### The counters -/

/-- The counter of restarts covers the attempts since a server was last ready, and the time of the
latest failure is kept. -/
structure Counting (client : GzLspClient) : Prop where
  events : Lawful Permitted client.events
  attempts : attempts client.events ≤ readies client.events + 1 + client.consecutiveRestarts
  restarts : client.consecutiveRestarts ≤ 1
  failed : ∀ failedAt, latestFailure client.events = some failedAt →
    client.failedAtMsec = failedAt

/-- No more than one `initialize` waits for an answer, and it belongs to the server that is
starting. A client that is stopped has not been started, or is shut down. -/
structure Restarting (client : GzLspClient) : Prop extends Counting client where
  stopped : client.state = .stopped → client.shutdownStarted = false → client.events = []
  handshake : outstanding .initializing client.requests ≤
    if client.state = .initializing then 1 else 0
  starting : client.state = .initializing → IsStarting client.events

theorem Counting.congr {client other : GzLspClient} (h : Counting client)
    (hrestarts : other.consecutiveRestarts = client.consecutiveRestarts)
    (hfailed : other.failedAtMsec = client.failedAtMsec) (hevents : other.events = client.events) :
    Counting other := by
  refine ⟨hevents ▸ h.events, ?_, hrestarts ▸ h.restarts, ?_⟩
  · rw [hevents, hrestarts]
    exact h.attempts
  · rw [hevents, hfailed]
    exact h.failed

/-- The life of the server goes on as it is, and at most as many requests wait. -/
theorem Restarting.congr {client other : GzLspClient} (h : Restarting client)
    (hlifecycle : lifecycle other = lifecycle client)
    (hrequests : outstanding .initializing other.requests ≤
      outstanding .initializing client.requests) : Restarting other := by
  simp only [lifecycle, Prod.mk.injEq] at hlifecycle
  obtain ⟨hstate, hshutdown, hrestarts, hfailed, hevents⟩ := hlifecycle
  refine ⟨h.toCounting.congr hrestarts hfailed hevents, ?_, ?_, ?_⟩
  · rw [hstate, hshutdown, hevents]
    exact h.stopped
  · rw [hstate]
    exact hrequests.trans h.handshake
  · rw [hstate, hevents]
    exact h.starting

theorem outstanding_filter_le (kind : RequestKind) (requests : List (ℤ × Request))
    (waits : ℤ × Request → Bool) :
    outstanding kind (requests.filter waits) ≤ outstanding kind requests :=
  List.filter_sublist.countP_le

theorem initial_restarting : Restarting initial where
  events := trivial
  attempts := Nat.zero_le _
  restarts := Nat.zero_le _
  failed _ hfailed := by cases hfailed
  stopped _ _ := rfl
  handshake := Nat.zero_le _
  starting hstate := by cases hstate

/-! ### Moves -/

variable {engine : Engine} {clock : Clock} {client other : GzLspClient}

theorem send_lifecycle (client : GzLspClient) (message : ClientMessage) :
    lifecycle (client.send message) = lifecycle client := by
  rw [send]
  split <;> rfl

theorem request_lifecycle (client : GzLspClient) (message : ℤ → ClientMessage)
    (kind : RequestKind) (query : Query) :
    lifecycle (client.request clock message kind query) = lifecycle client :=
  send_lifecycle _ _

theorem fail_restarting (h : Counting client) (message : Text) :
    Restarting (client.fail clock message) where
  events := lawful_concat.mpr ⟨h.events, trivial⟩
  attempts := by
    show attempts (client.events ++ [.failure _]) ≤ readies (client.events ++ [.failure _]) + 1 + _
    rw [attempts_failure, readies_failure]
    exact h.attempts
  restarts := h.restarts
  failed failedAt hfailed := by
    have hlatest := latestFailure_failure client.events (client.now clock)
    exact Option.some.inj (hlatest.symm.trans hfailed)
  stopped hstate := by cases hstate
  handshake := Nat.zero_le _
  starting hstate := by cases hstate

/-- An attempt is counted before it is made. -/
theorem attempting_counting {attempting : GzLspClient} (h : Restarting client)
    (hattempts : Attempts clock client attempting) : Counting attempting := by
  have hcounted := h.attempts
  cases hattempts with
  | first hstate hshutdown =>
    have hnone := h.stopped hstate hshutdown
    have hevents : (client.attempt none).events = [.attempt none] := by
      show client.events ++ [.attempt none] = [.attempt none]
      rw [hnone, List.nil_append]
    refine ⟨?_, ?_, h.restarts, ?_⟩
    · rw [hevents]
      show Lawful Permitted ([] ++ [.attempt none])
      refine lawful_concat.mpr ⟨trivial, Nat.zero_le _, fun failedAt hfailed ↦ ?_⟩
      cases hfailed
    · rw [hevents]
      exact Nat.le_add_right 1 _
    · rw [hevents]
      intro failedAt hfailed
      cases hfailed
  | again hstate hrestarts hbackoff =>
    refine ⟨lawful_concat.mpr ⟨h.events, ?_, ?_⟩, ?_, hrestarts, ?_⟩
    · show attempts client.events ≤ readies client.events + 1
      omega
    · intro failedAt hfailed
      rw [h.failed failedAt hfailed, restartBackoffMsec] at hbackoff
      exact ⟨client.now clock, rfl, by rw [restartBackoffMsec]; omega⟩
    · show attempts (client.events ++ [.attempt _]) ≤
        readies (client.events ++ [.attempt _]) + 1 + (client.consecutiveRestarts + 1)
      rw [attempts_attempt, readies_attempt]
      exact Nat.succ_le_succ hcounted
    · intro failedAt hfailed
      exact h.failed failedAt ((latestFailure_attempt _ _).symm.trans hfailed)

theorem attempting_isStarting {attempting : GzLspClient}
    (hattempts : Attempts clock client attempting) : IsStarting attempting.events := by
  cases hattempts with
  | first => exact ⟨_, List.getLast?_concat⟩
  | again => exact ⟨_, List.getLast?_concat⟩

theorem launched_restarting {attempting : GzLspClient} (h : Restarting client)
    (hattempts : Attempts clock client attempting) (hrequests : client.requests = []) :
    Restarting
      ((attempting.connect clock).request clock .initializeRequest .initializing .empty) := by
  have hconnected : Counting (attempting.connect clock) :=
    (attempting_counting h hattempts).congr rfl rfl rfl
  have hlifecycle : lifecycle ((attempting.connect clock).request clock .initializeRequest
      .initializing .empty) = lifecycle (attempting.connect clock) :=
    request_lifecycle _ _ _ _
  simp only [lifecycle, Prod.mk.injEq] at hlifecycle
  obtain ⟨hstate, -, hrestarts, hfailed, hevents⟩ := hlifecycle
  have hinitializing : (attempting.connect clock).state = .initializing := rfl
  refine ⟨hconnected.congr hrestarts hfailed hevents, ?_, ?_, ?_⟩
  · intro hstopped
    rw [hstate, hinitializing] at hstopped
    cases hstopped
  · have hnone : (attempting.connect clock).requests = [] := hattempts.requests.trans hrequests
    rw [hstate, hinitializing, request_requests, hnone, if_pos rfl]
    exact Nat.le_refl 1
  · have hstarting := attempting_isStarting hattempts
    rw [hevents]
    exact fun _ ↦ hstarting

/-- The answer to `initialize` makes a server ready that was starting. -/
theorem ready_restarting (h : Restarting client) (hnumbered : Numbered client) {id : ℤ}
    {pending : Request} (hpending : client.requests.lookup id = some pending)
    (hkind : pending.kind = .initializing) :
    Restarting ((client.eraseRequest id).send .initialized).becomeReady := by
  have hlifecycle := send_lifecycle (client.eraseRequest id) .initialized
  simp only [lifecycle, Prod.mk.injEq] at hlifecycle
  obtain ⟨-, -, -, hfailed, hevents⟩ := hlifecycle
  have hsplit := outstanding_of_lookup hnumbered.distinct hpending .initializing
  rw [if_pos hkind] at hsplit
  have hhandshake := h.handshake
  have hstate : client.state = .initializing := by
    by_contra hstate
    rw [if_neg hstate] at hhandshake
    omega
  have hcounted := h.attempts
  have hrestarts := h.restarts
  have hready : ((client.eraseRequest id).send .initialized).becomeReady.events =
      client.events ++ [.ready] := congrArg (· ++ [Event.ready]) hevents
  refine ⟨⟨?_, ?_, Nat.zero_le _, ?_⟩, ?_, ?_, ?_⟩
  · rw [hready]
    exact lawful_concat.mpr ⟨h.events, h.starting hstate⟩
  · rw [hready, attempts_ready, readies_ready]
    show attempts client.events ≤ readies client.events + 1 + 1 + 0
    omega
  · rw [hready, latestFailure_ready]
    exact fun failedAt hlatest ↦ hfailed.trans (h.failed failedAt hlatest)
  · intro hstopped
    cases hstopped
  · show outstanding .initializing ((client.eraseRequest id).send .initialized).requests ≤ 0
    rw [if_pos hstate] at hhandshake
    rw [send_requests]
    show outstanding .initializing (client.requests.filter (·.1 ≠ id)) ≤ 0
    omega
  · intro hinitializing
    cases hinitializing

theorem shutdown_restarting (h : Restarting client) (hshutdown : client.shutdownStarted = false)
    (isProcessRunning : Bool) : Restarting (client.shutdown isProcessRunning) := by
  have hexit : lifecycle (if isProcessRunning then client.send .exit else client) =
      lifecycle client := by
    split
    · exact send_lifecycle _ _
    · rfl
  simp only [lifecycle, Prod.mk.injEq] at hexit
  obtain ⟨-, -, hrestarts, hfailed, hevents⟩ := hexit
  have hexited := h.toCounting.congr hrestarts hfailed hevents
  rw [GzLspClient.shutdown, if_neg (by rw [hshutdown]; exact Bool.false_ne_true)]
  refine ⟨⟨hexited.events, hexited.attempts, hexited.restarts, hexited.failed⟩, ?_, ?_, ?_⟩
  · intro _ hrunning
    cases hrunning
  · exact Nat.zero_le _
  · intro hinitializing
    cases hinitializing

theorem move_restarting (hmove : Move engine clock client other) (hnumbered : Numbered client)
    (h : Restarting client) : Restarting other := by
  cases hmove with
  | quiet hquiet => exact h.congr hquiet.lifecycle (by rw [hquiet.requests])
  | send message => exact h.congr (send_lifecycle _ _) (by rw [send_requests])
  | definition hprocess query =>
    refine h.congr (request_lifecycle _ _ _ _) ?_
    rw [request_requests, outstanding, List.countP_append]
    exact Nat.le_refl _
  | completion hprocess hflight query =>
    refine h.congr (request_lifecycle client _ _ _) ?_
    show outstanding .initializing (client.request clock _ _ _).requests ≤ _
    rw [request_requests, outstanding, List.countP_append]
    exact Nat.le_refl _
  | launched hattempts hrequests => exact launched_restarting h hattempts hrequests
  | notLaunched hattempts message => exact fail_restarting (attempting_counting h hattempts) message
  | fail message => exact fail_restarting h.toCounting message
  | ready hpending hkind => exact ready_restarting h hnumbered hpending hkind
  | answer hpending htakes =>
    refine h.congr htakes.lifecycle ?_
    rw [htakes.requests]
    exact outstanding_filter_le _ _ _
  | expire hexpires =>
    refine h.congr hexpires.lifecycle ?_
    rw [hexpires.requests]
    exact outstanding_filter_le _ _ _
  | shutdown hshutdown isProcessRunning => exact shutdown_restarting h hshutdown isProcessRunning

/-! ### Runs -/

variable (engine clock)

theorem run_restarting (ops : List Op) : Restarting (run engine clock ops) := by
  have hboth : Numbered (run engine clock ops) ∧ Restarting (run engine clock ops) := by
    refine run_of_moves (fun client ↦ Numbered client ∧ Restarting client)
      ⟨initial_numbered, initial_restarting⟩ ?_ ops
    exact fun _ _ hmove h ↦ ⟨move_numbered hmove h.1, move_restarting hmove h.1 h.2⟩
  exact hboth.2

/-- Whatever the editor, the server and the time do: at every point the attempts to launch a server
are at most two more than the transitions to ready, each of which is that of a server that was
starting, and every attempt after a failure was decided on `restartBackoffMsec` after the latest. -/
theorem run_launches_bounded (ops : List Op) :
    (∀ before after, (run engine clock ops).events = before ++ after →
      attempts before ≤ readies before + 2) ∧
    (∀ before after, (run engine clock ops).events = before ++ .ready :: after →
      IsStarting before) ∧
    ∀ before decidedMsec after, (run engine clock ops).events =
      before ++ .attempt decidedMsec :: after → HasWaited before decidedMsec := by
  have hlawful := (run_restarting engine clock ops).events
  have hpermitted := (lawful_iff_split _ _).mp hlawful
  refine ⟨fun before after hsplit ↦ ?_, fun before after hsplit ↦ ?_,
    fun before decidedMsec after hsplit ↦ ?_⟩
  · rw [hsplit] at hlawful
    exact attempts_le (lawful_before hlawful)
  · exact hpermitted before .ready after hsplit
  · exact (hpermitted before (.attempt decidedMsec) after hsplit).2

end Gzscript.Lsp.RestartBound
