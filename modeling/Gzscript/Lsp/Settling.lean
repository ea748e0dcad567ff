import Gzscript.Lsp.Deadlines

/-!
# A session that is left alone settles

The editor stops calling and the pumps go on, under any schedule and whatever the server does.
While the session waits (`Waiting`) the pending completion is asked for, by a pump after the server
has become ready. A pump that comes `timeoutMsec` after the last call finds the server ready or
gives it up, and has asked for what is pending (`Answering`). A pump that comes `timeoutMsec` after
that finds every request answered or gives it up. From then on the server is ready or has failed,
and no query is pending (`pumps_settle`).
-/

set_option autoImplicit false
set_option relaxedAutoImplicit false

namespace Gzscript.Lsp.Settling

open Library.Bytes Library.Transition Framing Protocol Session Session.GzLspClient Synchronisation
open PendingQueries SessionFraming Moves Deadlines
open RestartBound (Restarting)
open SingleFlight (Flying mem_of_lookup)

/-- The time in which a server becomes ready, or answers, or is given up. -/
def timeoutMsec : ℕ := max initializeTimeoutMsec requestTimeoutMsec

/-- The client last read the clock at this time or earlier. -/
def ReadBy (clock : Clock) (client : GzLspClient) (msec : ℕ) : Prop :=
  ∀ index < client.reads, clock.msec index ≤ msec

/-- No listener calls during the pump. -/
def IsIdle (pump : PumpInput) : Prop := ∀ count, pump.listeners count = []

/-- No query is pending, with a server that is ready or has failed. -/
structure AtRest (client : GzLspClient) : Prop where
  state : client.state = .ready ∨ client.state = .failed
  completion : client.hasPendingCompletion = false
  definition : client.hasPendingDefinition = false

/-- The session has a server, or has failed and waits for nothing. -/
def IsGoing (client : GzLspClient) : Prop :=
  IsLive client ∨ client.state = .failed ∧ client.hasPendingCompletion = false ∧
    client.hasPendingDefinition = false

variable {engine : Engine} {clock : Clock} {client other : GzLspClient}

theorem fail_going (client : GzLspClient) (message : Text) :
    IsGoing (client.fail clock message) := .inr ⟨rfl, rfl, rfl⟩

/-! ### What a message does while no one calls -/

/-- The messages of the server answer requests, make it ready or fail it. A server that has been
started may be asked for the pending definition. -/
structure Handles (client other : GzLspClient) : Prop where
  going : IsGoing other
  state : other.state = client.state ∨ other.state ≠ .initializing ∧ client.state = .initializing ∨
    other.state = .failed
  flags : flags other = flags client
  started : other.startedAtMsec = client.startedAtMsec
  due : other.completionDueMsec = client.completionDueMsec
  query : other.pendingCompletion = client.pendingCompletion
  completion : other.hasPendingCompletion = true → client.hasPendingCompletion = true ∧
    (IsAsked .completion client.pendingCompletion client.requests →
      IsAsked .completion client.pendingCompletion other.requests)
  definition : other.hasPendingDefinition = true → client.hasPendingDefinition = true
  requests : ∀ entry ∈ other.requests, entry ∈ client.requests ∨
    client.state = .initializing ∧ entry.2.kind = .definition
  reads : client.reads ≤ other.reads

theorem Handles.initializing (h : Handles client other) (hstate : other.state = .initializing) :
    client.state = .initializing := by
  obtain hsame | ⟨hnot, -⟩ | hfailed := h.state
  · exact hsame.symm.trans hstate
  · exact absurd hstate hnot
  · rw [hstate] at hfailed
    cases hfailed

theorem Handles.trans {last : GzLspClient} (h : Handles client other) (h' : Handles other last) :
    Handles client last where
  going := h'.going
  state := by
    obtain hsame | ⟨hnot, hstate⟩ | hfailed := h'.state
    · rw [hsame]
      exact h.state
    · exact .inr (.inl ⟨hnot, h.initializing hstate⟩)
    · exact .inr (.inr hfailed)
  flags := h'.flags.trans h.flags
  started := h'.started.trans h.started
  due := h'.due.trans h.due
  query := h'.query.trans h.query
  completion hwaits := by
    obtain ⟨hmiddle, hkept'⟩ := h'.completion hwaits
    obtain ⟨hbefore, hkept⟩ := h.completion hmiddle
    rw [h.query] at hkept'
    exact ⟨hbefore, fun hasked ↦ hkept' (hkept hasked)⟩
  definition := h.definition ∘ h'.definition
  requests entry hentry := by
    obtain hmiddle | ⟨hstate, hkind⟩ := h'.requests entry hentry
    · exact h.requests entry hmiddle
    · exact .inr ⟨h.initializing hstate, hkind⟩
  reads := h.reads.trans h'.reads

/-- Requests that leave the list, where the pending completion is asked for by one that stays. -/
theorem handles_of_shrinks (h : IsLive client) (hshrinks : Shrinks client other)
    (hasked : other.hasPendingCompletion = true →
      IsAsked .completion client.pendingCompletion client.requests →
        IsAsked .completion client.pendingCompletion other.requests) : Handles client other where
  going := .inl ((isLive_congr hshrinks.state).mpr h)
  state := .inl hshrinks.state
  flags := hshrinks.flags
  started := hshrinks.started
  due := hshrinks.due
  query := congrArg (·.1) hshrinks.queries
  completion hwaits := ⟨hshrinks.completion hwaits, hasked hwaits⟩
  definition := hshrinks.definition
  requests _ hentry := .inl (hshrinks.requests hentry)
  reads := hshrinks.reads

theorem handles_refl (h : IsLive client) : Handles client client :=
  handles_of_shrinks h (.refl client) fun _ hasked ↦ hasked

theorem fail_handles (client : GzLspClient) (message : Text) :
    Handles client (client.fail clock message) where
  going := fail_going client message
  state := .inr (.inr rfl)
  flags := rfl
  started := rfl
  due := rfl
  query := rfl
  completion := Bool.noConfusion
  definition := Bool.noConfusion
  requests _ hentry := absurd hentry List.not_mem_nil
  reads := Nat.le_succ _

/-- What is sent to a server leaves what it is to answer. -/
theorem send_handles (h : IsLive client) (message : ClientMessage) :
    Handles client (client.send message) := by
  rw [send]
  split
  · exact handles_of_shrinks h ⟨rfl, rfl, rfl, rfl, rfl, fun h ↦ h, fun h ↦ h,
      List.Subset.refl _, le_rfl⟩ fun _ hasked ↦ hasked
  · exact handles_refl h

/-- What sending leaves as it is. -/
def kept (client : GzLspClient) : State × ℕ × ℕ × Query × Bool × Bool :=
  (client.state, client.startedAtMsec, client.completionDueMsec, client.pendingCompletion,
    client.hasPendingCompletion, client.hasPendingDefinition)

theorem send_kept (client : GzLspClient) (message : ClientMessage) :
    kept (client.send message) = kept client := by
  rw [send]
  split <;> rfl

theorem synchronize_kept (client : GzLspClient) (query : Query) :
    kept (client.synchronize query) = kept client := by
  unfold synchronize
  split
  · exact send_kept _ _
  · split
    · rfl
    · exact send_kept _ _

/-- A request is added to those that wait. -/
theorem requests_of_request (clock : Clock) (client : GzLspClient) (message : ℤ → ClientMessage)
    (kind : RequestKind) (query asked : Query) :
    ∃ id, ((client.synchronize query).request clock message kind asked).requests =
        client.requests ++ [(id, ⟨kind, asked, client.now clock⟩)] ∧
      ((client.synchronize query).request clock message kind asked).reads = client.reads + 1 := by
  obtain ⟨htiming, hreads, -⟩ := synchronize_same client query
  have hrequests : (client.synchronize query).requests = client.requests :=
    congrArg (·.2.2.2.2.2) htiming
  refine ⟨(client.synchronize query).nextRequestId, ?_, ?_⟩
  · rw [request_requests, hrequests, now, now, hreads]
  · rw [request_eq, send_reads]
    exact congrArg (· + 1) hreads

/-- A definition is asked for. -/
theorem sendDefinition_handles (h : Handles client other) (hstate : client.state = .initializing)
    (hready : other.state = .ready) (query : Query) :
    Handles client (other.sendDefinition clock query) := by
  obtain ⟨id, hrequests, hreads⟩ := requests_of_request clock other (.definition · query)
    .definition query query
  have hkept : kept (other.sendDefinition clock query) = kept other :=
    (send_kept _ _).trans (synchronize_kept other query)
  simp only [kept, Prod.mk.injEq] at hkept
  obtain ⟨hsame, hstarted, hdue, hquery, hcompletion, hdefinition⟩ := hkept
  refine ⟨.inl (.inr (hsame.trans hready)), .inr (.inl ⟨?_, hstate⟩),
    (sendDefinition_untouched other query).flags.trans h.flags, hstarted.trans h.started,
    hdue.trans h.due, hquery.trans h.query, fun hwaits ↦ ?_, fun hwaits ↦ ?_, fun entry hentry ↦ ?_,
    ?_⟩
  · rw [hsame, hready]
    exact State.noConfusion
  · obtain ⟨hbefore, hasked⟩ := h.completion (hcompletion ▸ hwaits)
    refine ⟨hbefore, fun hwas ↦ (hasked hwas).mono ?_⟩
    rw [show (other.sendDefinition clock query).requests = _ from hrequests]
    exact List.subset_append_left _ _
  · exact h.definition (hdefinition ▸ hwaits)
  · rw [show (other.sendDefinition clock query).requests = _ from hrequests] at hentry
    obtain hbefore | hlast := List.mem_append.mp hentry
    · exact h.requests entry hbefore
    · rw [List.mem_singleton.mp hlast]
      exact .inr ⟨hstate, rfl⟩
  · rw [show (other.sendDefinition clock query).reads = _ from hreads]
    exact h.reads.trans (Nat.le_succ _)

/-- The answer to the first request, which only a server that is not ready gives. -/
theorem handleInitialized_handles (hstate : client.state = .initializing) {id : ℤ}
    (hasked : IsAsked .completion client.pendingCompletion client.requests →
      IsAsked .completion client.pendingCompletion (client.eraseRequest id).requests)
    (result : Json) :
    Handles client ((client.eraseRequest id).handleInitialized engine clock result) := by
  have hlive : IsLive (client.eraseRequest id) := .inl hstate
  have herase : Handles client (client.eraseRequest id) :=
    handles_of_shrinks (.inl hstate) (eraseRequest_shrinks client id) fun _ ↦ hasked
  have hsent := herase.trans (send_handles hlive .initialized)
  have hready : Handles client ((client.eraseRequest id).send .initialized).becomeReady :=
    ⟨.inl (.inr rfl), .inr (.inl ⟨State.noConfusion, hstate⟩), hsent.flags, hsent.started,
      hsent.due, hsent.query, hsent.completion, hsent.definition, hsent.requests, hsent.reads⟩
  simp only [handleInitialized]
  split_ifs
  · exact herase.trans (fail_handles _ _)
  · exact sendDefinition_handles hready hstate rfl _
  · exact hready

/-- A completion that is still pending was not answered. -/
theorem handleCompletion_handles (hlive : IsLive client) (hnumbered : Numbered client) {id : ℤ}
    {pending : Request} (hpending : client.requests.lookup id = some pending) (result : Json) :
    Handles client
      ((client.eraseRequest id).handleCompletion engine clock pending.query result []) := by
  have herase := eraseRequest_shrinks client id
  simp only [handleCompletion]
  split_ifs with hwaits
  · exact handles_of_shrinks hlive ⟨rfl, rfl, rfl, rfl, rfl, fun h ↦ Bool.noConfusion h,
      fun h ↦ h, herase.requests, le_rfl⟩ fun h ↦ Bool.noConfusion h
  · refine handles_of_shrinks hlive ⟨rfl, rfl, rfl, rfl, rfl, fun h ↦ h, fun h ↦ h,
      herase.requests, le_rfl⟩ fun hpends ↦ ?_
    have hother : asksFor .completion client.pendingCompletion pending = false := by
      rw [show ((client.eraseRequest id).setInFlight false).hasPendingCompletion = true from hpends,
        Bool.true_and, Bool.not_eq_true] at hwaits
      rw [asksFor, show sameQuery pending.query client.pendingCompletion = false from hwaits,
        Bool.and_false]
    exact asked_eraseRequest hnumbered hpending hother

/-- A request for something else than the pending completion is answered. -/
theorem handles_other (hnumbered : Numbered client) {id : ℤ}
    {pending : Request} (hpending : client.requests.lookup id = some pending)
    (hkind : pending.kind ≠ .completion) :
    IsAsked .completion client.pendingCompletion client.requests →
      IsAsked .completion client.pendingCompletion (client.eraseRequest id).requests := by
  refine asked_eraseRequest hnumbered hpending ?_
  rw [asksFor, decide_eq_false hkind, Bool.false_and]

theorem handleResponse_handles (hlive : IsLive client) (hnumbered : Numbered client)
    (hrestarting : Restarting client) (id : ℤ) (message : List (Text × Json)) :
    Handles client (client.handleResponse engine clock id message []) := by
  unfold handleResponse
  split
  next => exact handles_refl hlive
  next pending hpending =>
    simp only [handleAnswer]
    split
    next =>
      have hshrinks := (eraseRequest_shrinks client id).trans (abandon_shrinks _ pending)
      refine handles_of_shrinks hlive hshrinks fun hwaits hasked ↦ ?_
      rw [(abandon_pending _ pending).1, Bool.and_eq_true, Bool.not_eq_true'] at hwaits
      rw [abandon_requests]
      exact asked_eraseRequest hnumbered hpending hwaits.2 hasked
    next =>
      split
      next hkind =>
        have hstate : client.state = .initializing := by
          obtain hstate | hstate := hlive
          · exact hstate
          · have hnone := hrestarting.handshake
            rw [hstate, if_neg State.noConfusion, Nat.le_zero, outstanding,
              List.countP_eq_zero] at hnone
            have hmem := mem_of_lookup hpending
            exact absurd (decide_eq_true hkind) (hnone _ hmem)
        have hother := handles_other hnumbered hpending (by
          rw [hkind]
          exact RequestKind.noConfusion)
        exact handleInitialized_handles hstate hother _
      next => exact handleCompletion_handles hlive hnumbered hpending _
      next hkind =>
        have hother := handles_other hnumbered hpending (by
          rw [hkind]
          exact RequestKind.noConfusion)
        have herase := eraseRequest_shrinks client id
        unfold handleDefinition
        split_ifs
        · exact handles_of_shrinks hlive ⟨rfl, rfl, rfl, rfl, rfl, fun h ↦ h,
            fun h ↦ Bool.noConfusion h, herase.requests, le_rfl⟩ fun _ ↦ hother
        · exact handles_of_shrinks hlive herase fun _ ↦ hother

theorem handleBody_handles (hlive : IsLive client) (h : Consistent client) (body : ByteString) :
    Handles client (client.handleBody engine clock body []) := by
  unfold handleBody
  split
  next message _ =>
    have hreceive : Handles client (client.receive (.dictionary message)) :=
      handles_of_shrinks hlive ⟨rfl, rfl, rfl, rfl, rfl, fun h ↦ h, fun h ↦ h,
        List.Subset.refl _, le_rfl⟩ fun _ hasked ↦ hasked
    have hreceived : IsLive (client.receive (.dictionary message)) := hlive
    have hnumbered : Numbered (client.receive (.dictionary message)) :=
      ⟨h.numbered.1, h.numbered.2⟩
    have hrestarting : Restarting (client.receive (.dictionary message)) :=
      h.restarting.congr rfl le_rfl
    unfold handle
    split_ifs
    · exact hreceive.trans (send_handles hreceived _)
    · exact hreceive.trans (handleResponse_handles hreceived hnumbered hrestarting _ message)
    · exact hreceive
  next => exact handles_refl hlive

theorem parseMessages_handles {pump : PumpInput} (hidle : IsIdle pump) (left : ℕ)
    (hlive : IsLive client) (h : Consistent client) :
    Handles client (parseMessages engine clock pump left client) ∧
      Consistent (parseMessages engine clock pump left client) := by
  induction left generalizing client with
  | zero => exact ⟨handles_refl hlive, h⟩
  | succ left ih =>
    simp only [parseMessages]
    split
    next => exact ⟨handles_refl hlive, h⟩
    next =>
      split
      next => exact ⟨handles_refl hlive, h⟩
      next =>
        have hfail (message : Text) : Reaches engine clock client (client.fail clock message) :=
          .single (.fail client message)
        exact ⟨fail_handles _ _, h.of_reaches (hfail _) (fail_inStep h.inStep _)⟩
      next body rest _ =>
        have hinput : Consistent (client.setInput rest) := h.setInput rest
        have hset : IsLive (client.setInput rest) := hlive
        have hrest : Handles client (client.setInput rest) :=
          handles_of_shrinks hlive ⟨rfl, rfl, rfl, rfl, rfl, fun h ↦ h, fun h ↦ h,
            List.Subset.refl _, le_rfl⟩ fun _ hasked ↦ hasked
        rw [hidle]
        have hbody : Handles client ((client.setInput rest).handleBody engine clock body []) :=
          hrest.trans (handleBody_handles hset hinput body)
        have hcontinues : Continues (client.setInput rest)
            ((client.setInput rest).handleBody engine clock body []) :=
          handleBody_input hset body []
        obtain ⟨hnext, -⟩ | ⟨-, hempty⟩ := hcontinues
        · obtain ⟨hparsed, hconsistent⟩ := ih hnext (hinput.handleBody body [])
          exact ⟨hbody.trans hparsed, hconsistent⟩
        · rw [parseMessages_empty hempty]
          exact ⟨hbody, hinput.handleBody body []⟩

/-! ### The end of a pump -/

/-- What a reading of the clock or the error output changes does not matter. -/
theorem handles_extend {last : GzLspClient} (h : Handles client other)
    (hkept : kept last = kept other) (hflags : flags last = flags other)
    (hrequests : last.requests = other.requests) (hreads : other.reads ≤ last.reads) :
    Handles client last := by
  simp only [kept, Prod.mk.injEq] at hkept
  obtain ⟨hstate, hstarted, hdue, hquery, hcompletion, hdefinition⟩ := hkept
  refine ⟨?_, ?_, hflags.trans h.flags, hstarted.trans h.started, hdue.trans h.due,
    hquery.trans h.query, fun hwaits ↦ ?_, fun hwaits ↦ ?_, ?_, h.reads.trans hreads⟩
  · rw [IsGoing, isLive_congr hstate, hstate, hcompletion, hdefinition]
    exact h.going
  · rw [hstate]
    exact h.state
  · rw [hrequests]
    exact h.completion (hcompletion ▸ hwaits)
  · exact h.definition (hdefinition ▸ hwaits)
  · rw [hrequests]
    exact h.requests

theorem handles_read (h : Handles client other) : Handles client other.read :=
  handles_extend h rfl rfl rfl (Nat.le_succ _)

/-- A pump fails the session, or serves it after its messages. A server that has not become ready
in time is not served. -/
structure Served (clock : Clock) (client served : GzLspClient) : Prop where
  handles : Handles client served
  consistent : Consistent served
  tracked : Tracked clock served
  starting : served.state = .initializing →
    client.now clock - client.startedAtMsec < initializeTimeoutMsec

theorem now_mono (hreads : client.reads ≤ other.reads) : client.now clock ≤ other.now clock :=
  clock.monotone hreads

theorem shown_le {since msec : ℕ} (hread : ReadBy clock client since)
    (h : Shown clock client msec) : msec ≤ since := by
  obtain ⟨index, hindex, rfl⟩ := h
  exact hread index hindex

theorem pump_outcome (engine : Engine) {pump : PumpInput} (hidle : IsIdle pump)
    (hlive : IsLive client) (h : Consistent client) (htracked : Tracked clock client) :
    (∃ failing message, client.pump engine clock pump = failing.fail clock message ∧
      flags failing = flags client) ∨
    ∃ served, client.pump engine clock pump = served.serve clock ∧ Served clock client served := by
  have hshutdown : client.shutdownStarted = false := by
    by_contra hbegun
    have hstopped := htracked.stopped (Bool.not_eq_false _ ▸ hbegun)
    rcases hlive with hstate | hstate <;> simp [hstate] at hstopped
  rw [pump_of_live hlive hshutdown]
  have hdrain : Consistent (client.drain pump) :=
    ⟨h.inStep.congr rfl rfl rfl rfl id rfl, ⟨h.numbered.1, h.numbered.2⟩,
      h.restarting.congr rfl le_rfl, h.flying⟩
  have hdrained : IsLive (client.drain pump) := hlive
  have hdrains : Tracked clock (client.drain pump) := htracked.congr rfl le_rfl rfl
  set parsed := parseMessages engine clock pump PumpSchedule.maxMessagesPerPump (client.drain pump)
    with hparse
  obtain ⟨hparses, hconsistent⟩ : Handles (client.drain pump) parsed ∧ Consistent parsed :=
    parseMessages_handles hidle _ hdrained hdrain
  have hkeeps : Tracked clock parsed := parseMessages_tracked pump _ hdrain hdrains hdrained
  have hstart : Handles client (client.drain pump) :=
    handles_extend (handles_refl hlive) rfl rfl rfl le_rfl
  have hhandles : Handles client parsed := hstart.trans hparses
  have hset (stderrOutput : ByteString) : Handles client (parsed.setStderr stderrOutput) :=
    handles_extend hhandles rfl rfl rfl le_rfl
  have htrimmed : Handles client parsed.trimStderr := hset _
  have hread : Handles client parsed.trimStderr.read := handles_read htrimmed
  have hstderr : Reaches engine clock parsed parsed.trimStderr := (setStderr_quiet parsed _).reaches
  have htrims : Consistent parsed.trimStderr :=
    hconsistent.of_reaches hstderr (setStderr_inStep hconsistent.inStep _)
  have hreads : Reaches engine clock parsed.trimStderr parsed.trimStderr.read := read_reaches _
  have hsetStderr (stderrOutput : ByteString) : Tracked clock (parsed.setStderr stderrOutput) :=
    hkeeps.congr rfl le_rfl rfl
  have hkept : Tracked clock parsed.trimStderr := hsetStderr _
  simp only [afterParsing]
  split_ifs with hinput hrunning hstarting htimeout
  · exact .inl ⟨parsed, _, rfl, hhandles.flags⟩
  · exact .inl ⟨parsed.trimStderr, _, rfl, htrimmed.flags⟩
  · exact .inl ⟨parsed.trimStderr.read, _, rfl, hread.flags⟩
  · refine .inr ⟨parsed.trimStderr.read, rfl, hread, ?_, read_tracked hkept, fun _ ↦ ?_⟩
    · exact htrims.of_reaches hreads (read_inStep htrims.inStep)
    · have hnow : client.now clock ≤ parsed.trimStderr.now clock := now_mono htrimmed.reads
      have hsame : parsed.trimStderr.startedAtMsec = client.startedAtMsec := htrimmed.started
      rw [hsame] at htimeout
      omega
  · exact .inr ⟨parsed.trimStderr, rfl, htrimmed, htrims, hkept,
      fun hstate ↦ absurd hstate hstarting⟩

/-! ### Waiting -/

/-- Nothing was recorded or asked for after a time, but what is asked for the pending completion. -/
structure Waiting (since : ℕ) (client : GzLspClient) : Prop where
  started : client.state = .initializing → client.startedAtMsec ≤ since
  due : client.hasPendingCompletion = true →
    client.completionDueMsec ≤ since + completionDebounceMsec
  sent : ∀ entry ∈ client.requests, entry.2.kind = .completion →
    entry.2.sentAtMsec ≤ since ∨ asksFor .completion client.pendingCompletion entry.2 = true

/-- The server is ready or has failed, what waits was asked for by a time, and the pending
completion is asked for. -/
structure Answering (since : ℕ) (client : GzLspClient) : Prop where
  state : client.state ≠ .initializing
  sent : ∀ entry ∈ client.requests, entry.2.sentAtMsec ≤ since
  asked : client.hasPendingCompletion = true →
    IsAsked .completion client.pendingCompletion client.requests

theorem waiting_of_tracked {since : ℕ} (h : Tracked clock client)
    (hread : ReadBy clock client since) : Waiting since client where
  started hstate := shown_le hread (h.started hstate)
  due hwaits := by
    obtain ⟨msec, hshown, hmsec⟩ := h.due hwaits
    rw [hmsec]
    exact Nat.add_le_add_right (shown_le hread hshown) _
  sent entry hentry _ := .inl (shown_le hread (h.sent entry hentry))

theorem Waiting.handles {since : ℕ} (h : Waiting since client) (hhandles : Handles client other) :
    Waiting since other where
  started hstate := by
    rw [hhandles.started]
    exact h.started (hhandles.initializing hstate)
  due hwaits := by
    rw [hhandles.due]
    exact h.due (hhandles.completion hwaits).1
  sent entry hentry hkind := by
    obtain hbefore | ⟨-, hdefinition⟩ := hhandles.requests entry hentry
    · rw [hhandles.query]
      exact h.sent entry hbefore hkind
    · rw [hkind] at hdefinition
      cases hdefinition

theorem Waiting.shrinks {since : ℕ} (h : Waiting since client) (hshrinks : Shrinks client other) :
    Waiting since other where
  started hstate := by
    rw [hshrinks.started]
    exact h.started (hshrinks.state ▸ hstate)
  due hwaits := by
    rw [hshrinks.due]
    exact h.due (hshrinks.completion hwaits)
  sent entry hentry hkind := by
    rw [show other.pendingCompletion = client.pendingCompletion from
      congrArg (·.1) hshrinks.queries]
    exact h.sent entry (hshrinks.requests hentry) hkind

/-- The requests of a client that has given up those that waited too long. -/
def afterExpiry (clock : Clock) (client : GzLspClient) : GzLspClient :=
  client.read.expireRequests (client.now clock)

theorem afterExpiry_shrinks (clock : Clock) (client : GzLspClient) :
    Shrinks client (afterExpiry clock client) := by
  have hread : Shrinks client client.read :=
    ⟨rfl, rfl, rfl, rfl, rfl, fun h ↦ h, fun h ↦ h, List.Subset.refl _, Nat.le_succ _⟩
  exact hread.trans (expireRequests_shrinks _ _)

/-- What still waits was sent less than `requestTimeoutMsec` ago. -/
theorem afterExpiry_fresh {entry : ℤ × Request}
    (hentry : entry ∈ (afterExpiry clock client).requests) :
    entry ∈ client.requests ∧ (entry.2.kind ≠ .initializing →
      client.now clock < entry.2.sentAtMsec + requestTimeoutMsec) := by
  rw [afterExpiry, expireRequests_requests] at hentry
  obtain ⟨hbefore, hfresh⟩ := List.mem_filter.mp hentry
  refine ⟨hbefore, fun hkind ↦ ?_⟩
  rw [isExpired, decide_eq_true hkind, Bool.true_and, Bool.not_eq_true', decide_eq_false_iff_not]
    at hfresh
  omega

theorem afterExpiry_consistent (engine : Engine) (h : Consistent client) :
    Consistent (afterExpiry clock client) := by
  have hread : Reaches engine clock client client.read := read_reaches client
  have hexpires : Reaches engine clock client (afterExpiry clock client) :=
    hread.tail (.expire (expireRequests_expires _ _))
  exact h.of_reaches hexpires (expireRequests_inStep (read_inStep h.inStep) _)

/-- The server is asked for a pending completion when it is due and no other is in flight. -/
theorem serve_cases (clock : Clock) (client : GzLspClient) :
    let expired := afterExpiry clock client
    let isDue := expired.state = .ready ∧ expired.hasPendingCompletion = true ∧
      expired.completionInFlight = false ∧ expired.completionDueMsec ≤ client.now clock
    client.serve clock = expired ∧ ¬ isDue ∨
      client.serve clock = expired.sendCompletion clock expired.pendingCompletion ∧ isDue := by
  simp only [serve, afterExpiry]
  split
  next hdue =>
    simp only [Bool.and_eq_true, Bool.not_eq_true', decide_eq_true_eq] at hdue
    exact .inr ⟨rfl, hdue.1.1.1, hdue.1.1.2, hdue.1.2, hdue.2⟩
  next hdue =>
    simp only [Bool.and_eq_true, Bool.not_eq_true', decide_eq_true_eq] at hdue
    exact .inl ⟨rfl, fun h ↦ hdue ⟨⟨⟨h.1, h.2.1⟩, h.2.2.1⟩, h.2.2.2⟩⟩

/-- The completion that is sent asks for the query. -/
theorem sendCompletion_adds (clock : Clock) (client : GzLspClient) (query : Query) :
    kept (client.sendCompletion clock query) = kept client ∧
      ∃ id, (client.sendCompletion clock query).requests =
        client.requests ++ [(id, ⟨.completion, query, client.now clock⟩)] := by
  have hkept : kept ((client.synchronize query).request clock (.completion · query) .completion
      query) = kept client := (send_kept _ _).trans (synchronize_kept client query)
  obtain ⟨id, hrequests, -⟩ := requests_of_request clock client (.completion · query)
    .completion query query
  exact ⟨hkept, id, hrequests⟩


/-- The pending completion is asked for by the request that is sent. -/
theorem sendCompletion_asks (client : GzLspClient) :
    IsAsked .completion client.pendingCompletion
      (client.sendCompletion clock client.pendingCompletion).requests := by
  obtain ⟨-, id, hrequests⟩ := sendCompletion_adds clock client client.pendingCompletion
  rw [hrequests]
  exact ⟨_, List.mem_append_right _ (List.mem_singleton_self _), asksFor_self _ _ _⟩

theorem Waiting.sendCompletion {since : ℕ} (h : Waiting since client) :
    Waiting since (client.sendCompletion clock client.pendingCompletion) := by
  obtain ⟨hkept, id, hrequests⟩ := sendCompletion_adds clock client client.pendingCompletion
  simp only [kept, Prod.mk.injEq] at hkept
  obtain ⟨hstate, hstarted, hdue, hquery, hcompletion, -⟩ := hkept
  refine ⟨fun hinitializing ↦ ?_, fun hwaits ↦ ?_, fun entry hentry hkind ↦ ?_⟩
  · rw [hstarted]
    exact h.started (hstate ▸ hinitializing)
  · rw [hdue]
    exact h.due (hcompletion ▸ hwaits)
  · rw [hquery]
    rw [hrequests] at hentry
    obtain hbefore | hlast := List.mem_append.mp hentry
    · exact h.sent entry hbefore hkind
    · rw [List.mem_singleton.mp hlast]
      exact .inr (asksFor_self _ _ _)

theorem fail_waiting (since : ℕ) (client : GzLspClient) (message : Text) :
    Waiting since (client.fail clock message) :=
  ⟨State.noConfusion, Bool.noConfusion, fun _ hentry ↦ absurd hentry List.not_mem_nil⟩

section Pumps

variable {since : ℕ} {pump : PumpInput}

/-- As long as the session waits, it waits for the same. -/
theorem pump_waiting (hidle : IsIdle pump) (hlive : IsLive client) (h : Consistent client)
    (htracked : Tracked clock client) (hwaiting : Waiting since client) :
    Waiting since (client.pump engine clock pump) := by
  obtain ⟨failing, message, hpump, -⟩ | ⟨served, hpump, hserved⟩ :=
    pump_outcome engine hidle hlive h htracked
  · rw [hpump]
    exact fail_waiting since failing message
  · have hexpired : Waiting since (afterExpiry clock served) :=
      (hwaiting.handles hserved.handles).shrinks (afterExpiry_shrinks clock served)
    rw [hpump]
    obtain ⟨hserve, -⟩ | ⟨hserve, -⟩ := serve_cases clock served
    · rw [hserve]
      exact hexpired
    · rw [hserve]
      exact hexpired.sendCompletion

/-- A session that is served is ready, once the time to become ready is over. -/
theorem served_ready {served : GzLspClient} (hserved : Served clock client served)
    (hnot : served.state ≠ .initializing) (hwaits : served.hasPendingCompletion = true) :
    served.state = .ready := by
  obtain hlive | ⟨-, hnone, -⟩ := hserved.handles.going
  · exact hlive.resolve_left hnot
  · rw [hnone] at hwaits
    cases hwaits

theorem kept_state {client other : GzLspClient} (h : kept other = kept client) :
    other.state = client.state := congrArg (·.1) h

/-- Once the time is over, the server is ready or has failed and the pending completion is asked
for: an earlier completion that is still in flight has waited too long. -/
theorem pump_answers {answered : ℕ} (hidle : IsIdle pump) (hlive : IsLive client)
    (h : Consistent client) (htracked : Tracked clock client) (hwaiting : Waiting since client)
    (htime : since + timeoutMsec ≤ client.now clock)
    (hread : ReadBy clock (client.pump engine clock pump) answered) :
    Answering answered (client.pump engine clock pump) := by
  have hafter : Tracked clock (client.pump engine clock pump) := pump_tracked h htracked pump
  have hsent (entry : ℤ × Request) (hentry : entry ∈ (client.pump engine clock pump).requests) :
      entry.2.sentAtMsec ≤ answered :=
    shown_le hread (hafter.sent entry hentry)
  have hinitialize : initializeTimeoutMsec ≤ timeoutMsec := le_max_left _ _
  have hrequest : requestTimeoutMsec ≤ timeoutMsec := le_max_right _ _
  obtain ⟨failing, message, hpump, -⟩ | ⟨served, hpump, hserved⟩ :=
    pump_outcome engine hidle hlive h htracked
  · refine ⟨?_, hsent, ?_⟩
    · rw [hpump]
      exact State.noConfusion
    · rw [hpump]
      exact Bool.noConfusion
  · have hnot : served.state ≠ .initializing := by
      intro hstate
      have hsoon := hserved.starting hstate
      have hstarted := hwaiting.started (hserved.handles.initializing hstate)
      omega
    have hnow : client.now clock ≤ served.now clock := now_mono hserved.handles.reads
    have hshrinks := afterExpiry_shrinks clock served
    have hexpired : Waiting since (afterExpiry clock served) :=
      (hwaiting.handles hserved.handles).shrinks hshrinks
    have hconsistent : Consistent (afterExpiry clock served) :=
      afterExpiry_consistent engine hserved.consistent
    obtain ⟨hserve, hdue⟩ | ⟨hserve, hdue⟩ := serve_cases clock served
    · refine ⟨?_, hsent, fun hwaits ↦ ?_⟩
      · rw [hpump, hserve, hshrinks.state]
        exact hnot
      · rw [hpump, hserve] at hwaits ⊢
        have hready := served_ready hserved hnot (hshrinks.completion hwaits)
        have hsoon := hexpired.due hwaits
        have hinFlight : (afterExpiry clock served).completionInFlight = true := by
          by_contra hflight
          refine hdue ⟨hshrinks.state.trans hready, hwaits, Bool.not_eq_true _ ▸ hflight, ?_⟩
          have hdebounce : completionDebounceMsec ≤ timeoutMsec := by decide
          omega
        have hflying := hconsistent.flying
        rw [Flying, hinFlight, if_pos rfl, outstanding] at hflying
        obtain ⟨entry, hentry, hkind⟩ := List.countP_pos_iff.mp (hflying ▸ Nat.one_pos)
        rw [decide_eq_true_eq] at hkind
        obtain hearly | hasks := hexpired.sent entry hentry hkind
        · have hfresh := (afterExpiry_fresh hentry).2 (by
            rw [hkind]
            exact RequestKind.noConfusion)
          omega
        · exact ⟨entry, hentry, hasks⟩
    · obtain ⟨hkept, -⟩ := sendCompletion_adds clock (afterExpiry clock served)
        (afterExpiry clock served).pendingCompletion
      refine ⟨?_, hsent, fun _ ↦ ?_⟩
      · rw [hpump, hserve, kept_state hkept, hshrinks.state]
        exact hnot
      · have hquery := congrArg (·.2.2.2.1) hkept
        rw [hpump, hserve, show (sendCompletion _ _ _).pendingCompletion = _ from hquery]
        exact sendCompletion_asks _

/-- What is asked for is answered or given up, and nothing else is asked for. -/
theorem served_answering {served : GzLspClient} (hserved : Served clock client served)
    (hanswering : Answering since client) :
    served.state ≠ .initializing ∧ served.requests ⊆ client.requests ∧
      (served.hasPendingCompletion = true →
        IsAsked .completion served.pendingCompletion served.requests) := by
  have hhandles := hserved.handles
  refine ⟨fun hinitializing ↦ ?_, fun entry hentry ↦ ?_, fun hwaits ↦ ?_⟩
  · exact hanswering.state (hhandles.initializing hinitializing)
  · obtain hbefore | ⟨hinitializing, -⟩ := hhandles.requests entry hentry
    · exact hbefore
    · exact absurd hinitializing hanswering.state
  · obtain ⟨hbefore, hkept⟩ := hhandles.completion hwaits
    rw [hhandles.query]
    exact hkept (hanswering.asked hbefore)

/-- A completion that is still asked for after the expiry is in flight, so that no other is
sent. -/
theorem serve_of_asked (engine : Engine) (clock : Clock) {served : GzLspClient}
    (h : Consistent served) (hasked : served.hasPendingCompletion = true →
      IsAsked .completion served.pendingCompletion served.requests) :
    served.serve clock = afterExpiry clock served ∧
      ((afterExpiry clock served).hasPendingCompletion = true →
        IsAsked .completion served.pendingCompletion (afterExpiry clock served).requests) := by
  have hshrinks := afterExpiry_shrinks clock served
  have hstill (hwaits : (afterExpiry clock served).hasPendingCompletion = true) :
      IsAsked .completion served.pendingCompletion (afterExpiry clock served).requests :=
    (expireRequests_asked served.read _).1 hwaits (hasked (hshrinks.completion hwaits))
  refine ⟨?_, hstill⟩
  obtain ⟨hserve, -⟩ | ⟨-, -, hwaits, hflight, -⟩ := serve_cases clock served
  · exact hserve
  · obtain ⟨entry, hentry, hasks⟩ := hstill hwaits
    have hconsistent : Consistent (afterExpiry clock served) := afterExpiry_consistent engine h
    have hflying := hconsistent.flying
    rw [Flying, hflight, if_neg Bool.false_ne_true, outstanding, List.countP_eq_zero] at hflying
    rw [asksFor, Bool.and_eq_true] at hasks
    exact absurd hasks.1 (hflying entry hentry)

theorem pump_answering (hidle : IsIdle pump) (hlive : IsLive client) (h : Consistent client)
    (htracked : Tracked clock client) (hanswering : Answering since client) :
    Answering since (client.pump engine clock pump) := by
  obtain ⟨failing, message, hpump, -⟩ | ⟨served, hpump, hserved⟩ :=
    pump_outcome engine hidle hlive h htracked
  · rw [hpump]
    exact ⟨State.noConfusion, fun _ hentry ↦ absurd hentry List.not_mem_nil, Bool.noConfusion⟩
  · obtain ⟨hnot, hsubset, hasked⟩ := served_answering hserved hanswering
    obtain ⟨hserve, hstill⟩ := serve_of_asked engine clock hserved.consistent hasked
    have hshrinks := afterExpiry_shrinks clock served
    rw [hpump, hserve]
    refine ⟨?_, fun entry hentry ↦ ?_, fun hwaits ↦ ?_⟩
    · rw [hshrinks.state]
      exact hnot
    · exact hanswering.sent entry (hsubset (hshrinks.requests hentry))
    · rw [show (afterExpiry clock served).pendingCompletion = served.pendingCompletion from
        congrArg (·.1) hshrinks.queries]
      exact hstill hwaits

/-- Once the time is over, every request has been answered or is given up. -/
theorem pump_rests (hidle : IsIdle pump) (hlive : IsLive client) (h : Consistent client)
    (htracked : Tracked clock client) (hlifecycle : client.lifecycleShutdown = false)
    (hanswering : Answering since client) (htime : since + timeoutMsec ≤ client.now clock) :
    AtRest (client.pump engine clock pump) := by
  obtain ⟨failing, message, hpump, -⟩ | ⟨served, hpump, hserved⟩ :=
    pump_outcome engine hidle hlive h htracked
  · rw [hpump]
    exact ⟨.inr rfl, rfl, rfl⟩
  · obtain ⟨hnot, hsubset, hasked⟩ := served_answering hserved hanswering
    obtain ⟨hserve, hstill⟩ := serve_of_asked engine clock hserved.consistent hasked
    have hshrinks := afterExpiry_shrinks clock served
    have hnow : client.now clock ≤ served.now clock := now_mono hserved.handles.reads
    have hrequest : requestTimeoutMsec ≤ timeoutMsec := le_max_right _ _
    have hnone {kind : RequestKind} {query : Query} (hkind : kind ≠ .initializing) :
        ¬ IsAsked kind query (afterExpiry clock served).requests := by
      rintro ⟨entry, hentry, hasks⟩
      rw [asksFor, Bool.and_eq_true, decide_eq_true_eq] at hasks
      obtain ⟨hbefore, hfresh⟩ := afterExpiry_fresh hentry
      have hsoon := hfresh (hasks.1 ▸ hkind)
      have hsent := hanswering.sent entry (hsubset hbefore)
      omega
    rw [hpump, hserve]
    refine ⟨?_, ?_, ?_⟩
    · rw [hshrinks.state]
      obtain hserves | ⟨hfailed, -⟩ := hserved.handles.going
      · exact .inl (hserves.resolve_left hnot)
      · exact .inr hfailed
    · by_contra hwaits
      exact hnone RequestKind.noConfusion (hstill (Bool.not_eq_false _ ▸ hwaits))
    · by_contra hwaits
      rw [Bool.not_eq_false] at hwaits
      have hpending := hshrinks.definition hwaits
      have hready : served.state = .ready := by
        obtain hserves | ⟨-, -, hfailed⟩ := hserved.handles.going
        · exact hserves.resolve_left hnot
        · rw [hfailed] at hpending
          cases hpending
      have hflags : served.lifecycleShutdown = client.lifecycleShutdown :=
        congrArg (·.2) hserved.handles.flags
      have hdefinition := hserved.tracked.asked hready (hflags.trans hlifecycle) hpending
      exact hnone RequestKind.noConfusion
        ((expireRequests_asked served.read _).2 hwaits hdefinition)

theorem pump_rest (hidle : IsIdle pump) (hlive : IsLive client) (h : Consistent client)
    (htracked : Tracked clock client) (hrest : AtRest client) :
    AtRest (client.pump engine clock pump) := by
  obtain ⟨failing, message, hpump, -⟩ | ⟨served, hpump, hserved⟩ :=
    pump_outcome engine hidle hlive h htracked
  · rw [hpump]
    exact ⟨.inr rfl, rfl, rfl⟩
  · have hshrinks := afterExpiry_shrinks clock served
    have hcompletion (hwaits : (afterExpiry clock served).hasPendingCompletion = true) : False := by
      have hbefore := (hserved.handles.completion (hshrinks.completion hwaits)).1
      rw [hrest.completion] at hbefore
      cases hbefore
    have hstate : served.state = .ready ∨ served.state = .failed := by
      obtain hserves | ⟨hfailed, -⟩ := hserved.handles.going
      · refine .inl (hserves.resolve_left fun hinitializing ↦ ?_)
        have hbefore := hserved.handles.initializing hinitializing
        rcases hrest.state with hready | hready <;> simp [hready] at hbefore
      · exact .inr hfailed
    rw [hpump]
    obtain ⟨hserve, -⟩ | ⟨-, -, hwaits, -⟩ := serve_cases clock served
    · rw [hserve]
      refine ⟨?_, ?_, ?_⟩
      · rw [hshrinks.state]
        exact hstate
      · exact Bool.eq_false_iff.mpr hcompletion
      · refine Bool.eq_false_iff.mpr fun hwaits ↦ ?_
        have hbefore := hserved.handles.definition (hshrinks.definition hwaits)
        rw [hrest.definition] at hbefore
        cases hbefore
    · exact absurd hwaits hcompletion

theorem pump_going (hidle : IsIdle pump) (hlive : IsLive client) (h : Consistent client)
    (htracked : Tracked clock client) :
    IsGoing (client.pump engine clock pump) ∧
      flags (client.pump engine clock pump) = flags client := by
  obtain ⟨failing, message, hpump, hflags⟩ | ⟨served, hpump, hserved⟩ :=
    pump_outcome engine hidle hlive h htracked
  · rw [hpump]
    exact ⟨fail_going failing message, hflags⟩
  · have hserves : Untouched served (served.serve clock) := serve_untouched served
    have hshrinks := afterExpiry_shrinks clock served
    rw [hpump]
    refine ⟨?_, hserves.flags.trans hserved.handles.flags⟩
    obtain hgoing | ⟨hfailed, hcompletion, hdefinition⟩ := hserved.handles.going
    · exact .inl ((isLive_congr hserves.state).mpr hgoing)
    · have hcompletion' : ¬ (afterExpiry clock served).hasPendingCompletion = true := by
        intro hwaits
        rw [hshrinks.completion hwaits] at hcompletion
        cases hcompletion
      have hdefinition' : ¬ (afterExpiry clock served).hasPendingDefinition = true := by
        intro hwaits
        rw [hshrinks.definition hwaits] at hdefinition
        cases hdefinition
      obtain ⟨hserve, -⟩ | ⟨-, -, hwaits, -⟩ := serve_cases clock served
      · refine .inr ⟨hserves.state.trans hfailed, ?_, ?_⟩
        · rw [hserve]
          exact Bool.not_eq_true _ ▸ hcompletion'
        · rw [hserve]
          exact Bool.not_eq_true _ ▸ hdefinition'
      · exact absurd hwaits hcompletion'

end Pumps

/-! ### Schedules of pumps -/

/-- A session that is left alone. -/
structure Alone (clock : Clock) (client : GzLspClient) : Prop where
  consistent : Consistent client
  tracked : Tracked clock client
  going : IsGoing client
  lifecycle : client.lifecycleShutdown = false

/-- A pump of a session that has failed does nothing. -/
theorem pump_of_failed (hfailed : client.state = .failed) (pump : PumpInput) :
    client.pump engine clock pump = client := by
  unfold GzLspClient.pump
  rw [hfailed]
  split <;> rfl

theorem Alone.pump {pump : PumpInput} (hidle : IsIdle pump) (h : Alone clock client) :
    Alone clock (client.pump engine clock pump) := by
  obtain hlive | ⟨hfailed, -⟩ := h.going
  · obtain ⟨hgoing, hflags⟩ : IsGoing (client.pump engine clock pump) ∧
      flags (client.pump engine clock pump) = flags client :=
        pump_going hidle hlive h.consistent h.tracked
    have hreaches : Reaches engine clock client (client.pump engine clock pump) :=
      pump_reaches h.consistent.inStep pump
    have hlifecycle :
        (client.pump engine clock pump).lifecycleShutdown = client.lifecycleShutdown :=
      congrArg (·.2) hflags
    exact ⟨h.consistent.of_reaches hreaches (pump_inStep h.consistent.inStep pump),
      pump_tracked h.consistent h.tracked pump, hgoing, hlifecycle.trans h.lifecycle⟩
  · rw [pump_of_failed hfailed]
    exact h

theorem Alone.answers {since answered : ℕ} {pump : PumpInput} (hidle : IsIdle pump)
    (h : Alone clock client) (hwaiting : Waiting since client)
    (htime : since + timeoutMsec ≤ client.now clock)
    (hread : ReadBy clock (client.pump engine clock pump) answered) :
    Answering answered (client.pump engine clock pump) := by
  obtain hlive | ⟨hfailed, hcompletion, -⟩ := h.going
  · exact pump_answers hidle hlive h.consistent h.tracked hwaiting htime hread
  · rw [pump_of_failed hfailed] at hread ⊢
    refine ⟨?_, fun entry hentry ↦ shown_le hread (h.tracked.sent entry hentry), fun hwaits ↦ ?_⟩
    · rw [hfailed]
      exact State.noConfusion
    · rw [hcompletion] at hwaits
      cases hwaits

theorem Alone.rests {since : ℕ} {pump : PumpInput} (hidle : IsIdle pump) (h : Alone clock client)
    (hanswering : Answering since client) (htime : since + timeoutMsec ≤ client.now clock) :
    AtRest (client.pump engine clock pump) := by
  obtain hlive | ⟨hfailed, hcompletion, hdefinition⟩ := h.going
  · exact pump_rests hidle hlive h.consistent h.tracked h.lifecycle hanswering htime
  · rw [pump_of_failed hfailed]
    exact ⟨.inr hfailed, hcompletion, hdefinition⟩

/-- What a pump of a live session keeps, every schedule keeps. -/
theorem pumps_keep (engine : Engine) (property : GzLspClient → Prop)
    (hpump : ∀ client pump, IsIdle pump → Alone clock client → IsLive client → property client →
      property (client.pump engine clock pump))
    {schedule : List PumpInput} (hidle : ∀ pump ∈ schedule, IsIdle pump) (h : Alone clock client)
    (hclient : property client) :
    Alone clock (exec (GzLspClient.pump engine clock) client schedule) ∧
      property (exec (GzLspClient.pump engine clock) client schedule) := by
  induction schedule generalizing client with
  | nil => exact ⟨h, hclient⟩
  | cons pump schedule ih =>
    have hfirst := hidle pump List.mem_cons_self
    refine ih (fun next hnext ↦ hidle next (List.mem_cons_of_mem _ hnext)) (h.pump hfirst) ?_
    obtain hlive | ⟨hfailed, -⟩ := h.going
    · exact hpump client pump hfirst h hlive hclient
    · rw [pump_of_failed hfailed]
      exact hclient

/-- The operations of a schedule. -/
theorem run_pumps (ops : List Op) (schedule : List PumpInput) :
    run engine clock (ops ++ schedule.map .pump) =
      exec (GzLspClient.pump engine clock) (run engine clock ops) schedule := by
  rw [run, exec_append]
  induction schedule using List.reverseRecOn with
  | nil => rfl
  | append_singleton schedule pump ih =>
    rw [List.map_append, exec_append, ih, exec_append]
    rfl

variable (engine clock)

/-- Where a server is being started or ready, no shutdown has begun and no one calls any more, a
pump comes `timeoutMsec` after the last call and another one `timeoutMsec` after that pump: from
then on the server is ready or has failed, and no query is pending, whatever the server does and
whichever other pumps there are. -/
theorem pumps_settle (ops : List Op) (before between after : List PumpInput)
    (first second : PumpInput) (since answered : ℕ)
    (hidle : ∀ pump ∈ before ++ first :: (between ++ second :: after), IsIdle pump)
    (hlive : IsLive (run engine clock ops))
    (hlifecycle : (run engine clock ops).lifecycleShutdown = false)
    (hsince : ReadBy clock (run engine clock ops) since)
    (hfirst : since + timeoutMsec ≤ (run engine clock (ops ++ before.map .pump)).now clock)
    (hanswered : ReadBy clock (run engine clock (ops ++ (before ++ [first]).map .pump)) answered)
    (hsecond : answered + timeoutMsec ≤
      (run engine clock (ops ++ (before ++ first :: between).map .pump)).now clock) :
    AtRest
      (run engine clock (ops ++ (before ++ first :: (between ++ second :: after)).map .pump)) := by
  obtain ⟨hconsistent, htracked⟩ : Consistent (run engine clock ops) ∧
    Tracked clock (run engine clock ops) := run_tracked ops
  have halone : Alone clock (run engine clock ops) :=
    ⟨hconsistent, htracked, .inl hlive, hlifecycle⟩
  have hbefore (pump : PumpInput) (hpump : pump ∈ before) : IsIdle pump :=
    hidle pump (List.mem_append_left _ hpump)
  have hafter (pump : PumpInput) (hpump : pump ∈ first :: (between ++ second :: after)) :
      IsIdle pump := hidle pump (List.mem_append_right _ hpump)
  have hbetween (pump : PumpInput) (hpump : pump ∈ between) : IsIdle pump :=
    hafter pump (List.mem_cons_of_mem _ (List.mem_append_left _ hpump))
  have hrest (pump : PumpInput) (hpump : pump ∈ second :: after) : IsIdle pump :=
    hafter pump (List.mem_cons_of_mem _ (List.mem_append_right _ hpump))
  have hfirstIdle := hafter first List.mem_cons_self
  have hsecondIdle := hrest second List.mem_cons_self
  simp only [run_pumps, exec_append, exec_cons, exec_nil] at hfirst hanswered hsecond ⊢
  -- until the first pump the session waits for what it waits for at the start
  obtain ⟨hwaits, hwaiting⟩ : Alone clock _ ∧ Waiting since _ := by
    refine pumps_keep engine _ (fun _ _ hidle h hlive hwaiting ↦ ?_) hbefore halone
      (waiting_of_tracked htracked hsince)
    exact pump_waiting hidle hlive h.consistent h.tracked hwaiting
  have hanswering := hwaits.answers hfirstIdle hwaiting hfirst hanswered
  -- from there on what waits is answered or given up
  obtain ⟨hanswers, hstill⟩ : Alone clock _ ∧ Answering answered _ := by
    refine pumps_keep engine _ (fun _ _ hidle h hlive hanswering ↦ ?_) hbetween
      (hwaits.pump hfirstIdle) hanswering
    exact pump_answering hidle hlive h.consistent h.tracked hanswering
  have hrests : AtRest (GzLspClient.pump engine clock _ second) :=
    hanswers.rests hsecondIdle hstill hsecond
  refine (pumps_keep engine AtRest (fun _ _ hidle h hlive hatRest ↦ ?_) (fun pump hpump ↦ ?_)
    (hanswers.pump hsecondIdle) hrests).2
  · exact pump_rest hidle hlive h.consistent h.tracked hatRest
  · exact hrest pump (List.mem_cons_of_mem _ hpump)

/-! ### A session that is left alone -/

/-- A clock that is read every ten seconds. -/
def slowClock : Clock := ⟨fun index ↦ 10000 * index, fun _ _ h ↦ Nat.mul_le_mul_left _ h⟩

/-- A pump that finds nothing to read from a server that runs. -/
def silentPump : PumpInput where
  stdout := []
  stderr := []
  elapsed _ := 0
  listeners _ := []
  isProcessRunning := true

/-- A name is looked up, for which a server is launched. -/
def oneLookup : List Op :=
  [.call (.lookup "const answer = 42;".toList "/project/answer.zig".toList true)]

theorem silentPumps_settle :
    AtRest (run plainEngine slowClock (oneLookup ++ [.pump silentPump, .pump silentPump])) := by
  have hread (client : GzLspClient) (count : ℕ) (hcount : client.reads = count + 1) :
      ReadBy slowClock client (10000 * count) := by
    intro index hindex
    exact Nat.mul_le_mul_left 10000 (by omega)
  refine pumps_settle plainEngine slowClock oneLookup [] [] [] silentPump silentPump (10000 * 1)
    (10000 * 3) (fun pump hpump count ↦ ?_) (.inl (by decide)) (by decide)
    (hread _ 1 (by decide)) (by decide) (hread _ 3 (by decide)) (by decide)
  rcases List.mem_pair.mp hpump with rfl | rfl <;> rfl

end Gzscript.Lsp.Settling
