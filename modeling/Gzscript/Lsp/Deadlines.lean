import Gzscript.Lsp.RestartBound
import Gzscript.Lsp.SessionFraming
import Gzscript.Lsp.SingleFlight

/-!
# The times a session keeps

Every time that the client keeps was shown by its clock before: when a request was sent, when the
server was started, and when the pending completion was recorded, which is due a fixed while after
it (`Timed`). A definition that is pending while the server is ready has been asked for
(`Tracked`). Both hold in every state of a run (`run_tracked`).
-/

set_option autoImplicit false
set_option relaxedAutoImplicit false

namespace Gzscript.Lsp.Deadlines

open Library.Bytes Library.Transition Framing Protocol Session Session.GzLspClient Synchronisation
open PendingQueries SessionFraming Moves
open RestartBound (Restarting move_restarting run_restarting)
open SingleFlight (Flying move_flying run_sound)

variable (clock : Clock)

/-! ### The invariant -/

/-- A time that the clock has shown to the client. -/
def Shown (client : GzLspClient) (msec : ℕ) : Prop :=
  ∃ index < client.reads, clock.msec index = msec

def asksFor (kind : RequestKind) (query : Query) (pending : Request) : Bool :=
  decide (pending.kind = kind) && sameQuery pending.query query

/-- A request of the kind for the query waits for an answer. -/
def IsAsked (kind : RequestKind) (query : Query) (requests : List (ℤ × Request)) : Prop :=
  ∃ entry ∈ requests, asksFor kind query entry.2 = true

structure Timed (client : GzLspClient) : Prop where
  sent : ∀ entry ∈ client.requests, Shown clock client entry.2.sentAtMsec
  started : client.state = .initializing → Shown clock client client.startedAtMsec
  due : client.hasPendingCompletion = true →
    ∃ msec, Shown clock client msec ∧ client.completionDueMsec = msec + completionDebounceMsec
  stopped : client.shutdownStarted = true → client.state = .stopped ∨ client.state = .failed

/-- Until the lifecycle ends, a definition that is pending while the server is ready waits for an
answer. -/
structure Tracked (client : GzLspClient) : Prop extends Timed clock client where
  asked : client.state = .ready → client.lifecycleShutdown = false →
    client.hasPendingDefinition = true →
      IsAsked .definition client.pendingDefinition client.requests

variable {engine : Engine} {clock} {client other : GzLspClient}

theorem asksFor_self (kind : RequestKind) (query : Query) (sentAtMsec : ℕ) :
    asksFor kind query ⟨kind, query, sentAtMsec⟩ = true := by
  simp [asksFor, sameQuery]

theorem IsAsked.mono {kind : RequestKind} {query : Query} {requests more : List (ℤ × Request)}
    (h : IsAsked kind query requests) (hsub : requests ⊆ more) : IsAsked kind query more := by
  obtain ⟨entry, hentry, hasks⟩ := h
  exact ⟨entry, hsub hentry, hasks⟩

theorem Shown.mono {msec : ℕ} (h : Shown clock client msec)
    (hreads : client.reads ≤ other.reads) : Shown clock other msec := by
  obtain ⟨index, hindex, hmsec⟩ := h
  exact ⟨index, hindex.trans_le hreads, hmsec⟩

/-- What the invariant of the times is about. -/
def timing (client : GzLspClient) : State × Bool × ℕ × Bool × ℕ × List (ℤ × Request) :=
  (client.state, client.shutdownStarted, client.startedAtMsec, client.hasPendingCompletion,
    client.completionDueMsec, client.requests)

/-- What the invariant of the pending definition is about besides. -/
def awaited (client : GzLspClient) : Bool × Bool × Query :=
  (client.lifecycleShutdown, client.hasPendingDefinition, client.pendingDefinition)

theorem Timed.congr (h : Timed clock client) (htiming : timing other = timing client)
    (hreads : client.reads ≤ other.reads) : Timed clock other := by
  simp only [timing, Prod.mk.injEq] at htiming
  obtain ⟨hstate, hshutdown, hstarted, hpending, hdue, hrequests⟩ := htiming
  refine ⟨fun entry hentry ↦ ?_, fun hinitializing ↦ ?_, fun hwaits ↦ ?_, fun hstopped ↦ ?_⟩
  · exact (h.sent entry (hrequests ▸ hentry)).mono hreads
  · rw [hstarted]
    exact (h.started (hstate ▸ hinitializing)).mono hreads
  · obtain ⟨msec, hshown, hmsec⟩ := h.due (hpending ▸ hwaits)
    exact ⟨msec, hshown.mono hreads, hdue.trans hmsec⟩
  · rw [hstate]
    exact h.stopped (hshutdown ▸ hstopped)

theorem Tracked.congr (h : Tracked clock client) (htiming : timing other = timing client)
    (hreads : client.reads ≤ other.reads) (hawaited : awaited other = awaited client) :
    Tracked clock other := by
  refine ⟨h.toTimed.congr htiming hreads, fun hready hlifecycle hpending ↦ ?_⟩
  simp only [timing, awaited, Prod.mk.injEq] at htiming hawaited
  obtain ⟨hstate, -, -, -, -, hrequests⟩ := htiming
  obtain ⟨hshutdown, hwaits, hquery⟩ := hawaited
  rw [hquery, hrequests]
  exact h.asked (hstate ▸ hready) (hshutdown ▸ hlifecycle) (hwaits ▸ hpending)

/-- A client that is not ready has no definition to wait for. -/
theorem Timed.tracked (h : Timed clock client) (hstate : client.state ≠ .ready) :
    Tracked clock client := ⟨h, fun hready ↦ absurd hready hstate⟩

theorem initial_tracked : Tracked clock initial := by
  refine Timed.tracked ⟨?_, ?_, ?_, ?_⟩ State.noConfusion
  · exact fun entry hentry ↦ absurd hentry List.not_mem_nil
  · exact State.noConfusion
  · exact Bool.noConfusion
  · exact fun _ ↦ .inl rfl

/-! ### Sending -/

theorem send_timing (client : GzLspClient) (message : ClientMessage) :
    timing (client.send message) = timing client := by
  rw [send]
  split <;> rfl

theorem send_reads (client : GzLspClient) (message : ClientMessage) :
    (client.send message).reads = client.reads := by
  rw [send]
  split <;> rfl

theorem send_awaited (client : GzLspClient) (message : ClientMessage) :
    awaited (client.send message) = awaited client := by
  rw [send]
  split <;> rfl

theorem Tracked.send (h : Tracked clock client) (message : ClientMessage) :
    Tracked clock (client.send message) :=
  h.congr (send_timing _ _) (send_reads _ _).ge (send_awaited _ _)

theorem synchronize_same (client : GzLspClient) (query : Query) :
    timing (client.synchronize query) = timing client ∧
      (client.synchronize query).reads = client.reads ∧
      awaited (client.synchronize query) = awaited client := by
  unfold synchronize
  split
  · exact ⟨send_timing _ _, send_reads _ _, send_awaited _ _⟩
  · split
    · exact ⟨rfl, rfl, rfl⟩
    · exact ⟨send_timing _ _, send_reads _ _, send_awaited _ _⟩

theorem Timed.synchronize (h : Timed clock client) (query : Query) :
    Timed clock (client.synchronize query) :=
  h.congr (synchronize_same _ _).1 (synchronize_same _ _).2.1.ge

theorem Tracked.synchronize (h : Tracked clock client) (query : Query) :
    Tracked clock (client.synchronize query) :=
  h.congr (synchronize_same _ _).1 (synchronize_same _ _).2.1.ge (synchronize_same _ _).2.2

/-- The client that has recorded a request. -/
def recordRequest (clock : Clock) (client : GzLspClient) (kind : RequestKind) (query : Query) :
    GzLspClient :=
  { client with
    nextRequestId := client.nextRequestId + 1
    reads := client.reads + 1
    requests := client.requests ++ [(client.nextRequestId, ⟨kind, query, client.now clock⟩)] }

theorem request_eq (client : GzLspClient) (message : ℤ → ClientMessage) (kind : RequestKind)
    (query : Query) : client.request clock message kind query =
      (recordRequest clock client kind query).send (message client.nextRequestId) := rfl

theorem recordRequest_timed (h : Timed clock client) (kind : RequestKind) (query : Query) :
    Timed clock (recordRequest clock client kind query) := by
  have hreads : client.reads ≤ (recordRequest clock client kind query).reads := Nat.le_succ _
  refine ⟨fun entry hentry ↦ ?_, fun hinitializing ↦ ?_, fun hwaits ↦ ?_, h.stopped⟩
  · obtain hbefore | hlast := List.mem_append.mp hentry
    · exact (h.sent entry hbefore).mono hreads
    · rw [List.mem_singleton.mp hlast]
      exact ⟨client.reads, Nat.lt_succ_self _, rfl⟩
  · exact (h.started hinitializing).mono hreads
  · obtain ⟨msec, hshown, hmsec⟩ := h.due hwaits
    exact ⟨msec, hshown.mono hreads, hmsec⟩

theorem Timed.request (h : Timed clock client) (message : ℤ → ClientMessage) (kind : RequestKind)
    (query : Query) : Timed clock (client.request clock message kind query) := by
  rw [request_eq]
  exact (recordRequest_timed h kind query).congr (send_timing _ _) (send_reads _ _).ge

theorem Tracked.request (h : Tracked clock client) (message : ℤ → ClientMessage)
    (kind : RequestKind) (query : Query) :
    Tracked clock (client.request clock message kind query) := by
  have hrecord : Tracked clock (recordRequest clock client kind query) := by
    refine ⟨recordRequest_timed h.toTimed kind query, fun hready hlifecycle hpending ↦ ?_⟩
    exact (h.asked hready hlifecycle hpending).mono (List.subset_append_left _ _)
  rw [request_eq]
  exact hrecord.send _

theorem Tracked.sendCompletion (h : Tracked clock client) (query : Query) :
    Tracked clock (client.sendCompletion clock query) := by
  have hrequest : Tracked clock
      ((client.synchronize query).request clock (.completion · query) .completion query) :=
    (h.synchronize query).request _ _ _
  exact hrequest.congr rfl le_rfl rfl

/-- The pending definition is asked for. -/
theorem sendDefinition_tracked (h : Timed clock client) :
    Tracked clock (client.sendDefinition clock client.pendingDefinition) := by
  set query := client.pendingDefinition with hquery
  have hsynchronized := (synchronize_same client query).2.2
  have hawaited : awaited (client.sendDefinition clock query) = awaited client :=
    (send_awaited _ _).trans hsynchronized
  refine ⟨(h.synchronize query).request _ _ _, fun _ _ _ ↦ ?_⟩
  have hpending : (client.sendDefinition clock query).pendingDefinition = query :=
    congrArg (·.2.2) hawaited
  rw [hpending]
  show IsAsked .definition query
    ((client.synchronize query).request clock (.definition · query) .definition query).requests
  rw [request_requests]
  exact ⟨_, List.mem_append_right _ (List.mem_singleton_self _), asksFor_self _ _ _⟩

/-! ### Starting and failing -/

/-- A client that waits for nothing. -/
theorem timed_idle (hrequests : client.requests = [])
    (hpending : client.hasPendingCompletion = false) (hstate : client.state ≠ .initializing)
    (hstopped : client.shutdownStarted = true → client.state = .stopped ∨ client.state = .failed) :
    Timed clock client := by
  refine ⟨fun entry hentry ↦ ?_, fun hinitializing ↦ absurd hinitializing hstate, fun hwaits ↦ ?_,
    hstopped⟩
  · rw [hrequests] at hentry
    exact absurd hentry List.not_mem_nil
  · rw [hpending] at hwaits
    cases hwaits

theorem fail_tracked (client : GzLspClient) (message : Text) :
    Tracked clock (client.fail clock message) :=
  Timed.tracked (timed_idle rfl rfl State.noConfusion fun _ ↦ .inr rfl) State.noConfusion

/-- A client whose shutdown has not begun launches a server, or fails to. -/
theorem launch_tracked (h : Timed clock client) (hshutdown : client.shutdownStarted = false)
    (launches : Bool) : Tracked clock (client.launch clock launches).2 := by
  unfold launch
  split
  · have hconnect : Tracked clock (client.connect clock) := by
      have hreads : client.reads ≤ (client.connect clock).reads := Nat.le_succ _
      refine Timed.tracked ⟨fun entry hentry ↦ ?_, fun _ ↦ ?_, fun hwaits ↦ ?_, fun hbegun ↦ ?_⟩
        State.noConfusion
      · exact (h.sent entry hentry).mono hreads
      · exact ⟨client.reads, Nat.lt_succ_self _, rfl⟩
      · obtain ⟨msec, hshown, hmsec⟩ := h.due hwaits
        exact ⟨msec, hshown.mono hreads, hmsec⟩
      · rw [show (client.connect clock).shutdownStarted = client.shutdownStarted from rfl,
          hshutdown] at hbegun
        cases hbegun
    exact hconnect.request _ _ _
  · exact fail_tracked _ _

/-- Starting leaves a server that is ready as it is, and makes no other ready. -/
theorem start_tracked (h : Timed clock client) (launches : Bool) :
    Timed clock (client.start clock launches).2 ∧
      ((client.start clock launches).2.state = .ready →
        (client.start clock launches).2 = client) := by
  have hlaunch {attempting : GzLspClient} (hattempting : Timed clock attempting)
      (hshutdown : attempting.shutdownStarted = false) :
      Timed clock (attempting.launch clock launches).2 ∧
        ((attempting.launch clock launches).2.state = .ready →
          (attempting.launch clock launches).2 = client) := by
    refine ⟨(launch_tracked hattempting hshutdown launches).toTimed, fun hready ↦ ?_⟩
    unfold launch at hready
    split at hready
    · have hstarting : ((attempting.connect clock).request clock .initializeRequest .initializing
          .empty).state = .initializing :=
        (request_untouched (attempting.connect clock) _ _ _).state
      exact State.noConfusion (hstarting.symm.trans hready)
    · cases hready
  unfold start
  split
  next => exact ⟨h, fun _ ↦ rfl⟩
  next hrunning =>
    simp only [Bool.or_eq_true, not_or, Bool.not_eq_true] at hrunning
    split
    next => exact ⟨h, fun _ ↦ rfl⟩
    next => exact ⟨h, fun _ ↦ rfl⟩
    next hstate =>
      split_ifs
      · exact ⟨h, fun _ ↦ rfl⟩
      · refine ⟨h.congr rfl (Nat.le_succ _), fun hready ↦ ?_⟩
        rw [show client.read.state = client.state from rfl, hstate] at hready
        cases hready
      · refine hlaunch ⟨fun entry hentry ↦ ?_, State.noConfusion, fun hwaits ↦ ?_, fun _ ↦ .inl rfl⟩
          hrunning.1
        · exact (h.sent entry hentry).mono (Nat.le_succ _)
        · obtain ⟨msec, hshown, hmsec⟩ := h.due hwaits
          exact ⟨msec, hshown.mono (Nat.le_succ _), hmsec⟩
    next => exact hlaunch (h.congr rfl le_rfl) hrunning.1

/-! ### The editor's calls -/

theorem complete_tracked (h : Tracked clock client) (code path : Text) (launches : Bool) :
    Tracked clock (client.complete engine clock code path launches).2 := by
  have hrecord (query : Query) : Tracked clock (client.recordCompletion clock query) := by
    have hreads : client.reads ≤ (client.recordCompletion clock query).reads := Nat.le_succ _
    refine ⟨⟨fun entry hentry ↦ ?_, fun hinitializing ↦ ?_, fun _ ↦ ?_, h.stopped⟩, h.asked⟩
    · exact (h.sent entry hentry).mono hreads
    · exact (h.started hinitializing).mono hreads
    · exact ⟨client.now clock, ⟨client.reads, Nat.lt_succ_self _, rfl⟩, rfl⟩
  simp only [complete]
  split_ifs
  · exact h
  · obtain ⟨htimed, hready⟩ := start_tracked (hrecord (makeQuery engine code path)).toTimed launches
    by_cases hstate : ((client.recordCompletion clock (makeQuery engine code path)).start clock
        launches).2.state = .ready
    · rw [hready hstate]
      exact hrecord _
    · exact htimed.tracked hstate
  · exact h
  · exact h

/-- A new definition is asked for at once if the server is ready. -/
theorem lookup_tracked (h : Tracked clock client) (code path : Text) (launches : Bool) :
    Tracked clock (client.lookup engine clock code path launches).2 := by
  simp only [lookup]
  split_ifs
  · exact h
  · set query := makeQuery engine code path
    have hrecord : Timed clock (client.recordDefinition query) := h.toTimed.congr rfl le_rfl
    obtain ⟨htimed, hready⟩ := start_tracked hrecord launches
    by_cases hstate : ((client.recordDefinition query).start clock launches).2.state = .ready
    · have hsame := hready hstate
      unfold afterStart
      split
      next =>
        rw [hsame]
        exact sendDefinition_tracked hrecord
      next hrefused =>
        refine ⟨htimed, fun _ hlifecycle _ ↦ absurd ?_ hrefused⟩
        rw [hsame] at hlifecycle hstate
        have hshutdown : (client.recordDefinition query).shutdownStarted = false := by
          by_contra hbegun
          have hidle := hrecord.stopped (Bool.not_eq_false _ ▸ hbegun)
          rw [hstate] at hidle
          simp at hidle
        simp [start, hshutdown, hlifecycle, hstate]
    · have hafter : afterStart clock ((client.recordDefinition query).start clock launches) query =
          ((client.recordDefinition query).start clock launches).2 := by
        unfold afterStart
        rw [decide_eq_false hstate, Bool.and_false]
        rfl
      rw [hafter]
      exact htimed.tracked hstate
  · exact h
  · exact h

theorem call_tracked (h : Tracked clock client) (call : Call) :
    Tracked clock (client.call engine clock call) := by
  cases call with
  | complete code path launches => exact complete_tracked h code path launches
  | lookup code path launches => exact lookup_tracked h code path launches

theorem calls_tracked (h : Tracked clock client) (calls : List Call) :
    Tracked clock (calls.foldl (GzLspClient.call engine clock) client) := by
  induction calls generalizing client with
  | nil => exact h
  | cons call calls ih => exact ih (call_tracked h call)

/-! ### Requests that leave the list -/

/-- Some requests have left the list, and a completion may be pending no longer. -/
structure Shrinks (client other : GzLspClient) : Prop where
  state : other.state = client.state
  flags : flags other = flags client
  started : other.startedAtMsec = client.startedAtMsec
  due : other.completionDueMsec = client.completionDueMsec
  queries : (other.pendingCompletion, other.pendingDefinition) =
    (client.pendingCompletion, client.pendingDefinition)
  completion : other.hasPendingCompletion = true → client.hasPendingCompletion = true
  definition : other.hasPendingDefinition = true → client.hasPendingDefinition = true
  requests : other.requests ⊆ client.requests
  reads : client.reads ≤ other.reads

theorem Shrinks.refl (client : GzLspClient) : Shrinks client client :=
  ⟨rfl, rfl, rfl, rfl, rfl, fun h ↦ h, fun h ↦ h, List.Subset.refl _, le_rfl⟩

theorem Shrinks.trans {last : GzLspClient} (h : Shrinks client other) (h' : Shrinks other last) :
    Shrinks client last where
  state := h'.state.trans h.state
  flags := h'.flags.trans h.flags
  started := h'.started.trans h.started
  due := h'.due.trans h.due
  queries := h'.queries.trans h.queries
  completion := h.completion ∘ h'.completion
  definition := h.definition ∘ h'.definition
  requests := List.Subset.trans h'.requests h.requests
  reads := h.reads.trans h'.reads

theorem Timed.shrink (h : Timed clock client) (hshrinks : Shrinks client other) :
    Timed clock other := by
  refine ⟨fun entry hentry ↦ ?_, fun hinitializing ↦ ?_, fun hwaits ↦ ?_, fun hstopped ↦ ?_⟩
  · exact (h.sent entry (hshrinks.requests hentry)).mono hshrinks.reads
  · rw [hshrinks.started]
    exact (h.started (hshrinks.state ▸ hinitializing)).mono hshrinks.reads
  · obtain ⟨msec, hshown, hmsec⟩ := h.due (hshrinks.completion hwaits)
    exact ⟨msec, hshown.mono hshrinks.reads, hshrinks.due.trans hmsec⟩
  · have hflags : other.shutdownStarted = client.shutdownStarted := congrArg (·.1) hshrinks.flags
    rw [hshrinks.state]
    exact h.stopped (hflags ▸ hstopped)

theorem Tracked.shrink (h : Tracked clock client) (hshrinks : Shrinks client other)
    (hasked : other.hasPendingDefinition = true →
      IsAsked .definition client.pendingDefinition client.requests →
        IsAsked .definition client.pendingDefinition other.requests) : Tracked clock other := by
  refine ⟨h.toTimed.shrink hshrinks, fun hready hlifecycle hpending ↦ ?_⟩
  have hquery : other.pendingDefinition = client.pendingDefinition :=
    congrArg (·.2) hshrinks.queries
  have hflags : other.lifecycleShutdown = client.lifecycleShutdown := congrArg (·.2) hshrinks.flags
  rw [hquery]
  exact hasked hpending (h.asked (hshrinks.state ▸ hready) (hflags ▸ hlifecycle)
    (hshrinks.definition hpending))

theorem eraseRequest_shrinks (client : GzLspClient) (id : ℤ) :
    Shrinks client (client.eraseRequest id) :=
  ⟨rfl, rfl, rfl, rfl, rfl, fun h ↦ h, fun h ↦ h, List.filter_subset_self _, le_rfl⟩

/-- A query is given up with the request for it. -/
theorem abandon_pending (client : GzLspClient) (pending : Request) :
    (client.abandon pending).hasPendingCompletion = (client.hasPendingCompletion &&
        !asksFor .completion client.pendingCompletion pending) ∧
      (client.abandon pending).hasPendingDefinition = (client.hasPendingDefinition &&
        !asksFor .definition client.pendingDefinition pending) := by
  unfold abandon asksFor
  split
  next hkind => simp [hkind]
  next hkind => simp [hkind]
  next hkind => simp [hkind]

theorem abandon_shrinks (client : GzLspClient) (pending : Request) :
    Shrinks client (client.abandon pending) := by
  have hless {waits others : Bool} (h : (waits && others) = true) : waits = true :=
    ((Bool.and_eq_true _ _).mp h).1
  unfold abandon
  split
  · exact .refl client
  · exact ⟨rfl, rfl, rfl, rfl, rfl, hless, fun h ↦ h, List.Subset.refl _, le_rfl⟩
  · exact ⟨rfl, rfl, rfl, rfl, rfl, fun h ↦ h, hless, List.Subset.refl _, le_rfl⟩

theorem abandon_requests (client : GzLspClient) (pending : Request) :
    (client.abandon pending).requests = client.requests := by
  unfold abandon
  split <;> rfl

/-- A request that is not for the query leaves the others. -/
theorem asked_eraseRequest (hnumbered : Numbered client) {id : ℤ} {pending : Request}
    (hpending : client.requests.lookup id = some pending) {kind : RequestKind} {query : Query}
    (hother : asksFor kind query pending = false) (h : IsAsked kind query client.requests) :
    IsAsked kind query (client.eraseRequest id).requests := by
  obtain ⟨entry, hentry, hasks⟩ := h
  rw [(perm_of_lookup hnumbered.distinct hpending).mem_iff, List.mem_cons] at hentry
  obtain rfl | hleft := hentry
  · rw [hother] at hasks
    cases hasks
  · exact ⟨entry, hleft, hasks⟩

/-! ### The server's messages -/

theorem abandon_tracked (h : Tracked clock client) (hnumbered : Numbered client) {id : ℤ}
    {pending : Request} (hpending : client.requests.lookup id = some pending) :
    Tracked clock ((client.eraseRequest id).abandon pending) := by
  have hshrinks := (eraseRequest_shrinks client id).trans (abandon_shrinks _ pending)
  refine h.shrink hshrinks fun hwaits hasked ↦ ?_
  rw [(abandon_pending _ pending).2, Bool.and_eq_true, Bool.not_eq_true'] at hwaits
  rw [abandon_requests]
  exact asked_eraseRequest hnumbered hpending hwaits.2 hasked

/-- The answer to another kind of request leaves the definitions that are asked for. -/
theorem eraseRequest_tracked (h : Tracked clock client) (hnumbered : Numbered client) {id : ℤ}
    {pending : Request} (hpending : client.requests.lookup id = some pending)
    (hkind : pending.kind ≠ .definition) : Tracked clock (client.eraseRequest id) := by
  refine h.shrink (eraseRequest_shrinks client id) fun _ hasked ↦ ?_
  have hother : asksFor .definition client.pendingDefinition pending = false := by
    rw [asksFor, decide_eq_false hkind, Bool.false_and]
  exact asked_eraseRequest hnumbered hpending hother hasked

theorem handleInitialized_tracked (h : Tracked clock client) (hlive : IsLive client)
    (result : Json) : Tracked clock (client.handleInitialized engine clock result) := by
  have hready : Timed clock (client.send .initialized).becomeReady := by
    have hsent := h.send .initialized
    refine ⟨hsent.sent, State.noConfusion, hsent.due, fun hstopped ↦ ?_⟩
    have hidle := hsent.stopped hstopped
    rw [(send_untouched client .initialized).state] at hidle
    rcases hlive with hstate | hstate <;> simp [hstate] at hidle
  simp only [handleInitialized]
  split_ifs with hversion hpending
  · exact fail_tracked _ _
  · exact sendDefinition_tracked hready
  · exact ⟨hready, fun _ _ hwaits ↦ absurd hwaits hpending⟩

theorem handleCompletion_tracked (h : Tracked clock client) (query : Query) (result : Json)
    (listeners : List Call) :
    Tracked clock (client.handleCompletion engine clock query result listeners) := by
  have hflight : Tracked clock (client.setInFlight false) := h.congr rfl le_rfl rfl
  simp only [handleCompletion]
  split_ifs
  · have hcache : Shrinks (client.setInFlight false)
        ((client.setInFlight false).cacheCompletion engine query result) :=
      ⟨rfl, rfl, rfl, rfl, rfl, fun hwaits ↦ Bool.noConfusion hwaits, fun h ↦ h,
        List.Subset.refl _, le_rfl⟩
    exact calls_tracked (hflight.shrink hcache fun _ hasked ↦ hasked) listeners
  · exact hflight

theorem handleDefinition_tracked (h : Tracked clock client) (hnumbered : Numbered client) {id : ℤ}
    {pending : Request} (hpending : client.requests.lookup id = some pending) (result : Json) :
    Tracked clock
      ((client.eraseRequest id).handleDefinition engine pending.query result) := by
  have herase := eraseRequest_shrinks client id
  unfold handleDefinition
  split_ifs with hwaits
  · exact ⟨h.toTimed.shrink ⟨rfl, rfl, rfl, rfl, rfl, fun h ↦ h, Bool.noConfusion, herase.requests,
      le_rfl⟩, fun _ _ ↦ Bool.noConfusion⟩
  · refine h.shrink herase fun hdefinition hasked ↦ ?_
    have hother : asksFor .definition client.pendingDefinition pending = false := by
      rw [hdefinition, Bool.true_and, Bool.not_eq_true] at hwaits
      rw [asksFor, show sameQuery pending.query client.pendingDefinition = false from hwaits,
        Bool.and_false]
    exact asked_eraseRequest hnumbered hpending hother hasked

theorem handleResponse_tracked (h : Tracked clock client) (hlive : IsLive client)
    (hnumbered : Numbered client) (id : ℤ) (message : List (Text × Json)) (listeners : List Call) :
    Tracked clock (client.handleResponse engine clock id message listeners) := by
  unfold handleResponse
  split
  next => exact h
  next pending hpending =>
    simp only [handleAnswer]
    split
    next => exact abandon_tracked h hnumbered hpending
    next =>
      split
      next hkind =>
        have herase := eraseRequest_tracked h hnumbered hpending (by rw [hkind]; exact
          RequestKind.noConfusion)
        have hstarting : IsLive (client.eraseRequest id) := hlive
        exact handleInitialized_tracked herase hstarting _
      next hkind =>
        have herase := eraseRequest_tracked h hnumbered hpending (by rw [hkind]; exact
          RequestKind.noConfusion)
        exact handleCompletion_tracked herase _ _ listeners
      next => exact handleDefinition_tracked h hnumbered hpending _

theorem handleBody_tracked (h : Tracked clock client) (hlive : IsLive client)
    (hnumbered : Numbered client) (body : ByteString) (listeners : List Call) :
    Tracked clock (client.handleBody engine clock body listeners) := by
  unfold handleBody
  split
  next message _ =>
    have hreceive : Tracked clock (client.receive (.dictionary message)) := h.congr rfl le_rfl rfl
    have hreceived : IsLive (client.receive (.dictionary message)) := hlive
    have hkept : Numbered (client.receive (.dictionary message)) := ⟨hnumbered.1, hnumbered.2⟩
    unfold handle
    split_ifs
    · exact hreceive.send _
    · exact handleResponse_tracked hreceive hreceived hkept _ message listeners
    · exact hreceive
  next => exact h

/-! ### Pumping -/

/-- The invariants of the session that its moves keep. -/
structure Consistent (client : GzLspClient) : Prop where
  inStep : InStep client
  numbered : Numbered client
  restarting : Restarting client
  flying : Flying client

theorem Consistent.of_reaches (h : Consistent client) (hreaches : Reaches engine clock client other)
    (hinStep : InStep other) : Consistent other := by
  have hkept : Numbered other ∧ Restarting other ∧ Flying other := by
    have hmoves (first second : GzLspClient) (hmove : Move engine clock first second)
        (hfirst : Numbered first ∧ Restarting first ∧ Flying first) :
        Numbered second ∧ Restarting second ∧ Flying second :=
      ⟨move_numbered hmove hfirst.1, move_restarting hmove hfirst.1 hfirst.2.1,
        move_flying hmove hfirst.1 hfirst.2.2⟩
    exact property_of_reaches hmoves hreaches ⟨h.numbered, h.restarting, h.flying⟩
  exact ⟨hinStep, hkept.1, hkept.2.1, hkept.2.2⟩

theorem Consistent.setInput (h : Consistent client) (input : ByteString) :
    Consistent (client.setInput input) where
  inStep := h.inStep.congr rfl rfl rfl rfl id rfl
  numbered := ⟨h.numbered.1, h.numbered.2⟩
  restarting := h.restarting.congr rfl le_rfl
  flying := h.flying

theorem Consistent.handleBody (h : Consistent client) (body : ByteString) (listeners : List Call) :
    Consistent (client.handleBody engine clock body listeners) :=
  h.of_reaches (handleBody_reaches h.inStep body listeners) (handleBody_inStep h.inStep body _)

theorem parseMessages_tracked (pump : PumpInput) (left : ℕ) (h : Consistent client)
    (htracked : Tracked clock client) (hlive : IsLive client) :
    Tracked clock (parseMessages engine clock pump left client) := by
  induction left generalizing client with
  | zero => exact htracked
  | succ left ih =>
    simp only [parseMessages]
    split
    next => exact htracked
    next =>
      split
      next => exact htracked
      next => exact fail_tracked _ _
      next body rest _ =>
        set listeners := pump.listeners (PumpSchedule.maxMessagesPerPump - (left + 1))
        have hinput : Consistent (client.setInput rest) := h.setInput rest
        have hset : Tracked clock (client.setInput rest) := htracked.congr rfl le_rfl rfl
        have hset' : IsLive (client.setInput rest) := hlive
        have hbody : Tracked clock
            ((client.setInput rest).handleBody engine clock body listeners) :=
          handleBody_tracked hset hset' hinput.numbered body listeners
        have hcontinues : Continues (client.setInput rest)
            ((client.setInput rest).handleBody engine clock body listeners) :=
          handleBody_input hset' body listeners
        obtain ⟨hnext, -⟩ | ⟨-, hempty⟩ := hcontinues
        · exact ih (hinput.handleBody body listeners) hbody hnext
        · rw [parseMessages_empty hempty]
          exact hbody

/-- Giving up requests leaves the others on the list. -/
theorem abandonAll_shrinks (given : List Request) (client : GzLspClient) :
    Shrinks client (given.foldl abandon client) ∧
      (given.foldl abandon client).requests = client.requests := by
  induction given generalizing client with
  | nil => exact ⟨.refl client, rfl⟩
  | cons pending given ih =>
    obtain ⟨hshrinks, hrequests⟩ := ih (client.abandon pending)
    exact ⟨(abandon_shrinks client pending).trans hshrinks,
      hrequests.trans (abandon_requests client pending)⟩

/-- A query that is still pending was asked for by none of the requests that were given up. -/
theorem abandonAll_pending (given : List Request) (client : GzLspClient) :
    ((given.foldl abandon client).hasPendingCompletion = true →
      ∀ pending ∈ given, asksFor .completion client.pendingCompletion pending = false) ∧
    ((given.foldl abandon client).hasPendingDefinition = true →
      ∀ pending ∈ given, asksFor .definition client.pendingDefinition pending = false) := by
  induction given generalizing client with
  | nil => exact ⟨fun _ _ h ↦ absurd h List.not_mem_nil, fun _ _ h ↦ absurd h List.not_mem_nil⟩
  | cons first given ih =>
    obtain ⟨hcompletions, hdefinitions⟩ := ih (client.abandon first)
    obtain ⟨hcompletion, hdefinition⟩ := abandon_pending client first
    have hqueries := Prod.ext_iff.mp (abandon_shrinks client first).queries
    have hrest := (abandonAll_shrinks given (client.abandon first)).1
    refine ⟨fun hwaits pending hpending ↦ ?_, fun hwaits pending hpending ↦ ?_⟩
    · obtain rfl | hother := List.mem_cons.mp hpending
      · have hkept := hrest.completion hwaits
        rw [hcompletion, Bool.and_eq_true, Bool.not_eq_true'] at hkept
        exact hkept.2
      · rw [← show (client.abandon first).pendingCompletion = client.pendingCompletion from
          hqueries.1]
        exact hcompletions hwaits pending hother
    · obtain rfl | hother := List.mem_cons.mp hpending
      · have hkept := hrest.definition hwaits
        rw [hdefinition, Bool.and_eq_true, Bool.not_eq_true'] at hkept
        exact hkept.2
      · rw [← show (client.abandon first).pendingDefinition = client.pendingDefinition from
          hqueries.2]
        exact hdefinitions hwaits pending hother

/-- The requests that have not waited too long stay on the list. -/
theorem expireRequests_requests (client : GzLspClient) (now : ℕ) :
    (client.expireRequests now).requests =
      client.requests.filter fun entry ↦ !isExpired now entry.2 :=
  (abandonAll_shrinks _ _).2

theorem expireRequests_shrinks (client : GzLspClient) (now : ℕ) :
    Shrinks client (client.expireRequests now) := by
  have hfilter : Shrinks client
      { client with requests := client.requests.filter fun entry ↦ !isExpired now entry.2 } :=
    ⟨rfl, rfl, rfl, rfl, rfl, fun h ↦ h, fun h ↦ h, List.filter_subset_self _, le_rfl⟩
  exact hfilter.trans (abandonAll_shrinks _ _).1

/-- A query that is still pending is asked for by a request that waits, if it was asked for. -/
theorem expireRequests_asked (client : GzLspClient) (now : ℕ) :
    ((client.expireRequests now).hasPendingCompletion = true →
      IsAsked .completion client.pendingCompletion client.requests →
        IsAsked .completion client.pendingCompletion (client.expireRequests now).requests) ∧
    ((client.expireRequests now).hasPendingDefinition = true →
      IsAsked .definition client.pendingDefinition client.requests →
        IsAsked .definition client.pendingDefinition (client.expireRequests now).requests) := by
  obtain ⟨hcompletion, hdefinition⟩ := abandonAll_pending
    ((client.requests.filter fun entry ↦ isExpired now entry.2).map (·.2))
    { client with requests := client.requests.filter fun entry ↦ !isExpired now entry.2 }
  have hkept {kind : RequestKind} {query : Query}
      (hothers : ∀ pending ∈ (client.requests.filter fun entry ↦ isExpired now entry.2).map (·.2),
        asksFor kind query pending = false)
      (hasked : IsAsked kind query client.requests) :
      IsAsked kind query (client.expireRequests now).requests := by
    obtain ⟨entry, hentry, hasks⟩ := hasked
    rw [expireRequests_requests]
    refine ⟨entry, List.mem_filter.mpr ⟨hentry, ?_⟩, hasks⟩
    by_contra hexpired
    rw [Bool.not_eq_true, Bool.not_eq_false'] at hexpired
    have hgiven := hothers entry.2
      (List.mem_map_of_mem (List.mem_filter.mpr ⟨hentry, hexpired⟩))
    rw [hasks] at hgiven
    cases hgiven
  exact ⟨fun hwaits ↦ hkept (hcompletion hwaits), fun hwaits ↦ hkept (hdefinition hwaits)⟩

theorem expireRequests_tracked (h : Tracked clock client) (now : ℕ) :
    Tracked clock (client.expireRequests now) :=
  h.shrink (expireRequests_shrinks client now) (expireRequests_asked client now).2

theorem read_tracked (h : Tracked clock client) : Tracked clock client.read :=
  h.congr rfl (Nat.le_succ _) rfl

theorem serve_tracked (h : Tracked clock client) : Tracked clock (client.serve clock) := by
  have hexpire := expireRequests_tracked (read_tracked h) (client.now clock)
  simp only [serve]
  split
  · exact hexpire.sendCompletion _
  · exact hexpire

theorem afterParsing_tracked (h : Tracked clock client) (pump : PumpInput) :
    Tracked clock (client.afterParsing engine clock pump) := by
  have hset (stderrOutput : ByteString) : Tracked clock (client.setStderr stderrOutput) :=
    h.congr rfl le_rfl rfl
  have htrim : Tracked clock client.trimStderr := hset _
  simp only [afterParsing]
  split_ifs
  · exact fail_tracked _ _
  · exact fail_tracked _ _
  · exact fail_tracked _ _
  · exact serve_tracked (read_tracked htrim)
  · exact serve_tracked htrim

/-- What a pump that does something starts from. -/
theorem pump_of_live (hlive : IsLive client) (hshutdown : client.shutdownStarted = false)
    (pump : PumpInput) : client.pump engine clock pump =
      (parseMessages engine clock pump PumpSchedule.maxMessagesPerPump
        (client.drain pump)).afterParsing engine clock pump := by
  have hidle :
      (decide (client.state ≠ .initializing) && decide (client.state ≠ .ready)) = false := by
    rcases hlive with hstate | hstate <;> simp [hstate]
  rw [GzLspClient.pump, hshutdown]
  simp only [Bool.false_eq_true, if_false]
  rw [if_neg (by rw [hidle]; exact Bool.false_ne_true)]

theorem pump_tracked (h : Consistent client) (htracked : Tracked clock client) (pump : PumpInput) :
    Tracked clock (client.pump engine clock pump) := by
  unfold GzLspClient.pump
  split_ifs with hshutdown hidle
  · exact htracked
  · exact htracked
  · have hlive : IsLive (client.drain pump) := by
      rw [Bool.and_eq_true, decide_eq_true_eq, decide_eq_true_eq, ← not_or, not_not] at hidle
      exact hidle
    have hdrain : Consistent (client.drain pump) :=
      ⟨h.inStep.congr rfl rfl rfl rfl id rfl, ⟨h.numbered.1, h.numbered.2⟩,
        h.restarting.congr rfl le_rfl, h.flying⟩
    have hdrained : Tracked clock (client.drain pump) := htracked.congr rfl le_rfl rfl
    exact afterParsing_tracked (parseMessages_tracked pump _ hdrain hdrained hlive) pump

/-! ### Runs -/

theorem shutdown_tracked (h : Tracked clock client) (isProcessRunning : Bool) :
    Tracked clock (client.shutdown isProcessRunning) := by
  unfold GzLspClient.shutdown
  split
  · exact h
  · exact Timed.tracked (timed_idle rfl rfl State.noConfusion fun _ ↦ .inl rfl) State.noConfusion

theorem step_tracked (h : Consistent client) (htracked : Tracked clock client) (op : Op) :
    Tracked clock (step engine clock client op) := by
  cases op with
  | call call => exact call_tracked htracked call
  | pump pump => exact pump_tracked h htracked pump
  | shutdown isProcessRunning => exact shutdown_tracked htracked isProcessRunning
  | beginLifecycleShutdown =>
    exact ⟨htracked.toTimed.congr rfl le_rfl, fun _ ↦ Bool.noConfusion⟩

theorem run_tracked (ops : List Op) :
    Consistent (run engine clock ops) ∧ Tracked clock (run engine clock ops) := by
  refine exec_invariant (step engine clock) (fun client ↦ Consistent client ∧ Tracked clock client)
    (fun client op h ↦ ?_) ⟨⟨initial_inStep, initial_numbered, ?_, rfl⟩, initial_tracked⟩ ops
  · have hinStep : InStep (step engine clock client op) := step_inStep client op h.1.inStep
    exact ⟨h.1.of_reaches (step_reaches h.1.inStep op) hinStep, step_tracked h.1 h.2 op⟩
  · exact RestartBound.initial_restarting

end Gzscript.Lsp.Deadlines
