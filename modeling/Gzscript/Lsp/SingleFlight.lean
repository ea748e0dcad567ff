import Gzscript.Lsp.Moves

/-!
# One completion at a time

The flag `completion_in_flight` says whether a completion waits for an answer, and no more than one
ever does, whichever way the request leaves the list: by an answer, an error, the time, a failure or
the shutdown (`Flying`). What is cached was answered by a server to a request that a server was sent
for the cached query (`Cached`), because a request waits only if it was sent (`Asked`).
`run_completion_singleFlight` is both, in every state of a run.
-/

set_option autoImplicit false
set_option relaxedAutoImplicit false

namespace Gzscript.Lsp.SingleFlight

open Protocol Session Session.GzLspClient Moves

variable (engine : Engine)

/-! ### What is to hold -/

/-- The message was sent to the present server or to one before it. -/
def WasSent (client : GzLspClient) (message : ClientMessage) : Prop :=
  ∃ log ∈ client.sent :: client.earlier, message ∈ log

/-- As many completions wait for an answer as the flag says. -/
def Flying (client : GzLspClient) : Prop :=
  outstanding .completion client.requests = if client.completionInFlight then 1 else 0

/-- A server answered a request with this message in a way that gives the value. -/
def Answered {α : Type} (client : GzLspClient) (message : ℤ → ClientMessage) (compute : Json → α)
    (value : α) : Prop :=
  ∃ id result, WasSent client (message id) ∧ Responded engine client id result ∧
    value = compute result

/-- What is cached is what a server answered to a request with the URI and the position of the
cached query. -/
structure Cached (client : GzLspClient) : Prop where
  completion : client.hasCachedCompletion = true →
    Answered engine client (.completion · client.cachedCompletionQuery) (completionOptions engine)
      client.cachedCompletionOptions
  definition : client.hasCachedDefinition = true →
    Answered engine client (.definition · client.cachedDefinitionQuery) (definitionResult engine)
      client.cachedDefinition

/-! ### What is sent and received stays so -/

variable {engine} {clock : Clock} {client other : GzLspClient}

/-- Nothing that was sent or received is forgotten. -/
structure Grows (client other : GzLspClient) : Prop where
  received : ∀ message ∈ client.received, message ∈ other.received
  sent : ∀ message, WasSent client message → WasSent other message

theorem Grows.trans {last : GzLspClient} (h : Grows client other) (h' : Grows other last) :
    Grows client last :=
  ⟨fun message hmessage ↦ h'.received message (h.received message hmessage),
    fun message hmessage ↦ h'.sent message (h.sent message hmessage)⟩

theorem Grows.of_eq (hreceived : ∀ message ∈ client.received, message ∈ other.received)
    (hsent : other.sent = client.sent) (hearlier : other.earlier = client.earlier) :
    Grows client other := by
  refine ⟨hreceived, fun message hmessage ↦ ?_⟩
  rw [WasSent, hsent, hearlier]
  exact hmessage

theorem responded_grow {id : ℤ} {result : Json} (h : Responded engine client id result)
    (hgrows : Grows client other) : Responded engine other id result := by
  obtain ⟨message, hanswer, herror, hresult⟩ := h
  have hreceived := hgrows.received _ hanswer.received
  exact ⟨message, ⟨hreceived, hanswer.hasId, hanswer.noMethod, hanswer.id⟩, herror, hresult⟩

theorem Answered.grow {α : Type} {message : ℤ → ClientMessage} {compute : Json → α} {value : α}
    (h : Answered engine client message compute value) (hgrows : Grows client other) :
    Answered engine other message compute value := by
  obtain ⟨id, result, hsent, hresponded, heq⟩ := h
  exact ⟨id, result, hgrows.sent _ hsent, responded_grow hresponded hgrows, heq⟩

theorem Cached.grow (h : Cached engine client) (hgrows : Grows client other)
    (hcompletion : completionCache other = completionCache client)
    (hdefinition : definitionCache other = definitionCache client) : Cached engine other := by
  simp only [completionCache, definitionCache, Prod.mk.injEq] at hcompletion hdefinition
  obtain ⟨hhas, hquery, hoptions⟩ := hcompletion
  obtain ⟨hhas', hquery', hvalue⟩ := hdefinition
  constructor
  · intro hcached
    rw [hquery, hoptions]
    exact (h.completion (hhas ▸ hcached)).grow hgrows
  · intro hcached
    rw [hquery', hvalue]
    exact (h.definition (hhas' ▸ hcached)).grow hgrows

theorem send_grows (client : GzLspClient) (message : ClientMessage) :
    Grows client (client.send message) := by
  rw [send]
  split
  · refine ⟨fun _ ↦ id, fun other hother ↦ ?_⟩
    obtain ⟨log, hlog, hmem⟩ := hother
    obtain rfl | hearlier := List.mem_cons.mp hlog
    · exact ⟨_, List.mem_cons_self, List.mem_append_left _ hmem⟩
    · exact ⟨log, List.mem_cons_of_mem _ hearlier, hmem⟩
  · exact ⟨fun _ ↦ id, fun _ ↦ id⟩

theorem request_grows (client : GzLspClient) (message : ℤ → ClientMessage) (kind : RequestKind)
    (query : Query) : Grows client (client.request clock message kind query) := by
  rw [request]
  refine Grows.trans ?_ (send_grows _ _)
  exact .of_eq (fun _ ↦ id) rfl rfl

theorem launched_grows {attempting : GzLspClient} (hattempts : Attempts clock client attempting) :
    Grows client
      ((attempting.connect clock).request clock .initializeRequest .initializing .empty) := by
  have hconnect : Grows client (attempting.connect clock) := by
    refine ⟨?_, fun message hmessage ↦ ?_⟩
    · cases hattempts with
      | first => exact fun _ ↦ id
      | again => exact fun _ ↦ id
    · have hsame : WasSent attempting message := by
        cases hattempts with
        | first => exact hmessage
        | again => exact hmessage
      obtain ⟨log, hlog, hmem⟩ := hsame
      exact ⟨log, List.mem_cons_of_mem _ hlog, hmem⟩
  exact hconnect.trans (request_grows _ _ _ _)

theorem shutdown_grows (hshutdown : client.shutdownStarted = false) (isProcessRunning : Bool) :
    Grows client (client.shutdown isProcessRunning) := by
  have hexit : Grows client (if isProcessRunning then client.send .exit else client) := by
    split
    · exact send_grows _ _
    · exact .of_eq (fun _ ↦ id) rfl rfl
  rw [GzLspClient.shutdown, if_neg (by rw [hshutdown]; exact Bool.false_ne_true)]
  exact hexit.trans (.of_eq (fun _ ↦ id) rfl rfl)

theorem move_grows (hmove : Move engine clock client other) : Grows client other := by
  cases hmove with
  | quiet hquiet =>
    exact .of_eq hquiet.received (congrArg (·.2.2.2.2.1) hquiet.wire)
      (congrArg (·.2.2.2.2.2) hquiet.wire)
  | send message => exact send_grows client message
  | definition hprocess query => exact request_grows _ _ _ _
  | completion hprocess hflight query =>
    exact (request_grows client _ _ _).trans (.of_eq (fun _ ↦ id) rfl rfl)
  | launched hattempts hrequests => exact launched_grows hattempts
  | notLaunched hattempts message =>
    cases hattempts with
    | first => exact .of_eq (fun _ ↦ id) rfl rfl
    | again => exact .of_eq (fun _ ↦ id) rfl rfl
  | fail message => exact .of_eq (fun _ ↦ id) rfl rfl
  | @ready id pending hpending hkind =>
    have herase : Grows client (client.eraseRequest id) := .of_eq (fun _ h ↦ h) rfl rfl
    refine (herase.trans (send_grows _ .initialized)).trans ?_
    exact .of_eq (fun _ h ↦ h) rfl rfl
  | answer hpending htakes =>
    exact .of_eq (htakes.received ▸ fun _ ↦ id) (congrArg (·.2.2.2.2.1) htakes.wire)
      (congrArg (·.2.2.2.2.2) htakes.wire)
  | expire hexpires =>
    exact .of_eq (hexpires.received ▸ fun _ ↦ id) (congrArg (·.2.2.2.2.1) hexpires.wire)
      (congrArg (·.2.2.2.2.2) hexpires.wire)
  | shutdown hshutdown isProcessRunning => exact shutdown_grows hshutdown isProcessRunning

/-! ### The flag -/

theorem outstanding_concat (kind : RequestKind) (requests : List (ℤ × Request))
    (entry : ℤ × Request) : outstanding kind (requests ++ [entry]) =
      outstanding kind requests + if entry.2.kind = kind then 1 else 0 := by
  rw [outstanding, List.countP_append, List.countP_singleton, outstanding]
  simp only [decide_eq_true_eq]

/-- The flag that is cleared where a completion is taken off the list says how many are left. -/
theorem flying_filter {requests : List (ℤ × Request)} {inFlight : Bool}
    (h : outstanding .completion requests = if inFlight then 1 else 0)
    (waits : ℤ × Request → Bool) :
    outstanding .completion (requests.filter waits) =
      if inFlight && requests.all fun entry ↦ waits entry || decide (entry.2.kind ≠ .completion)
      then 1 else 0 := by
  have hsplit := List.countP_eq_countP_filter_add requests
    (fun entry ↦ decide (entry.2.kind = .completion)) waits
  by_cases hall : (requests.all fun entry ↦
      waits entry || decide (entry.2.kind ≠ .completion)) = true
  · have hgone : (requests.filter fun entry ↦ !waits entry).countP
        (fun entry ↦ decide (entry.2.kind = .completion)) = 0 := by
      rw [List.countP_eq_zero]
      intro entry hentry hkind
      obtain ⟨hmem, hexpired⟩ := List.mem_filter.mp hentry
      have hkept := List.all_eq_true.mp hall entry hmem
      simp_all
    rw [hall, Bool.and_true, ← h, outstanding, outstanding, hsplit, hgone, Nat.add_zero]
  · have hsome : 0 < (requests.filter fun entry ↦ !waits entry).countP
        (fun entry ↦ decide (entry.2.kind = .completion)) := by
      rw [List.countP_pos_iff]
      rw [List.all_eq_true, not_forall] at hall
      obtain ⟨entry, hentry⟩ := hall
      rw [Classical.not_imp, Bool.or_eq_true, not_or] at hentry
      obtain ⟨hmem, hexpired, hkind⟩ := hentry
      refine ⟨entry, List.mem_filter.mpr ⟨hmem, by simpa using hexpired⟩, by simpa using hkind⟩
    rw [Bool.not_eq_true] at hall
    rw [hall, Bool.and_false, if_neg Bool.false_ne_true]
    rw [outstanding] at h ⊢
    split at h <;> omega

/-- A request that is taken off the list clears the flag if it is a completion. -/
theorem Flying.eraseRequest (h : Flying client) (hnumbered : Numbered client) {id : ℤ}
    {pending : Request} (hpending : client.requests.lookup id = some pending) :
    outstanding .completion (client.requests.filter (·.1 ≠ id)) =
      if client.completionInFlight && decide (pending.kind ≠ .completion) then 1 else 0 := by
  have hsplit := outstanding_of_lookup hnumbered.distinct hpending .completion
  rw [h] at hsplit
  by_cases hkind : pending.kind = .completion
  · rw [if_pos hkind] at hsplit
    rw [decide_eq_false (not_not.mpr hkind), Bool.and_false, if_neg Bool.false_ne_true]
    split at hsplit <;> omega
  · rw [if_neg hkind, Nat.add_zero] at hsplit
    rw [decide_eq_true hkind, Bool.and_true]
    exact hsplit.symm

theorem flying_none (hrequests : other.requests = []) (hflight : other.completionInFlight = false) :
    Flying other := by
  rw [Flying, hrequests, hflight]
  rfl

theorem Flying.idle (h : Flying client) (hrequests : client.requests = []) :
    client.completionInFlight = false := by
  rw [Flying, hrequests] at h
  by_contra hflight
  rw [if_pos (Bool.not_eq_false _ ▸ hflight)] at h
  cases h

theorem request_inFlight (client : GzLspClient) (message : ℤ → ClientMessage)
    (kind : RequestKind) (query : Query) :
    (client.request clock message kind query).completionInFlight = client.completionInFlight :=
  send_inFlight _ _

theorem move_flying (hmove : Move engine clock client other) (hnumbered : Numbered client)
    (h : Flying client) : Flying other := by
  cases hmove with
  | quiet hquiet =>
    have hflight : other.completionInFlight = client.completionInFlight :=
      congrArg (·.2.2.2.1) hquiet.wire
    rw [Flying, hquiet.requests, hflight]
    exact h
  | send message =>
    rw [Flying, send_requests, send_inFlight]
    exact h
  | definition hprocess query =>
    rw [Flying, request_requests, request_inFlight, outstanding_concat]
    exact h
  | completion hprocess hflight query =>
    show outstanding .completion (client.request clock _ _ _).requests = 1
    rw [Flying, hflight] at h
    rw [request_requests, outstanding_concat, h]
    rfl
  | @launched attempting hattempts hrequests =>
    have hnone : (attempting.connect clock).requests = [] := hattempts.requests.trans hrequests
    have hidle : (attempting.connect clock).completionInFlight = false := by
      cases hattempts with
      | first => exact h.idle hrequests
      | again => exact h.idle hrequests
    rw [Flying, request_requests, request_inFlight, hnone, hidle]
    rfl
  | notLaunched hattempts message => exact flying_none rfl rfl
  | fail message => exact flying_none rfl rfl
  | @ready id pending hpending hkind =>
    have hother : pending.kind ≠ .completion := by
      rw [hkind]
      exact RequestKind.noConfusion
    have hleft := h.eraseRequest hnumbered hpending
    rw [decide_eq_true hother, Bool.and_true] at hleft
    show outstanding .completion ((client.eraseRequest id).send .initialized).requests =
      if ((client.eraseRequest id).send .initialized).completionInFlight then 1 else 0
    rw [send_requests, send_inFlight]
    exact hleft
  | @answer _ id pending hpending htakes =>
    have hflight : other.completionInFlight =
        (client.completionInFlight && decide (pending.kind ≠ .completion)) :=
      congrArg (·.2.2.2.1) htakes.wire
    rw [Flying, htakes.requests, hflight]
    exact h.eraseRequest hnumbered hpending
  | expire hexpires =>
    have hflight := congrArg (·.2.2.2.1) hexpires.wire
    rw [Flying, hexpires.requests]
    exact (flying_filter h _).trans
      (congrArg (fun flag : Bool ↦ if flag then 1 else 0) hflight.symm)
  | shutdown hshutdown isProcessRunning =>
    refine flying_none (shutdown_requests hshutdown _) ?_
    rw [GzLspClient.shutdown, hshutdown]
    rfl

/-! ### What waits was sent -/

/-- The message of a request. -/
def requestMessage (id : ℤ) (pending : Request) : ClientMessage :=
  match pending.kind with
  | .initializing => .initializeRequest id
  | .completion => .completion id pending.query
  | .definition => .definition id pending.query

/-- The present server was sent every request that waits for an answer. -/
def Asked (client : GzLspClient) : Prop :=
  ∀ entry ∈ client.requests, requestMessage entry.1 entry.2 ∈ client.sent

theorem asked_none (hrequests : client.requests = []) : Asked client := by
  intro entry hentry
  rw [hrequests] at hentry
  cases hentry

theorem Asked.mono (h : Asked client) (hrequests : other.requests ⊆ client.requests)
    (hsent : client.sent ⊆ other.sent) : Asked other :=
  fun entry hentry ↦ hsent (h entry (hrequests hentry))

theorem send_sent_subset (client : GzLspClient) (message : ClientMessage) :
    client.sent ⊆ (client.send message).sent := by
  rw [send]
  split
  · exact List.subset_append_left _ _
  · exact List.Subset.refl _

theorem Asked.send (h : Asked client) (message : ClientMessage) : Asked (client.send message) :=
  h.mono (send_requests client message ▸ List.Subset.refl _) (send_sent_subset client message)

/-- A request that is made while there is a server is sent to it. -/
theorem Asked.request (h : Asked client) (hprocess : client.hasProcess = true)
    (kind : RequestKind) (query : Query) (message : ℤ → ClientMessage)
    (hmessage : ∀ id sentAt, message id = requestMessage id ⟨kind, query, sentAt⟩) :
    Asked (client.request clock message kind query) := by
  have hsent : (client.request clock message kind query).sent =
      client.sent ++ [message client.nextRequestId] := by
    rw [GzLspClient.request, GzLspClient.send, if_pos hprocess]
  intro entry hentry
  rw [request_requests, List.mem_append, List.mem_singleton] at hentry
  rw [hsent]
  obtain hbefore | rfl := hentry
  · exact List.mem_append_left _ (h entry hbefore)
  · rw [← hmessage]
    exact List.mem_append_right _ (List.mem_singleton_self _)

theorem move_asked (hmove : Move engine clock client other) (h : Asked client) : Asked other := by
  cases hmove with
  | quiet hquiet =>
    have hsent : other.sent = client.sent := congrArg (·.2.2.2.2.1) hquiet.wire
    exact h.mono (hquiet.requests ▸ List.Subset.refl _) (hsent ▸ List.Subset.refl _)
  | send message => exact h.send message
  | definition hprocess query => exact h.request hprocess .definition query _ fun _ _ ↦ rfl
  | completion hprocess hflight query =>
    exact h.request hprocess .completion query _ fun _ _ ↦ rfl
  | @launched attempting hattempts hrequests =>
    have hnone : (attempting.connect clock).requests = [] := hattempts.requests.trans hrequests
    exact (asked_none hnone).request rfl .initializing .empty _ fun _ _ ↦ rfl
  | notLaunched hattempts message => exact asked_none rfl
  | fail message => exact asked_none rfl
  | @ready id pending hpending hkind =>
    have herased : Asked (client.eraseRequest id) :=
      h.mono (List.filter_sublist.subset) (List.Subset.refl _)
    exact herased.send .initialized
  | answer hpending htakes =>
    have hsent : other.sent = client.sent := congrArg (·.2.2.2.2.1) htakes.wire
    exact h.mono (htakes.requests ▸ List.filter_sublist.subset) (hsent ▸ List.Subset.refl _)
  | expire hexpires =>
    have hsent : other.sent = client.sent := congrArg (·.2.2.2.2.1) hexpires.wire
    exact h.mono (hexpires.requests ▸ List.filter_sublist.subset) (hsent ▸ List.Subset.refl _)
  | shutdown hshutdown isProcessRunning => exact asked_none (shutdown_requests hshutdown _)

/-! ### What is cached was answered -/

theorem mem_of_lookup {requests : List (ℤ × Request)} {id : ℤ} {pending : Request}
    (hpending : requests.lookup id = some pending) : (id, pending) ∈ requests := by
  obtain ⟨before, after, rfl, -⟩ := List.lookup_eq_some_iff.mp hpending
  exact List.mem_append_right _ List.mem_cons_self

theorem send_caches (client : GzLspClient) (message : ClientMessage) :
    completionCache (client.send message) = completionCache client ∧
      definitionCache (client.send message) = definitionCache client := by
  rw [send]
  split <;> exact ⟨rfl, rfl⟩

/-- An answer that is cached is that to the request it takes off the list. -/
theorem answer_cached {id : ℤ} {pending : Request}
    (hpending : client.requests.lookup id = some pending)
    (htakes : TakesAnswer engine client id pending other) (hasked : Asked client)
    (hgrows : Grows client other) (h : Cached engine client) : Cached engine other := by
  have hsent := hasked _ (mem_of_lookup hpending)
  have hwas : WasSent other (requestMessage id pending) :=
    hgrows.sent _ ⟨client.sent, List.mem_cons_self, hsent⟩
  constructor
  · intro hcached
    obtain hkept | ⟨hkind, result, hresponded, hnew⟩ := htakes.completion
    · simp only [completionCache, Prod.mk.injEq] at hkept
      obtain ⟨hhas, hquery, hoptions⟩ := hkept
      rw [hquery, hoptions]
      exact (h.completion (hhas ▸ hcached)).grow hgrows
    · simp only [completionCache, Prod.mk.injEq] at hnew
      obtain ⟨-, hquery, hoptions⟩ := hnew
      rw [requestMessage, hkind] at hwas
      rw [hquery, hoptions]
      exact ⟨id, result, hwas, responded_grow hresponded hgrows, rfl⟩
  · intro hcached
    obtain hkept | ⟨hkind, result, hresponded, hnew⟩ := htakes.definition
    · simp only [definitionCache, Prod.mk.injEq] at hkept
      obtain ⟨hhas, hquery, hvalue⟩ := hkept
      rw [hquery, hvalue]
      exact (h.definition (hhas ▸ hcached)).grow hgrows
    · simp only [definitionCache, Prod.mk.injEq] at hnew
      obtain ⟨-, hquery, hvalue⟩ := hnew
      rw [requestMessage, hkind] at hwas
      rw [hquery, hvalue]
      exact ⟨id, result, hwas, responded_grow hresponded hgrows, rfl⟩

theorem shutdown_caches (hshutdown : client.shutdownStarted = false) (isProcessRunning : Bool) :
    completionCache (client.shutdown isProcessRunning) = completionCache client ∧
      definitionCache (client.shutdown isProcessRunning) = definitionCache client := by
  rw [GzLspClient.shutdown, if_neg (by rw [hshutdown]; exact Bool.false_ne_true)]
  cases isProcessRunning with
  | true => exact send_caches client .exit
  | false => exact ⟨rfl, rfl⟩

theorem move_cached (hmove : Move engine clock client other) (hasked : Asked client)
    (h : Cached engine client) : Cached engine other := by
  have hgrows := move_grows hmove
  have hkeep (hcaches : completionCache other = completionCache client ∧
      definitionCache other = definitionCache client) : Cached engine other :=
    h.grow hgrows hcaches.1 hcaches.2
  cases hmove with
  | quiet hquiet => exact hkeep ⟨hquiet.completion, hquiet.definition⟩
  | send message => exact hkeep (send_caches client message)
  | definition hprocess query => exact hkeep (send_caches _ _)
  | completion hprocess hflight query => exact hkeep (send_caches _ _)
  | launched hattempts hrequests =>
    cases hattempts with
    | first => exact hkeep (send_caches _ _)
    | again => exact hkeep (send_caches _ _)
  | notLaunched hattempts message =>
    cases hattempts with
    | first => exact hkeep ⟨rfl, rfl⟩
    | again => exact hkeep ⟨rfl, rfl⟩
  | fail message => exact hkeep ⟨rfl, rfl⟩
  | ready hpending hkind => exact hkeep (send_caches _ _)
  | answer hpending htakes => exact answer_cached hpending htakes hasked hgrows h
  | expire hexpires => exact hkeep ⟨hexpires.completion, hexpires.definition⟩
  | shutdown hshutdown isProcessRunning => exact hkeep (shutdown_caches hshutdown _)

/-! ### Runs -/

variable (engine clock)

/-- The invariant of a run. -/
structure Sound (client : GzLspClient) : Prop where
  numbered : Numbered client
  flying : Flying client
  asked : Asked client
  cached : Cached engine client

theorem run_sound (ops : List Op) : Sound engine (run engine clock ops) := by
  refine run_of_moves (Sound engine) ⟨initial_numbered, rfl, asked_none rfl, ?_⟩ ?_ ops
  · refine ⟨fun hcached ↦ ?_, fun hcached ↦ ?_⟩ <;> cases hcached
  · exact fun _ _ hmove h ↦ ⟨move_numbered hmove h.numbered, move_flying hmove h.numbered h.flying,
      move_asked hmove h.asked, move_cached hmove h.asked h.cached⟩

/-- In every state of a run, one completion waits for an answer if the flag says so and none
otherwise, and what is cached is what a server answered to a request for the cached query. -/
theorem run_completion_singleFlight (ops : List Op) :
    Flying (run engine clock ops) ∧ Cached engine (run engine clock ops) :=
  ⟨(run_sound engine clock ops).flying, (run_sound engine clock ops).cached⟩

end Gzscript.Lsp.SingleFlight
