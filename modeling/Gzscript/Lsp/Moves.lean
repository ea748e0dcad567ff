import Gzscript.Lsp.Synchronisation
import Mathlib.Logic.Relation

/-!
# What the client does, move by move

Every operation of the client is a sequence of a few moves (`Move`), each with the condition under
which the code makes it: a message or a request is sent, a server is launched, becomes ready or has
failed, an answer or the time takes a request off the list, the client is shut down. Anything else
is `Quiet`: it leaves the requests, the caches and the life of the server as they are.

`step_reaches` takes an operation apart into its moves, so that what every move keeps holds after
every run (`run_of_moves`).
-/

set_option autoImplicit false
set_option relaxedAutoImplicit false

namespace Gzscript.Lsp.Moves

open Library.Bytes Library.Transition Protocol Session Session.GzLspClient Synchronisation
open Relation (ReflTransGen)

/-! ### Parts of the client -/

/-- The life of the server. -/
def lifecycle (client : GzLspClient) : State × Bool × ℕ × ℕ × List Event :=
  (client.state, client.shutdownStarted, client.consecutiveRestarts, client.failedAtMsec,
    client.events)

/-- What was sent, and what of it waits for an answer. -/
def wire (client : GzLspClient) :
    Bool × ℤ × List (ℤ × Request) × Bool × List ClientMessage × List (List ClientMessage) :=
  (client.hasProcess, client.nextRequestId, client.requests, client.completionInFlight, client.sent,
    client.earlier)

def completionCache (client : GzLspClient) : Bool × Query × List CompletionOption :=
  (client.hasCachedCompletion, client.cachedCompletionQuery, client.cachedCompletionOptions)

def definitionCache (client : GzLspClient) : Bool × Query × Option Definition :=
  (client.hasCachedDefinition, client.cachedDefinitionQuery, client.cachedDefinition)

/-- A change of other parts of the client. -/
structure Quiet (client other : GzLspClient) : Prop where
  lifecycle : lifecycle other = lifecycle client
  wire : wire other = wire client
  completion : completionCache other = completionCache client
  definition : definitionCache other = definitionCache client
  received : ∀ message ∈ client.received, message ∈ other.received

variable (engine : Engine) (clock : Clock)

/-- A message that was received from the server is an answer to a request. -/
structure IsAnswer (client : GzLspClient) (id : ℤ) (message : List (Text × Json)) : Prop where
  received : .dictionary message ∈ client.received
  hasId : hasField message "id" = true
  noMethod : hasField message "method" = false
  id : (field message "id" .null).toInteger engine = id

/-- The server has answered a request with a result. -/
def Responded (client : GzLspClient) (id : ℤ) (result : Json) : Prop :=
  ∃ message, IsAnswer engine client id message ∧ hasField message "error" = false ∧
    field message "result" .null = result

/-- The client that has taken an answer to the request off the list, and what it may have cached. -/
structure TakesAnswer (client : GzLspClient) (id : ℤ) (pending : Request) (other : GzLspClient) :
    Prop where
  lifecycle : lifecycle other = lifecycle client
  wire : wire other = (client.hasProcess, client.nextRequestId,
    client.requests.filter (·.1 ≠ id),
    (client.completionInFlight && decide (pending.kind ≠ .completion)), client.sent, client.earlier)
  completion : completionCache other = completionCache client ∨
    pending.kind = .completion ∧ ∃ result, Responded engine client id result ∧
      completionCache other = (true, pending.query, completionOptions engine result)
  definition : definitionCache other = definitionCache client ∨
    pending.kind = .definition ∧ ∃ result, Responded engine client id result ∧
      definitionCache other = (true, pending.query, definitionResult engine result)
  received : other.received = client.received

/-- The client that has taken requests off the list that no one waits for any longer. -/
structure Expires (client : GzLspClient) (waits : ℤ × Request → Bool) (other : GzLspClient) :
    Prop where
  lifecycle : lifecycle other = lifecycle client
  wire : wire other = (client.hasProcess, client.nextRequestId, client.requests.filter waits,
    (client.completionInFlight &&
      client.requests.all fun entry ↦ waits entry || decide (entry.2.kind ≠ .completion)),
    client.sent, client.earlier)
  completion : completionCache other = completionCache client
  definition : definitionCache other = definitionCache client
  received : other.received = client.received

/-- A launch is attempted by a client that has not been started, or that has failed, has not been
given another try since the server was last ready, and has waited. -/
inductive Attempts (client : GzLspClient) : GzLspClient → Prop
  | first (hstate : client.state = .stopped) (hshutdown : client.shutdownStarted = false) :
    Attempts client (client.attempt none)
  | again (hstate : client.state = .failed) (hrestarts : client.consecutiveRestarts < 1)
    (hbackoff : restartBackoffMsec ≤ client.now clock - client.failedAtMsec) :
    Attempts client (client.restart.attempt (some (client.now clock)))

inductive Move : GzLspClient → GzLspClient → Prop
  | quiet {client other : GzLspClient} (hquiet : Quiet client other) : Move client other
  | send (client : GzLspClient) (message : ClientMessage) : Move client (client.send message)
  | definition {client : GzLspClient} (hprocess : client.hasProcess = true) (query : Query) :
    Move client (client.request clock (.definition · query) .definition query)
  | completion {client : GzLspClient} (hprocess : client.hasProcess = true)
    (hflight : client.completionInFlight = false) (query : Query) :
    Move client ((client.request clock (.completion · query) .completion query).setInFlight true)
  | launched {client attempting : GzLspClient} (hattempts : Attempts clock client attempting)
    (hrequests : client.requests = []) :
    Move client ((attempting.connect clock).request clock .initializeRequest .initializing .empty)
  | notLaunched {client attempting : GzLspClient} (hattempts : Attempts clock client attempting)
    (message : Text) : Move client (attempting.fail clock message)
  | fail (client : GzLspClient) (message : Text) : Move client (client.fail clock message)
  | ready {client : GzLspClient} {id : ℤ} {pending : Request}
    (hpending : client.requests.lookup id = some pending) (hkind : pending.kind = .initializing) :
    Move client ((client.eraseRequest id).send .initialized).becomeReady
  | answer {client other : GzLspClient} {id : ℤ} {pending : Request}
    (hpending : client.requests.lookup id = some pending)
    (htakes : TakesAnswer engine client id pending other) : Move client other
  | expire {client other : GzLspClient} {waits : ℤ × Request → Bool}
    (hexpires : Expires client waits other) : Move client other
  | shutdown {client : GzLspClient} (hshutdown : client.shutdownStarted = false)
    (isProcessRunning : Bool) : Move client (client.shutdown isProcessRunning)

/-- The client comes to the other by moves. -/
abbrev Reaches : GzLspClient → GzLspClient → Prop := ReflTransGen (Move engine clock)

variable {engine clock}

theorem Quiet.reaches {client other : GzLspClient} (h : Quiet client other) :
    Reaches engine clock client other := .single (.quiet h)

/-! ### Sending -/

theorem synchronize_reaches (client : GzLspClient) (query : Query) :
    Reaches engine clock client (client.synchronize query) := by
  have hset (uri : Text) (document : Document) :
      Reaches engine clock client (client.setDocument uri document) :=
    Quiet.reaches ⟨rfl, rfl, rfl, rfl, fun _ ↦ id⟩
  unfold synchronize
  split
  · exact (hset _ _).tail (.send _ _)
  · split
    · exact .refl
    · exact (hset _ _).tail (.send _ _)

theorem send_inFlight (client : GzLspClient) (message : ClientMessage) :
    (client.send message).completionInFlight = client.completionInFlight := by
  rw [send]
  split <;> rfl

theorem synchronize_inFlight (client : GzLspClient) (query : Query) :
    (client.synchronize query).completionInFlight = client.completionInFlight := by
  unfold synchronize
  split
  · exact send_inFlight _ _
  · split
    · rfl
    · exact send_inFlight _ _

theorem sendDefinition_reaches {client : GzLspClient} (h : Serving client) (query : Query) :
    Reaches engine clock client (client.sendDefinition clock query) := by
  have hserving := (synchronize_serving h query).1
  refine (synchronize_reaches client query).tail ?_
  exact .definition hserving.hasProcess query

theorem sendCompletion_reaches {client : GzLspClient} (h : Serving client)
    (hflight : client.completionInFlight = false) (query : Query) :
    Reaches engine clock client (client.sendCompletion clock query) := by
  have hserving := (synchronize_serving h query).1
  refine (synchronize_reaches client query).tail ?_
  exact .completion hserving.hasProcess ((synchronize_inFlight client query).trans hflight) query

/-! ### Starting -/

theorem launch_reaches {client attempting : GzLspClient}
    (hattempts : Attempts clock client attempting)
    (hrequests : client.requests = []) (launches : Bool) :
    Reaches engine clock client (attempting.launch clock launches).2 := by
  unfold launch
  split
  · exact .single (.launched hattempts hrequests)
  · exact .single (.notLaunched hattempts _)

theorem start_reaches {client : GzLspClient} (h : InStep client) (launches : Bool) :
    Reaches engine clock client (client.start clock launches).2 := by
  unfold start
  split
  next => exact .refl
  next hrunning =>
    simp only [Bool.or_eq_true, not_or, Bool.not_eq_true] at hrunning
    split
    next => exact .refl
    next => exact .refl
    next hstate =>
      have hprocess := h.no_process (by simp [hstate]) (by simp [hstate])
      split_ifs with hrestarts hbackoff
      · exact .refl
      · exact Quiet.reaches ⟨rfl, rfl, rfl, rfl, fun _ ↦ id⟩
      · refine launch_reaches (.again hstate ?_ ?_) (h.requests hprocess) launches
        · exact Nat.lt_of_not_le hrestarts
        · exact Nat.le_of_not_lt hbackoff
    next hstate =>
      have hprocess := h.no_process (by simp [hstate]) (by simp [hstate])
      exact launch_reaches (.first hstate hrunning.1) (h.requests hprocess) launches

/-! ### The editor's calls -/

theorem complete_reaches {client : GzLspClient} (h : InStep client) (code path : Text)
    (launches : Bool) :
    Reaches engine clock client (client.complete engine clock code path launches).2 := by
  simp only [complete]
  split_ifs
  · exact .refl
  · have hrecord : InStep (client.recordCompletion clock (makeQuery engine code path)) :=
      h.congr rfl rfl rfl rfl id rfl
    have hrecorded : Reaches engine clock client
        (client.recordCompletion clock (makeQuery engine code path)) :=
      Quiet.reaches ⟨rfl, rfl, rfl, rfl, fun _ ↦ id⟩
    exact hrecorded.trans (start_reaches hrecord launches)
  · exact .refl
  · exact .refl

theorem lookup_reaches {client : GzLspClient} (h : InStep client) (code path : Text)
    (launches : Bool) :
    Reaches engine clock client (client.lookup engine clock code path launches).2 := by
  simp only [lookup]
  split_ifs
  · exact .refl
  · have hrecord : InStep (client.recordDefinition (makeQuery engine code path)) :=
      h.congr rfl rfl rfl rfl id rfl
    have hstart : InStep
        ((client.recordDefinition (makeQuery engine code path)).start clock launches).2 :=
      start_inStep hrecord launches
    have hrecorded : Reaches engine clock client
        (client.recordDefinition (makeQuery engine code path)) :=
      Quiet.reaches ⟨rfl, rfl, rfl, rfl, fun _ ↦ id⟩
    have hstarted := hrecorded.trans (start_reaches hrecord launches)
    unfold afterStart
    split
    next hready =>
      rw [Bool.and_eq_true, decide_eq_true_eq] at hready
      exact hstarted.trans (sendDefinition_reaches ⟨hstart, hready.2⟩ _)
    next => exact hstarted
  · exact .refl
  · exact .refl

theorem call_reaches {client : GzLspClient} (h : InStep client) (call : Call) :
    Reaches engine clock client (client.call engine clock call) := by
  cases call with
  | complete code path launches => exact complete_reaches h code path launches
  | lookup code path launches => exact lookup_reaches h code path launches

theorem calls_reaches {client : GzLspClient} (h : InStep client) (calls : List Call) :
    Reaches engine clock client (calls.foldl (GzLspClient.call engine clock) client) := by
  induction calls generalizing client with
  | nil => exact .refl
  | cons call calls ih => exact (call_reaches h call).trans (ih (call_inStep h call))

/-! ### The server's messages -/

/-- An answer with an error is taken off the list, and nothing is cached. -/
theorem abandon_takesAnswer (client : GzLspClient) (id : ℤ) (pending : Request) :
    TakesAnswer engine client id pending ((client.eraseRequest id).abandon pending) := by
  unfold abandon
  split
  next hkind => exact ⟨rfl, by simp [wire, eraseRequest, hkind], .inl rfl, .inl rfl, rfl⟩
  next hkind => exact ⟨rfl, by simp [wire, eraseRequest, hkind], .inl rfl, .inl rfl, rfl⟩
  next hkind => exact ⟨rfl, by simp [wire, eraseRequest, hkind], .inl rfl, .inl rfl, rfl⟩

theorem eraseRequest_inStep {client : GzLspClient} (h : InStep client) (id : ℤ) :
    InStep (client.eraseRequest id) :=
  h.congr rfl rfl rfl rfl (fun hnil ↦ by simp [eraseRequest, hnil]) rfl

section Answers

variable {client : GzLspClient} {id : ℤ} {pending : Request}

theorem initialized_reaches (hinStep : InStep client)
    (hpending : client.requests.lookup id = some pending) (hkind : pending.kind = .initializing)
    (result : Json) :
    Reaches engine clock client
      ((client.eraseRequest id).handleInitialized engine clock result) := by
  have hprocess : client.hasProcess = true := by
    by_contra hno
    rw [hinStep.requests (Bool.not_eq_true _ ▸ hno)] at hpending
    cases hpending
  have hserving := becomeReady_serving (eraseRequest_inStep hinStep id) hprocess
  have hready : Reaches engine clock client
      ((client.eraseRequest id).send .initialized).becomeReady := .single (.ready hpending hkind)
  simp only [handleInitialized]
  split_ifs
  · exact .single (.fail client _)
  · exact hready.trans (sendDefinition_reaches hserving _)
  · exact hready

theorem completion_reaches (hinStep : InStep client)
    (hpending : client.requests.lookup id = some pending) (hkind : pending.kind = .completion)
    {result : Json}
    (hresponded : Responded engine client id result) (listeners : List Call) :
    Reaches engine clock client ((client.eraseRequest id).handleCompletion engine clock
      pending.query result listeners) := by
  have hflight : InStep ((client.eraseRequest id).setInFlight false) :=
    (eraseRequest_inStep hinStep id).congr rfl rfl rfl rfl (fun h ↦ h) rfl
  simp only [handleCompletion]
  split_ifs
  · have hcache : InStep (((client.eraseRequest id).setInFlight false).cacheCompletion engine
        pending.query result) := hflight.congr rfl rfl rfl rfl (fun h ↦ h) rfl
    refine (ReflTransGen.single (.answer hpending ?_)).trans (calls_reaches hcache listeners)
    exact ⟨rfl, by simp [wire, eraseRequest, setInFlight, cacheCompletion, hkind],
      .inr ⟨hkind, result, hresponded, rfl⟩, .inl rfl, rfl⟩
  · refine .single (.answer hpending ?_)
    exact ⟨rfl, by simp [wire, eraseRequest, setInFlight, hkind], .inl rfl, .inl rfl, rfl⟩

theorem definition_reaches (hpending : client.requests.lookup id = some pending)
    (hkind : pending.kind = .definition) {result : Json}
    (hresponded : Responded engine client id result) :
    Reaches engine clock client
      ((client.eraseRequest id).handleDefinition engine pending.query result) := by
  refine .single (.answer hpending ?_)
  unfold handleDefinition
  split_ifs
  · exact ⟨rfl, by simp [wire, eraseRequest, hkind], .inl rfl,
      .inr ⟨hkind, result, hresponded, rfl⟩, rfl⟩
  · exact ⟨rfl, by simp [wire, eraseRequest, hkind], .inl rfl, .inl rfl, rfl⟩

theorem handleAnswer_reaches (hinStep : InStep client)
    (hpending : client.requests.lookup id = some pending) {message : List (Text × Json)}
    (hanswer : IsAnswer engine client id message) (listeners : List Call) :
    Reaches engine clock client
      ((client.eraseRequest id).handleAnswer engine clock pending message listeners) := by
  simp only [handleAnswer]
  split
  next => exact .single (.answer hpending (abandon_takesAnswer client id pending))
  next herror =>
    have hresponded : Responded engine client id (field message "result" .null) :=
      ⟨message, hanswer, Bool.not_eq_true _ ▸ herror, rfl⟩
    split
    next hkind => exact initialized_reaches hinStep hpending hkind _
    next hkind => exact completion_reaches hinStep hpending hkind hresponded listeners
    next hkind => exact definition_reaches hpending hkind hresponded

end Answers

theorem handle_reaches {client : GzLspClient} (h : InStep client) {message : List (Text × Json)}
    (hreceived : .dictionary message ∈ client.received) (listeners : List Call) :
    Reaches engine clock client (client.handle engine clock message listeners) := by
  unfold handle
  split_ifs with hrequest hid
  · exact .single (.send _ _)
  · have hmethod : hasField message "method" = false := by
      rw [hid, Bool.and_true] at hrequest
      exact Bool.not_eq_true _ ▸ hrequest
    unfold handleResponse
    split
    · exact .refl
    next pending hpending =>
      exact handleAnswer_reaches h hpending ⟨hreceived, hid, hmethod, rfl⟩ listeners
  · exact .refl

theorem handleBody_reaches {client : GzLspClient} (h : InStep client) (body : ByteString)
    (listeners : List Call) :
    Reaches engine clock client (client.handleBody engine clock body listeners) := by
  unfold handleBody
  split
  next message _ =>
    have hreceive : InStep (client.receive (.dictionary message)) :=
      h.congr rfl rfl rfl rfl id rfl
    have hquiet : Quiet client (client.receive (.dictionary message)) :=
      ⟨rfl, rfl, rfl, rfl, fun _ ↦ List.mem_append_left _⟩
    refine hquiet.reaches.trans (handle_reaches hreceive ?_ listeners)
    exact List.mem_append_right _ (List.mem_singleton_self _)
  next => exact .refl

theorem parseMessages_reaches (pump : PumpInput) (left : ℕ) {client : GzLspClient}
    (h : InStep client) :
    Reaches engine clock client (parseMessages engine clock pump left client) := by
  induction left generalizing client with
  | zero => exact .refl
  | succ left ih =>
    simp only [parseMessages]
    split
    next => exact .refl
    next =>
      split
      next => exact .refl
      next => exact .single (.fail client _)
      next body rest _ =>
        have hinput : InStep (client.setInput rest) := h.congr rfl rfl rfl rfl id rfl
        have hquiet : Quiet client (client.setInput rest) := ⟨rfl, rfl, rfl, rfl, fun _ ↦ id⟩
        refine hquiet.reaches.trans ?_
        exact (handleBody_reaches hinput body _).trans (ih (handleBody_inStep hinput body _))

/-! ### Pumping -/

theorem read_reaches (client : GzLspClient) : Reaches engine clock client client.read :=
  Quiet.reaches ⟨rfl, rfl, rfl, rfl, fun _ ↦ id⟩

theorem setStderr_quiet (client : GzLspClient) (stderrOutput : ByteString) :
    Quiet client (client.setStderr stderrOutput) := ⟨rfl, rfl, rfl, rfl, fun _ ↦ id⟩

/-- The wire of a client some of whose requests are given up. -/
def wireWithout (client : GzLspClient) (expired : List Request) :
    Bool × ℤ × List (ℤ × Request) × Bool × List ClientMessage × List (List ClientMessage) :=
  (client.hasProcess, client.nextRequestId, client.requests,
    (client.completionInFlight && expired.all fun pending ↦ decide (pending.kind ≠ .completion)),
    client.sent, client.earlier)

theorem abandon_wire (client : GzLspClient) (pending : Request) (expired : List Request) :
    wireWithout (client.abandon pending) expired = wireWithout client (pending :: expired) := by
  unfold abandon
  split
  next hkind => simp [wireWithout, hkind]
  next hkind => simp [wireWithout, hkind]
  next hkind => simp [wireWithout, hkind]

/-- Giving up requests leaves all but the wire and what is pending. -/
def besides (client : GzLspClient) : (State × Bool × ℕ × ℕ × List Event) ×
    (Bool × Query × List CompletionOption) × (Bool × Query × Option Definition) × List Json :=
  (lifecycle client, completionCache client, definitionCache client, client.received)

theorem abandon_besides (client : GzLspClient) (pending : Request) :
    besides (client.abandon pending) = besides client := by
  unfold abandon
  split <;> rfl

theorem abandonAll (expired : List Request) (client : GzLspClient) :
    besides (expired.foldl abandon client) = besides client ∧
      wire (expired.foldl abandon client) = wireWithout client expired := by
  induction expired generalizing client with
  | nil => exact ⟨rfl, by simp [wire, wireWithout]⟩
  | cons pending expired ih =>
    obtain ⟨hbesides, hwire⟩ := ih (client.abandon pending)
    exact ⟨hbesides.trans (abandon_besides client pending),
      hwire.trans (abandon_wire client pending expired)⟩

theorem expireRequests_expires (client : GzLspClient) (now : ℕ) :
    Expires client (fun entry ↦ !isExpired now entry.2) (client.expireRequests now) := by
  obtain ⟨hbesides, hwire⟩ := abandonAll
    ((client.requests.filter fun entry ↦ isExpired now entry.2).map (·.2))
    { client with requests := client.requests.filter fun entry ↦ !isExpired now entry.2 }
  simp only [besides, Prod.mk.injEq] at hbesides
  obtain ⟨hlifecycle, hcompletion, hdefinition, hreceived⟩ := hbesides
  refine ⟨hlifecycle, hwire.trans ?_, hcompletion, hdefinition, hreceived⟩
  simp only [wireWithout, List.all_map, List.all_filter]
  rfl

theorem serve_reaches {client : GzLspClient} (h : InStep client) :
    Reaches engine clock client (client.serve clock) := by
  have hexpire := expireRequests_inStep (read_inStep h) (client.now clock)
  have hexpired : Reaches engine clock client (client.read.expireRequests (client.now clock)) :=
    (read_reaches client).tail (.expire (expireRequests_expires _ _))
  simp only [serve]
  split
  next hdue =>
    simp only [Bool.and_eq_true, Bool.not_eq_true', decide_eq_true_eq] at hdue
    exact hexpired.trans (sendCompletion_reaches ⟨hexpire, hdue.1.1.1⟩ hdue.1.2 _)
  next => exact hexpired

theorem afterParsing_reaches {client : GzLspClient} (h : InStep client) (pump : PumpInput) :
    Reaches engine clock client (client.afterParsing engine clock pump) := by
  have htrim : InStep client.trimStderr := setStderr_inStep h _
  have htrimmed : Reaches engine clock client client.trimStderr :=
    (setStderr_quiet client _).reaches
  have hread : Reaches engine clock client client.trimStderr.read :=
    htrimmed.trans (read_reaches _)
  simp only [afterParsing]
  split_ifs
  · exact .single (.fail client _)
  · exact htrimmed.tail (.fail _ _)
  · exact hread.tail (.fail _ _)
  · exact hread.trans (serve_reaches (read_inStep htrim))
  · exact htrimmed.trans (serve_reaches htrim)

theorem pump_reaches {client : GzLspClient} (h : InStep client) (pump : PumpInput) :
    Reaches engine clock client (client.pump engine clock pump) := by
  unfold GzLspClient.pump
  split_ifs
  · exact .refl
  · exact .refl
  · have hdrain : InStep (client.drain pump) := h.congr rfl rfl rfl rfl id rfl
    have hquiet : Quiet client (client.drain pump) := ⟨rfl, rfl, rfl, rfl, fun _ ↦ id⟩
    have hparsed : InStep (parseMessages engine clock pump PumpSchedule.maxMessagesPerPump
        (client.drain pump)) := parseMessages_inStep pump _ hdrain
    refine hquiet.reaches.trans (.trans ?_ (afterParsing_reaches hparsed pump))
    exact parseMessages_reaches pump _ hdrain

theorem shutdown_reaches (client : GzLspClient) (isProcessRunning : Bool) :
    Reaches engine clock client (client.shutdown isProcessRunning) := by
  by_cases hshutdown : client.shutdownStarted = true
  · rw [GzLspClient.shutdown, if_pos hshutdown]
  · exact .single (.shutdown (Bool.not_eq_true _ ▸ hshutdown) isProcessRunning)

/-! ### Runs -/

theorem step_reaches {client : GzLspClient} (h : InStep client) (op : Op) :
    Reaches engine clock client (step engine clock client op) := by
  cases op with
  | call call => exact call_reaches h call
  | pump pump => exact pump_reaches h pump
  | shutdown isProcessRunning => exact shutdown_reaches client isProcessRunning
  | beginLifecycleShutdown => exact Quiet.reaches ⟨rfl, rfl, rfl, rfl, fun _ ↦ id⟩

theorem property_of_reaches {property : GzLspClient → Prop}
    (hmove : ∀ client other, Move engine clock client other → property client → property other)
    {client other : GzLspClient} (h : Reaches engine clock client other)
    (hclient : property client) : property other := by
  induction h with
  | refl => exact hclient
  | tail _ hlast ih => exact hmove _ _ hlast ih

/-- What every move keeps holds after every run. -/
theorem run_of_moves (property : GzLspClient → Prop) (hinitial : property initial)
    (hmove : ∀ client other, Move engine clock client other → property client → property other)
    (ops : List Op) : property (run engine clock ops) := by
  have hboth : InStep (run engine clock ops) ∧ property (run engine clock ops) := by
    refine exec_invariant (step engine clock) (fun client ↦ InStep client ∧ property client) ?_
      ⟨initial_inStep, hinitial⟩ ops
    rintro client op ⟨hinStep, hclient⟩
    exact ⟨step_inStep client op hinStep,
      property_of_reaches hmove (step_reaches hinStep op) hclient⟩
  exact hboth.2

/-! ### The list of requests -/

/-- The requests have different ids, of those that were given out. -/
structure Numbered (client : GzLspClient) : Prop where
  below : ∀ entry ∈ client.requests, entry.1 < client.nextRequestId
  distinct : (client.requests.map Prod.fst).Nodup

theorem initial_numbered : Numbered initial where
  below _ hentry := absurd hentry List.not_mem_nil
  distinct := List.nodup_nil

theorem Numbered.mono {client other : GzLspClient} (h : Numbered client)
    (hrequests : other.requests.Sublist client.requests)
    (hnext : client.nextRequestId ≤ other.nextRequestId) : Numbered other where
  below entry hentry := (h.below entry (hrequests.subset hentry)).trans_le hnext
  distinct := h.distinct.sublist (hrequests.map Prod.fst)

theorem send_requests (client : GzLspClient) (message : ClientMessage) :
    (client.send message).requests = client.requests := by
  rw [send]
  split <;> rfl

theorem send_nextRequestId (client : GzLspClient) (message : ClientMessage) :
    (client.send message).nextRequestId = client.nextRequestId := by
  rw [send]
  split <;> rfl

theorem request_requests (client : GzLspClient) (message : ℤ → ClientMessage)
    (kind : RequestKind) (query : Query) :
    (client.request clock message kind query).requests =
      client.requests ++ [(client.nextRequestId, ⟨kind, query, client.now clock⟩)] :=
  send_requests _ _

theorem Numbered.request {client : GzLspClient} (h : Numbered client)
    (message : ℤ → ClientMessage) (kind : RequestKind) (query : Query) :
    Numbered (client.request clock message kind query) := by
  have hnext : (client.request clock message kind query).nextRequestId =
      client.nextRequestId + 1 := send_nextRequestId _ _
  constructor
  · intro entry hentry
    rw [request_requests, List.mem_append, List.mem_singleton] at hentry
    rw [hnext]
    obtain hbefore | rfl := hentry
    · have hbelow := h.below entry hbefore
      omega
    · omega
  · rw [request_requests, List.map_append, List.nodup_append]
    refine ⟨h.distinct, List.pairwise_singleton _ _, fun id hid last hlast ↦ ?_⟩
    obtain ⟨entry, hentry, rfl⟩ := List.mem_map.mp hid
    obtain rfl := List.mem_singleton.mp hlast
    exact (h.below entry hentry).ne

theorem Quiet.requests {client other : GzLspClient} (h : Quiet client other) :
    other.requests = client.requests := congrArg (·.2.2.1) h.wire

theorem TakesAnswer.requests {client other : GzLspClient} {id : ℤ} {pending : Request}
    (h : TakesAnswer engine client id pending other) :
    other.requests = client.requests.filter (·.1 ≠ id) := congrArg (·.2.2.1) h.wire

theorem Expires.requests {client other : GzLspClient} {waits : ℤ × Request → Bool}
    (h : Expires client waits other) : other.requests = client.requests.filter waits :=
  congrArg (·.2.2.1) h.wire

theorem shutdown_requests {client : GzLspClient} (hshutdown : client.shutdownStarted = false)
    (isProcessRunning : Bool) : (client.shutdown isProcessRunning).requests = [] := by
  rw [GzLspClient.shutdown, hshutdown]
  rfl

theorem Attempts.requests {client attempting : GzLspClient}
    (h : Attempts clock client attempting) : attempting.requests = client.requests := by
  cases h <;> rfl

theorem move_numbered {client other : GzLspClient} (hmove : Move engine clock client other)
    (h : Numbered client) : Numbered other := by
  have hnone {other : GzLspClient} (hrequests : other.requests = []) : Numbered other := by
    constructor
    · rw [hrequests]
      exact fun entry hentry ↦ absurd hentry List.not_mem_nil
    · rw [hrequests]
      exact List.nodup_nil
  cases hmove with
  | quiet hquiet =>
    have hnext : other.nextRequestId = client.nextRequestId := congrArg (·.2.1) hquiet.wire
    exact h.mono (hquiet.requests ▸ List.Sublist.refl _) hnext.ge
  | send message =>
    exact h.mono (send_requests client message ▸ List.Sublist.refl _)
      (send_nextRequestId client message).ge
  | definition hprocess query => exact h.request _ _ _
  | completion hprocess hflight query => exact (h.request _ _ _).mono (List.Sublist.refl _) le_rfl
  | launched hattempts hrequests =>
    have hempty : Numbered (GzLspClient.connect clock _) :=
      hnone (hattempts.requests.trans hrequests)
    exact hempty.request _ _ _
  | notLaunched hattempts message => exact hnone rfl
  | fail message => exact hnone rfl
  | ready hpending hkind =>
    refine h.mono ?_ (send_nextRequestId _ _).ge
    show (GzLspClient.send _ _).requests.Sublist client.requests
    rw [send_requests]
    exact List.filter_sublist
  | answer hpending htakes =>
    have hnext : other.nextRequestId = client.nextRequestId := congrArg (·.2.1) htakes.wire
    exact h.mono (htakes.requests ▸ List.filter_sublist) hnext.ge
  | expire hexpires =>
    have hnext : other.nextRequestId = client.nextRequestId := congrArg (·.2.1) hexpires.wire
    exact h.mono (hexpires.requests ▸ List.filter_sublist) hnext.ge
  | shutdown hshutdown isProcessRunning => exact hnone (shutdown_requests hshutdown _)

/-- Taking a request off the list leaves the others. -/
theorem perm_of_lookup {requests : List (ℤ × Request)} (hdistinct : (requests.map Prod.fst).Nodup)
    {id : ℤ} {pending : Request} (hpending : requests.lookup id = some pending) :
    requests.Perm ((id, pending) :: requests.filter (·.1 ≠ id)) := by
  induction requests with
  | nil => cases hpending
  | cons entry requests ih =>
    obtain ⟨other, request⟩ := entry
    rw [List.map_cons, List.nodup_cons] at hdistinct
    rw [List.lookup_cons] at hpending
    by_cases heq : id = other
    · subst heq
      simp only [BEq.rfl, Option.some.injEq] at hpending
      subst hpending
      have hothers : requests.filter (·.1 ≠ id) = requests := by
        refine List.filter_eq_self.mpr fun entry hentry ↦ decide_eq_true fun hsame ↦ ?_
        exact hdistinct.1 (List.mem_map.mpr ⟨entry, hentry, hsame⟩)
      rw [List.filter_cons_of_neg (by simp), hothers]
    · rw [beq_false_of_ne heq] at hpending
      rw [List.filter_cons_of_pos (by simp [Ne.symm heq])]
      exact ((ih hdistinct.2 hpending).cons _).trans (List.Perm.swap _ _ _)

/-- How many requests of the kind wait for an answer. -/
def outstanding (kind : RequestKind) (requests : List (ℤ × Request)) : ℕ :=
  requests.countP fun entry ↦ decide (entry.2.kind = kind)

theorem outstanding_of_lookup {requests : List (ℤ × Request)}
    (hdistinct : (requests.map Prod.fst).Nodup) {id : ℤ} {pending : Request}
    (hpending : requests.lookup id = some pending) (kind : RequestKind) :
    outstanding kind requests =
      outstanding kind (requests.filter (·.1 ≠ id)) + if pending.kind = kind then 1 else 0 := by
  rw [outstanding, (perm_of_lookup hdistinct hpending).countP_eq, List.countP_cons]
  simp only [outstanding, decide_eq_true_eq]

end Gzscript.Lsp.Moves
