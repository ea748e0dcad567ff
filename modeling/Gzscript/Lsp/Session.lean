import Gzscript.Library.Transition
import Gzscript.Lsp.Protocol
import Gzscript.Lsp.PumpSchedule
import Mathlib.Order.Monotone.Defs

/-!
# The session with the language server

`GzLspClient` starts the server with the first query, restarts it once after a failure, and is
driven by the editor's calls (`Call`) and by pumps (`PumpInput`). A query is recorded as pending
before the server is started. A pending definition is asked for at once or when the server has
answered the first request, a pending completion by a pump after `completionDebounceMsec`.

The clock is a sequence of readings, and the client counts how many it has made. What the server
writes, whether its process runs, and what the listeners of `completion_ready` call, is part of a
pump.
-/

set_option autoImplicit false
set_option relaxedAutoImplicit false

namespace Gzscript.Lsp.Session

open Library.Bytes Library.StreamDecoder Library.Transition Framing Protocol

/-! ### The client -/

/-- `INITIALIZE_TIMEOUT_MSEC`. -/
def initializeTimeoutMsec : ℕ := 5000

/-- `REQUEST_TIMEOUT_MSEC`. -/
def requestTimeoutMsec : ℕ := 5000

/-- `RESTART_BACKOFF_MSEC`. -/
def restartBackoffMsec : ℕ := 1000

/-- `COMPLETION_DEBOUNCE_MSEC`. -/
def completionDebounceMsec : ℕ := 75

/-- `STDERR_LIMIT`. -/
def stderrLimit : ℕ := 16 * 1024

inductive State
  | stopped
  | initializing
  | ready
  | failed
  deriving DecidableEq

inductive RequestKind
  | initializing
  | completion
  | definition
  deriving DecidableEq

structure Request where
  kind : RequestKind
  query : Query
  sentAtMsec : ℕ
  deriving DecidableEq

/-- An open document. The version counts the texts that the server was sent, as far as an `int32_t`
can. -/
structure Document where
  source : Text
  version : Option Int32
  deriving DecidableEq

/-- The successive readings of `get_ticks_msec`. -/
structure Clock where
  msec : ℕ → ℕ
  monotone : Monotone msec

/-- What happens to the server, as nobody in the client records it. -/
inductive Event
  /-- An attempt to launch it, and after a failure the time the attempt was decided on. -/
  | attempt (decidedMsec : Option ℕ)
  | ready
  | failure (atMsec : ℕ)
  deriving DecidableEq

structure GzLspClient where
  state : State
  shutdownStarted : Bool
  /-- `gz_lifecycle::is_shutting_down`. -/
  lifecycleShutdown : Bool
  /-- Whether there is a server: `pid` and its two pipes, which are set and dropped together. -/
  hasProcess : Bool
  input : ByteString
  stderrOutput : ByteString
  nextRequestId : ℤ
  startedAtMsec : ℕ
  failedAtMsec : ℕ
  completionDueMsec : ℕ
  consecutiveRestarts : ℕ
  requests : List (ℤ × Request)
  documents : Text → Option Document
  pendingCompletion : Query
  pendingDefinition : Query
  cachedCompletionQuery : Query
  cachedDefinitionQuery : Query
  cachedCompletionOptions : List CompletionOption
  cachedDefinition : Option Definition
  hasPendingCompletion : Bool
  completionInFlight : Bool
  hasPendingDefinition : Bool
  hasCachedCompletion : Bool
  hasCachedDefinition : Bool
  /-- How many readings of the clock were made. -/
  reads : ℕ
  printed : List Text
  /-- What the latest server was sent, and what the ones before it were sent. Nothing reads these,
  nor the two below. -/
  sent : List ClientMessage
  earlier : List (List ClientMessage)
  /-- The messages handled so far. -/
  received : List Json
  events : List Event

def initial : GzLspClient where
  state := .stopped
  shutdownStarted := false
  lifecycleShutdown := false
  hasProcess := false
  input := []
  stderrOutput := []
  nextRequestId := 1
  startedAtMsec := 0
  failedAtMsec := 0
  completionDueMsec := 0
  consecutiveRestarts := 0
  requests := []
  documents := fun _ ↦ none
  pendingCompletion := .empty
  pendingDefinition := .empty
  cachedCompletionQuery := .empty
  cachedDefinitionQuery := .empty
  cachedCompletionOptions := []
  cachedDefinition := none
  hasPendingCompletion := false
  completionInFlight := false
  hasPendingDefinition := false
  hasCachedCompletion := false
  hasCachedDefinition := false
  reads := 0
  printed := []
  sent := []
  earlier := []
  received := []
  events := []

/-- A call of the editor, and whether `execute_with_pipe` succeeds if the call launches a server. -/
inductive Call
  | complete (code path : Text) (launches : Bool)
  | lookup (code path : Text) (launches : Bool)
  deriving DecidableEq

/-- What a pump finds: the bytes in the two pipes, the microseconds that have passed when a number
of messages are parsed, what the listeners of a `completion_ready` call that is emitted then, and
whether the process runs. -/
structure PumpInput where
  stdout : ByteString
  stderr : ByteString
  elapsed : ℕ → ℕ
  listeners : ℕ → List Call
  isProcessRunning : Bool

variable (engine : Engine) (clock : Clock)

namespace GzLspClient

/-- The client after a reading of the clock. -/
def read (client : GzLspClient) : GzLspClient := { client with reads := client.reads + 1 }

/-- What the next reading of the clock is. -/
def now (client : GzLspClient) : ℕ := clock.msec client.reads

/-! ### Sending -/

/-- `send`. -/
def send (client : GzLspClient) (message : ClientMessage) : GzLspClient :=
  if client.hasProcess then { client with sent := client.sent ++ [message] } else client

/-- `request`, for the message made with the request's id. -/
def request (client : GzLspClient) (message : ℤ → ClientMessage) (kind : RequestKind)
    (query : Query) : GzLspClient :=
  let id := client.nextRequestId
  let pending : Request := { kind := kind, query := query, sentAtMsec := client.now clock }
  send
    { client with
      nextRequestId := id + 1
      reads := client.reads + 1
      requests := client.requests ++ [(id, pending)] }
    (message id)

/-- A document of which the server has this text. -/
def setDocument (client : GzLspClient) (uri : Text) (document : Document) : GzLspClient :=
  { client with documents := Function.update client.documents uri (some document) }

/-- `synchronize`. -/
def synchronize (client : GzLspClient) (query : Query) : GzLspClient :=
  match client.documents query.uri with
  | none =>
    let version := nextVersion (some 0)
    send (client.setDocument query.uri ⟨query.source, version⟩)
      (.didOpen query.uri version query.source)
  | some document =>
    if document.source = query.source then client
    else
      let version := nextVersion document.version
      send (client.setDocument query.uri ⟨query.source, version⟩)
        (.didChange query.uri version query.source)

def setInFlight (client : GzLspClient) (inFlight : Bool) : GzLspClient :=
  { client with completionInFlight := inFlight }

/-- `send_completion`. -/
def sendCompletion (client : GzLspClient) (query : Query) : GzLspClient :=
  ((client.synchronize query).request clock (.completion · query) .completion query).setInFlight
    true

/-- `send_definition`. -/
def sendDefinition (client : GzLspClient) (query : Query) : GzLspClient :=
  (client.synchronize query).request clock (.definition · query) .definition query

/-! ### Starting and failing -/

/-- `fail`. -/
def fail (client : GzLspClient) (message : Text) : GzLspClient :=
  { client with
    printed := if client.state = .failed then client.printed else client.printed ++ [message]
    state := .failed
    failedAtMsec := client.now clock
    reads := client.reads + 1
    hasPendingCompletion := false
    completionInFlight := false
    hasPendingDefinition := false
    requests := []
    documents := fun _ ↦ none
    hasProcess := false
    input := []
    events := client.events ++ [.failure (client.now clock)] }

/-- The client of a server that has just been launched. -/
def connect (client : GzLspClient) : GzLspClient :=
  { client with
    hasProcess := true
    state := .initializing
    startedAtMsec := client.now clock
    reads := client.reads + 1
    sent := []
    earlier := client.sent :: client.earlier }

/-- The part of `start` from the launch on. -/
def launch (client : GzLspClient) (launches : Bool) : Bool × GzLspClient :=
  if launches then
    (true, (client.connect clock).request clock .initializeRequest .initializing .empty)
  else
    (false, client.fail clock
      "Unable to start ZLS. Configure gzscript/language_server/zls_path.".toList)

/-- The client that attempts to launch a server. -/
def attempt (client : GzLspClient) (decidedMsec : Option ℕ) : GzLspClient :=
  { client with events := client.events ++ [.attempt decidedMsec] }

/-- The client that gives a failed server another try. -/
def restart (client : GzLspClient) : GzLspClient :=
  { client with
    reads := client.reads + 1
    consecutiveRestarts := client.consecutiveRestarts + 1
    state := .stopped }

/-- `start`. -/
def start (client : GzLspClient) (launches : Bool) : Bool × GzLspClient :=
  if client.shutdownStarted || client.lifecycleShutdown then (false, client)
  else
    match client.state with
    | .ready => (true, client)
    | .initializing => (true, client)
    | .failed =>
      if 1 ≤ client.consecutiveRestarts then (false, client)
      else if client.now clock - client.failedAtMsec < restartBackoffMsec then (false, client.read)
      else (client.restart.attempt (some (client.now clock))).launch clock launches
    | .stopped => (client.attempt none).launch clock launches

/-! ### The editor's calls -/

/-- `complete`, once the query is new: it is recorded, and due after a while. -/
def recordCompletion (client : GzLspClient) (query : Query) : GzLspClient :=
  { client with
    pendingCompletion := query
    hasPendingCompletion := true
    completionDueMsec := client.now clock + completionDebounceMsec
    reads := client.reads + 1 }

/-- Whether `complete` records a query: it is neither cached nor pending. -/
def isNewCompletion (client : GzLspClient) (query : Query) : Bool :=
  !(client.hasCachedCompletion && sameQuery query client.cachedCompletionQuery) &&
    !(client.hasPendingCompletion && sameQuery query client.pendingCompletion)

/-- `complete`. -/
def complete (client : GzLspClient) (code path : Text) (launches : Bool) :
    List CompletionOption × GzLspClient :=
  if path.isEmpty then ([], client)
  else
    let query := makeQuery engine code path
    if client.isNewCompletion query then
      ([], ((client.recordCompletion clock query).start clock launches).2)
    else if client.hasCachedCompletion && sameQuery query client.cachedCompletionQuery then
      (client.cachedCompletionOptions, client)
    else ([], client)

def recordDefinition (client : GzLspClient) (query : Query) : GzLspClient :=
  { client with
    pendingDefinition := query
    hasPendingDefinition := true }

/-- Whether `lookup` records a query: it is neither cached nor pending. -/
def isNewDefinition (client : GzLspClient) (query : Query) : Bool :=
  !(client.hasCachedDefinition && sameQuery query client.cachedDefinitionQuery) &&
    !(client.hasPendingDefinition && sameQuery query client.pendingDefinition)

/-- The end of `lookup`: the definition is asked for if the server is ready. -/
def afterStart (started : Bool × GzLspClient) (query : Query) : GzLspClient :=
  if started.1 && started.2.state = .ready then started.2.sendDefinition clock query else started.2

/-- `lookup`. -/
def lookup (client : GzLspClient) (code path : Text) (launches : Bool) :
    Option Definition × GzLspClient :=
  if path.isEmpty then (none, client)
  else
    let query := makeQuery engine code path
    if client.isNewDefinition query then
      (none, afterStart clock ((client.recordDefinition query).start clock launches) query)
    else if client.hasCachedDefinition && sameQuery query client.cachedDefinitionQuery then
      (client.cachedDefinition, client)
    else (none, client)

/-- A call of the editor. -/
def call (client : GzLspClient) : Call → GzLspClient
  | .complete code path launches => (client.complete engine clock code path launches).2
  | .lookup code path launches => (client.lookup engine clock code path launches).2

/-! ### The server's messages -/

/-- A request that the server did not answer, or answered with an error: its query is no longer
pending. -/
def abandon (client : GzLspClient) (pending : Request) : GzLspClient :=
  match pending.kind with
  | .initializing => client
  | .completion =>
    { client with
      completionInFlight := false
      hasPendingCompletion :=
        client.hasPendingCompletion && !sameQuery pending.query client.pendingCompletion }
  | .definition =>
    { client with
      hasPendingDefinition :=
        client.hasPendingDefinition && !sameQuery pending.query client.pendingDefinition }

/-- The version that an answer to the first request names. -/
def serverVersion (result : Json) : Text :=
  match result with
  | .dictionary initializeResult =>
    let server := (field initializeResult "serverInfo" (.dictionary [])).toDictionary
    (field server "version" (.string [])).toText engine
  | _ => []

def isIncompatible (version : Text) : Bool :=
  !version.isEmpty && !"0.16.".toList.isPrefixOf version

def becomeReady (client : GzLspClient) : GzLspClient :=
  { client with
    state := .ready
    consecutiveRestarts := 0
    events := client.events ++ [.ready] }

/-- `handle_response`, for the answer to the first request. -/
def handleInitialized (client : GzLspClient) (result : Json) : GzLspClient :=
  let version := serverVersion engine result
  if isIncompatible version then
    client.fail clock ("ZLS ".toList ++ version ++
      " is incompatible with gzscript's Zig 0.16 toolchain".toList)
  else
    let client := (client.send .initialized).becomeReady
    if client.hasPendingDefinition then client.sendDefinition clock client.pendingDefinition
    else client

def cacheCompletion (client : GzLspClient) (query : Query) (result : Json) : GzLspClient :=
  { client with
    cachedCompletionQuery := query
    cachedCompletionOptions := completionOptions engine result
    hasCachedCompletion := true
    hasPendingCompletion := false }

/-- `handle_response`, for the answer to a completion. The listeners of `completion_ready` are
called at its end. -/
def handleCompletion (client : GzLspClient) (query : Query) (result : Json)
    (listeners : List Call) : GzLspClient :=
  let client := client.setInFlight false
  if client.hasPendingCompletion && sameQuery query client.pendingCompletion then
    listeners.foldl (call engine clock) (client.cacheCompletion engine query result)
  else client

/-- `handle_response`, for the answer to a definition. -/
def handleDefinition (client : GzLspClient) (query : Query) (result : Json) : GzLspClient :=
  if client.hasPendingDefinition && sameQuery query client.pendingDefinition then
    { client with
      cachedDefinitionQuery := query
      cachedDefinition := definitionResult engine result
      hasCachedDefinition := true
      hasPendingDefinition := false }
  else client

/-- `handle_response`, for the answer to a request that has been taken off the list. -/
def handleAnswer (client : GzLspClient) (pending : Request) (message : List (Text × Json))
    (listeners : List Call) : GzLspClient :=
  if hasField message "error" then client.abandon pending
  else
    let result := field message "result" .null
    match pending.kind with
    | .initializing => client.handleInitialized engine clock result
    | .completion => client.handleCompletion engine clock pending.query result listeners
    | .definition => client.handleDefinition engine pending.query result

def eraseRequest (client : GzLspClient) (id : ℤ) : GzLspClient :=
  { client with requests := client.requests.filter (·.1 ≠ id) }

/-- `handle_response`. -/
def handleResponse (client : GzLspClient) (id : ℤ) (message : List (Text × Json))
    (listeners : List Call) : GzLspClient :=
  match client.requests.lookup id with
  | none => client
  | some pending =>
    (client.eraseRequest id).handleAnswer engine clock pending message listeners

/-- `handle_server_request`. -/
def handleServerRequest (client : GzLspClient) (message : List (Text × Json)) : GzLspClient :=
  let method := (field message "method" (.string [])).toText engine
  let params := (field message "params" (.dictionary [])).toDictionary
  let items := (field params "items" (.array [])).toArray
  client.send (.response (field message "id" .null)
    (if method = "workspace/configuration".toList then some items.length else none))

/-- `handle`. -/
def handle (client : GzLspClient) (message : List (Text × Json)) (listeners : List Call) :
    GzLspClient :=
  if hasField message "method" && hasField message "id" then
    client.handleServerRequest engine message
  else if hasField message "id" then
    client.handleResponse engine clock ((field message "id" .null).toInteger engine) message
      listeners
  else client

def receive (client : GzLspClient) (message : Json) : GzLspClient :=
  { client with received := client.received ++ [message] }

/-- A body, which is handled if it is a dictionary. -/
def handleBody (client : GzLspClient) (body : ByteString) (listeners : List Call) : GzLspClient :=
  match engine.parseString (engine.utf8 body) with
  | .dictionary message =>
    (client.receive (.dictionary message)).handle engine clock message listeners
  | _ => client

def setInput (client : GzLspClient) (input : ByteString) : GzLspClient :=
  { client with input := input }

/-- `parse_messages`, with `left` messages to go. -/
def parseMessages (pump : PumpInput) : ℕ → GzLspClient → GzLspClient
  | 0, client => client
  | left + 1, client =>
    let parsed := PumpSchedule.maxMessagesPerPump - (left + 1)
    if PumpSchedule.messageBudgetUsec ≤ pump.elapsed parsed then client
    else
      match parseMessage client.input with
      | .wait => client
      | .fail message => client.fail clock message.toList
      | .deliver body rest =>
        parseMessages pump left
          ((client.setInput rest).handleBody engine clock body (pump.listeners parsed))

/-! ### Pumping -/

/-- `drain`, of both pipes. -/
def drain (client : GzLspClient) (pump : PumpInput) : GzLspClient :=
  { client with
    input := client.input ++ pump.stdout.take PumpSchedule.pipeReadLimit
    stderrOutput := client.stderrOutput ++ pump.stderr.take PumpSchedule.pipeReadLimit }

def setStderr (client : GzLspClient) (stderrOutput : ByteString) : GzLspClient :=
  { client with stderrOutput := stderrOutput }

/-- Only the end of the error output is kept. -/
def trimStderr (client : GzLspClient) : GzLspClient :=
  client.setStderr (client.stderrOutput.drop (client.stderrOutput.length - stderrLimit))

/-- The message of a server that has exited. -/
def exitMessage (client : GzLspClient) : Text :=
  "ZLS exited unexpectedly".toList ++
    if client.stderrOutput.isEmpty then [] else '\n' :: engine.utf8 client.stderrOutput

/-- Whether a request has waited too long. -/
def isExpired (now : ℕ) (pending : Request) : Bool :=
  pending.kind ≠ .initializing && requestTimeoutMsec ≤ now - pending.sentAtMsec

/-- The loop of `pump` over the requests. -/
def expireRequests (client : GzLspClient) (now : ℕ) : GzLspClient :=
  ((client.requests.filter fun entry ↦ isExpired now entry.2).map (·.2)).foldl abandon
    { client with requests := client.requests.filter fun entry ↦ !isExpired now entry.2 }

/-- The end of `pump`: the requests that have waited too long are given up, and a completion is
asked for when it is due. -/
def serve (client : GzLspClient) : GzLspClient :=
  let now := client.now clock
  let client := client.read.expireRequests now
  if client.state = .ready && client.hasPendingCompletion && !client.completionInFlight &&
      client.completionDueMsec ≤ now then
    client.sendCompletion clock client.pendingCompletion
  else client

/-- The part of `pump` after the messages are parsed. -/
def afterParsing (client : GzLspClient) (pump : PumpInput) : GzLspClient :=
  if PumpSchedule.inputLimit < client.input.length then
    client.fail clock PumpSchedule.exceededInput.toList
  else
    let client := client.trimStderr
    if !pump.isProcessRunning then client.fail clock (client.exitMessage engine)
    else if client.state = .initializing then
      if initializeTimeoutMsec ≤ client.now clock - client.startedAtMsec then
        client.read.fail clock "ZLS initialization timed out".toList
      else client.read.serve clock
    else client.serve clock

/-- `pump`. -/
def pump (client : GzLspClient) (pump : PumpInput) : GzLspClient :=
  if client.shutdownStarted then client
  else if client.state ≠ .initializing && client.state ≠ .ready then client
  else
    (parseMessages engine clock pump PumpSchedule.maxMessagesPerPump
      (client.drain pump)).afterParsing
      engine clock pump

/-- `shutdown`, of a server that may be running. -/
def shutdown (client : GzLspClient) (isProcessRunning : Bool) : GzLspClient :=
  if client.shutdownStarted then client
  else
    let client := if isProcessRunning then client.send .exit else client
    { client with
      shutdownStarted := true
      hasPendingCompletion := false
      completionInFlight := false
      hasPendingDefinition := false
      requests := []
      documents := fun _ ↦ none
      state := .stopped
      hasProcess := false
      input := [] }

def beginLifecycleShutdown (client : GzLspClient) : GzLspClient :=
  { client with lifecycleShutdown := true }

end GzLspClient

/-! ### Runs -/

inductive Op
  | call (call : Call)
  | pump (pump : PumpInput)
  | shutdown (isProcessRunning : Bool)
  /-- `gz_lifecycle::begin_shutdown`. -/
  | beginLifecycleShutdown

def step (client : GzLspClient) : Op → GzLspClient
  | .call call => client.call engine clock call
  | .pump pump => client.pump engine clock pump
  | .shutdown isProcessRunning => client.shutdown isProcessRunning
  | .beginLifecycleShutdown => client.beginLifecycleShutdown

/-- The client after some operations. -/
def run (ops : List Op) : GzLspClient := exec (step engine clock) initial ops

end Gzscript.Lsp.Session
