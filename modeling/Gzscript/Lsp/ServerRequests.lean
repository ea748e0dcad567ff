import Gzscript.Lsp.SessionFraming
import Mathlib.Data.List.Induction

/-!
# The requests of the language server

The server asks for things too: a message with a method and an id is a request, which
`handle_server_request` answers at once (`answerTo`). Which requests there are follows from the
bytes that were drained from a server: `watch` looks at a session from the pipe, where each pump
frames as many bodies as its limits leave room for (`Intake`), and takes no notice of what the
client does with them.

Every request among the bodies is answered exactly once, in their order, to the server that made it
and before the pump returns, and nothing else is a response (`run_requestsAnswered`). Only behind a
message by which a server turns out to be incompatible, nothing is answered any more.
-/

set_option autoImplicit false
set_option relaxedAutoImplicit false

namespace Gzscript.Lsp.ServerRequests

open Library.Bytes Library.FramedStream Library.StreamDecoder Library.Transition
open Framing Protocol Session Session.GzLspClient Synchronisation PendingQueries SessionFraming

variable (engine : Engine)

/-! ### Requests and responses -/

/-- The configurations that a request asks for, or none if it asks for something else. -/
def configurationsFor (message : List (Text × Json)) : Option ℕ :=
  let params := (field message "params" (.dictionary [])).toDictionary
  if (field message "method" (.string [])).toText engine = "workspace/configuration".toList then
    some (field params "items" (.array [])).toArray.length
  else none

/-- The response that a message of the server is owed, if it is a request. -/
def answerTo : Json → Option ClientMessage
  | .dictionary message =>
    if hasField message "method" && hasField message "id" then
      some (.response (field message "id" .null) (configurationsFor engine message))
    else none
  | _ => none

/-- A body is taken as a message if it is a dictionary. -/
def messagesOf (body : ByteString) : List Json :=
  match engine.parseString (engine.utf8 body) with
  | .dictionary message => [.dictionary message]
  | _ => []

def isResponse : ClientMessage → Bool
  | .response _ _ => true
  | _ => false

def responses (log : List ClientMessage) : List ClientMessage := log.filter isResponse

/-- The responses that the requests among some bodies are owed. -/
def owed (bodies : List ByteString) : List ClientMessage :=
  (bodies.flatMap (messagesOf engine)).filterMap (answerTo engine)

/-- The answer to a request of the client that names an incompatible version of the server. -/
def Refuses (body : ByteString) : Prop :=
  ∃ message, engine.parseString (engine.utf8 body) = .dictionary message ∧
    hasField message "id" = true ∧ hasField message "method" = false ∧
    hasField message "error" = false ∧
    isIncompatible (serverVersion engine (field message "result" .null)) = true

/-- All of some bodies, or those up to one that shows the server to be incompatible. -/
def AllOrRefused (bodies taken : List ByteString) : Prop :=
  taken <+: bodies ∧
    (taken = bodies ∨ ∃ before body, taken = before ++ [body] ∧ Refuses engine body)

/-! ### A session seen from the pipe -/

/-- What a server has written, as far as it was drained: the bytes at the end that are not framed
yet, and the bodies before them. -/
structure Intake where
  left : ByteString
  bodies : List ByteString

def Intake.empty : Intake := ⟨[], []⟩

/-- A pump frames bodies while its limits leave room. -/
def Intake.pump (intake : Intake) (pump : PumpInput) : Intake :=
  let framed := drainUpTo messageDecoder
    (PumpSchedule.roundsFrom pump.elapsed PumpSchedule.maxMessagesPerPump)
    (intake.left ++ pump.stdout.take PumpSchedule.pipeReadLimit)
  ⟨framed.rest, intake.bodies ++ framed.items⟩

/-- The client, what was drained from its server, and from the servers before it. -/
structure Watched where
  client : GzLspClient
  present : Intake
  earlier : List Intake

def Watched.initial : Watched := ⟨Session.initial, .empty, []⟩

/-- Whether a pump drains the pipes. -/
def drains (client : GzLspClient) : Bool :=
  !client.shutdownStarted && (client.state = .initializing || client.state = .ready)

/-- An operation, and what it drains. Where there is a process and was none, it is a new server. -/
def watch (clock : Clock) (watched : Watched) (op : Op) : Watched :=
  let next := step engine clock watched.client op
  match op with
  | .pump pump =>
    { watched with
      client := next
      present := if drains watched.client then watched.present.pump pump else watched.present }
  | _ =>
    if !watched.client.hasProcess && next.hasProcess then
      ⟨next, .empty, watched.present :: watched.earlier⟩
    else { watched with client := next }

/-- A session that is watched. -/
def watched (clock : Clock) (ops : List Op) : Watched :=
  exec (watch engine clock) .initial ops

/-- The responses to a server are those that the requests among its bodies are owed. -/
def Answered (intake : Intake) (sent : List ClientMessage) : Prop :=
  ∃ taken, AllOrRefused engine intake.bodies taken ∧ responses sent = owed engine taken

/-- The requests of all servers are answered. A session that is live has taken all bodies of its
server. -/
structure RequestsAnswered (watched : Watched) : Prop where
  present : Answered engine watched.present watched.client.sent
  earlier : List.Forall₂ (Answered engine) watched.earlier watched.client.earlier
  live : IsLive watched.client → watched.client.input = watched.present.left ∧
    responses watched.client.sent = owed engine watched.present.bodies

/-- The client has taken some bodies from its server, and the responses among what it has sent to
the same server are those that the requests among them are owed. -/
structure Exchanges (bodies : List ByteString) (client other : GzLspClient) : Prop where
  earlier : other.earlier = client.earlier
  sent : ∃ more, other.sent = client.sent ++ more ∧ responses more = owed engine bodies

variable {engine} {clock : Clock}

@[simp] theorem responses_append (first second : List ClientMessage) :
    responses (first ++ second) = responses first ++ responses second :=
  List.filter_append _ _

@[simp] theorem owed_append (first second : List ByteString) :
    owed engine (first ++ second) = owed engine first ++ owed engine second := by
  simp only [owed, List.flatMap_append, List.filterMap_append]

theorem owed_singleton (body : ByteString) :
    owed engine [body] = (messagesOf engine body).filterMap (answerTo engine) := by
  rw [owed, List.flatMap_singleton]

theorem AllOrRefused.all (bodies : List ByteString) : AllOrRefused engine bodies bodies :=
  ⟨List.prefix_rfl, .inl rfl⟩

/-- More bodies, of which all are taken or those up to a refusal. -/
theorem AllOrRefused.append {more taken : List ByteString} (h : AllOrRefused engine more taken)
    (bodies : List ByteString) : AllOrRefused engine (bodies ++ more) (bodies ++ taken) := by
  obtain ⟨hfront, hall⟩ := h
  refine ⟨(List.prefix_append_right_inj bodies).mpr hfront, ?_⟩
  obtain rfl | ⟨before, body, rfl, hrefuses⟩ := hall
  · exact .inl rfl
  · exact .inr ⟨bodies ++ before, body, (List.append_assoc ..).symm, hrefuses⟩

theorem Exchanges.refl (client : GzLspClient) : Exchanges engine [] client client where
  earlier := rfl
  sent := ⟨[], (List.append_nil _).symm, rfl⟩

theorem Exchanges.trans {first second : List ByteString} {client middle other : GzLspClient}
    (h : Exchanges engine first client middle) (h' : Exchanges engine second middle other) :
    Exchanges engine (first ++ second) client other where
  earlier := h'.earlier.trans h.earlier
  sent := by
    obtain ⟨more, hsent, hresponses⟩ := h.sent
    obtain ⟨rest, hrest, hresponses'⟩ := h'.sent
    refine ⟨more ++ rest, ?_, ?_⟩
    · rw [hrest, hsent, List.append_assoc]
    · rw [responses_append, hresponses, hresponses', owed_append]

/-- The same with an exchange before it in which no body is taken. -/
theorem Exchanges.after {bodies : List ByteString} {client middle other : GzLspClient}
    (h' : Exchanges engine bodies middle other) (h : Exchanges engine [] client middle) :
    Exchanges engine bodies client other := h.trans h'

/-- The same with an exchange behind it in which no body is taken. -/
theorem Exchanges.before {bodies : List ByteString} {client middle other : GzLspClient}
    (h : Exchanges engine bodies client middle) (h' : Exchanges engine [] middle other) :
    Exchanges engine bodies client other := by
  have hboth := h.trans h'
  rwa [List.append_nil] at hboth

/-- Nothing is sent. -/
theorem Exchanges.of_eq {client other : GzLspClient} (hearlier : other.earlier = client.earlier)
    (hsent : other.sent = client.sent) : Exchanges engine [] client other where
  earlier := hearlier
  sent := ⟨[], by rw [hsent, List.append_nil], rfl⟩

theorem Exchanges.responses_sent {bodies : List ByteString} {client other : GzLspClient}
    (h : Exchanges engine bodies client other) :
    responses other.sent = responses client.sent ++ owed engine bodies := by
  obtain ⟨more, hsent, hresponses⟩ := h.sent
  rw [hsent, responses_append, hresponses]

/-! ### What sends no response -/

theorem send_exchanges {message : ClientMessage} (hmessage : isResponse message = false)
    (client : GzLspClient) : Exchanges engine [] client (client.send message) := by
  rw [send]
  split
  · refine ⟨rfl, [message], rfl, ?_⟩
    exact List.filter_cons_of_neg (by rw [hmessage]; exact Bool.false_ne_true)
  · exact .refl client

theorem request_exchanges {message : ℤ → ClientMessage}
    (hmessage : ∀ id, isResponse (message id) = false) (client : GzLspClient) (kind : RequestKind)
    (query : Query) : Exchanges engine [] client (client.request clock message kind query) := by
  have hrecord : Exchanges engine [] client
      { client with
        nextRequestId := client.nextRequestId + 1
        reads := client.reads + 1
        requests := client.requests ++
          [(client.nextRequestId, ⟨kind, query, client.now clock⟩)] } := .of_eq rfl rfl
  exact hrecord.trans (send_exchanges (hmessage _) _)

theorem synchronize_exchanges (client : GzLspClient) (query : Query) :
    Exchanges engine [] client (client.synchronize query) := by
  have hset (document : Document) :
      Exchanges engine [] client (client.setDocument query.uri document) := .of_eq rfl rfl
  unfold synchronize
  split
  · exact (hset _).trans (send_exchanges rfl _)
  · split
    · exact .refl client
    · exact (hset _).trans (send_exchanges rfl _)

theorem sendDefinition_exchanges (client : GzLspClient) (query : Query) :
    Exchanges engine [] client (client.sendDefinition clock query) :=
  (synchronize_exchanges client query).trans (request_exchanges (fun _ ↦ rfl) _ _ _)

theorem sendCompletion_exchanges (client : GzLspClient) (query : Query) :
    Exchanges engine [] client (client.sendCompletion clock query) := by
  have hrequest : Exchanges engine [] client
      ((client.synchronize query).request clock (.completion · query) .completion query) :=
    (synchronize_exchanges client query).trans (request_exchanges (fun _ ↦ rfl) _ _ _)
  have hflight (other : GzLspClient) : Exchanges engine [] other (other.setInFlight true) :=
    .of_eq rfl rfl
  exact hrequest.trans (hflight _)

theorem afterStart_exchanges (started : Bool × GzLspClient) (query : Query) :
    Exchanges engine [] started.2 (afterStart clock started query) := by
  unfold afterStart
  split
  · exact sendDefinition_exchanges _ _
  · exact .refl _

theorem fail_exchanges (client : GzLspClient) (message : Text) :
    Exchanges engine [] client (client.fail clock message) := .of_eq rfl rfl

/-! ### The editor's calls -/

/-- A live client sends no response because of a call. -/
theorem call_exchanges {client : GzLspClient} (h : IsLive client) (call : Call) :
    Exchanges engine [] client (client.call engine clock call) := by
  cases call with
  | complete code path launches =>
    have hrecord : IsLive (client.recordCompletion clock (makeQuery engine code path)) := h
    simp only [GzLspClient.call, complete]
    split_ifs
    · exact .refl client
    · rw [start_of_live hrecord]
      exact .of_eq rfl rfl
    · exact .refl client
    · exact .refl client
  | lookup code path launches =>
    have hrecord : IsLive (client.recordDefinition (makeQuery engine code path)) := h
    simp only [GzLspClient.call, lookup]
    split_ifs
    · exact .refl client
    · refine (afterStart_exchanges _ _).after ?_
      rw [start_of_live hrecord]
      exact .of_eq rfl rfl
    · exact .refl client
    · exact .refl client

theorem calls_exchanges {client : GzLspClient} (h : IsLive client) (calls : List Call) :
    Exchanges engine [] client (calls.foldl (GzLspClient.call engine clock) client) := by
  induction calls generalizing client with
  | nil => exact .refl client
  | cons call calls ih =>
    have hnext : IsLive (client.call engine clock call) :=
      (isLive_congr (call_untouched_of_live h call).state).mpr h
    exact (call_exchanges h call).trans (ih hnext)

/-- There is no server, and nothing is left of what one has written. -/
structure Idle (client : GzLspClient) : Prop where
  state : ¬ IsLive client
  hasProcess : client.hasProcess = false
  input : client.input = []

/-- There is still no server, or there is a new one, which has been sent no response yet. -/
structure Relaunched (client other : GzLspClient) : Prop where
  state : other.state ≠ .ready
  input : other.input = []
  server : (other.hasProcess = false ∧ other.earlier = client.earlier ∧ other.sent = client.sent) ∨
    (other.hasProcess = true ∧ other.earlier = client.sent :: client.earlier ∧
      responses other.sent = [])

theorem Idle.relaunched {client : GzLspClient} (h : Idle client) : Relaunched client client where
  state hready := h.state (.inr hready)
  input := h.input
  server := .inl ⟨h.hasProcess, rfl, rfl⟩

theorem Relaunched.of_eq {client middle other : GzLspClient} (h : Relaunched middle other)
    (hearlier : middle.earlier = client.earlier) (hsent : middle.sent = client.sent) :
    Relaunched client other where
  state := h.state
  input := h.input
  server := by
    rw [← hearlier, ← hsent]
    exact h.server

/-- A server that is launched is sent the first request. -/
theorem launch_relaunched {client : GzLspClient} (h : Idle client) (launches : Bool) :
    Relaunched client (client.launch clock launches).2 := by
  unfold launch
  split
  · exact ⟨State.noConfusion, h.input, .inr ⟨rfl, rfl, rfl⟩⟩
  · exact ⟨State.noConfusion, rfl, .inl ⟨rfl, rfl, rfl⟩⟩

theorem start_relaunched {client : GzLspClient} (h : Idle client) (launches : Bool) :
    Relaunched client (client.start clock launches).2 := by
  have hattempt : Idle (client.attempt none) := ⟨h.state, h.hasProcess, h.input⟩
  unfold start
  split
  next => exact h.relaunched
  next =>
    split
    next hstate => exact absurd (.inr hstate) h.state
    next hstate => exact absurd (.inl hstate) h.state
    next hstate =>
      split_ifs
      · exact h.relaunched
      · exact ⟨fun hready ↦ h.state (.inr hready), h.input, .inl ⟨h.hasProcess, rfl, rfl⟩⟩
      · have hrestart : Idle (client.restart.attempt (some (client.now clock))) :=
          ⟨by simp [IsLive, restart, attempt], h.hasProcess, h.input⟩
        exact (launch_relaunched hrestart launches).of_eq rfl rfl
    next => exact (launch_relaunched hattempt launches).of_eq rfl rfl

/-- A call may launch a server when there is none. -/
theorem call_relaunched {client : GzLspClient} (h : Idle client) (call : Call) :
    Relaunched client (client.call engine clock call) := by
  cases call with
  | complete code path launches =>
    have hrecord : Idle (client.recordCompletion clock (makeQuery engine code path)) :=
      ⟨h.state, h.hasProcess, h.input⟩
    have hstart : Relaunched client
        ((client.recordCompletion clock (makeQuery engine code path)).start clock launches).2 :=
      (start_relaunched hrecord launches).of_eq rfl rfl
    simp only [GzLspClient.call, complete]
    split_ifs
    · exact h.relaunched
    · exact hstart
    · exact h.relaunched
    · exact h.relaunched
  | lookup code path launches =>
    have hrecord : Idle (client.recordDefinition (makeQuery engine code path)) :=
      ⟨h.state, h.hasProcess, h.input⟩
    have hstart : Relaunched client
        ((client.recordDefinition (makeQuery engine code path)).start clock launches).2 :=
      (start_relaunched hrecord launches).of_eq rfl rfl
    simp only [GzLspClient.call, lookup]
    split_ifs
    · exact h.relaunched
    · rw [afterStart, if_neg]
      · exact hstart
      · simp [hstart.state]
    · exact h.relaunched
    · exact h.relaunched

/-! ### The server's messages -/

theorem abandon_exchanges (client : GzLspClient) (pending : Request) :
    Exchanges engine [] client (client.abandon pending) := by
  unfold abandon
  split
  · exact .refl client
  · exact .of_eq rfl rfl
  · exact .of_eq rfl rfl

theorem handleInitialized_exchanges (client : GzLspClient) (result : Json) :
    Exchanges engine [] client (client.handleInitialized engine clock result) := by
  have hready (other : GzLspClient) : Exchanges engine [] other other.becomeReady :=
    .of_eq rfl rfl
  have hinitialized : Exchanges engine [] client (client.send .initialized).becomeReady :=
    (send_exchanges rfl client).trans (hready _)
  simp only [handleInitialized]
  split_ifs
  · exact fail_exchanges client _
  · exact hinitialized.trans (sendDefinition_exchanges _ _)
  · exact hinitialized

theorem handleCompletion_exchanges {client : GzLspClient} (h : IsLive client) (query : Query)
    (result : Json) (listeners : List Call) :
    Exchanges engine [] client (client.handleCompletion engine clock query result listeners) := by
  have hflight : Exchanges engine [] client (client.setInFlight false) := .of_eq rfl rfl
  simp only [handleCompletion]
  split_ifs
  · have hcache : Exchanges engine [] client
        ((client.setInFlight false).cacheCompletion engine query result) := .of_eq rfl rfl
    have hlive : IsLive ((client.setInFlight false).cacheCompletion engine query result) := h
    exact hcache.trans (calls_exchanges hlive listeners)
  · exact hflight

theorem handleDefinition_exchanges (client : GzLspClient) (query : Query) (result : Json) :
    Exchanges engine [] client (client.handleDefinition engine query result) := by
  unfold handleDefinition
  split_ifs
  · exact .of_eq rfl rfl
  · exact .refl client

theorem handleResponse_exchanges {client : GzLspClient} (h : IsLive client) (id : ℤ)
    (message : List (Text × Json)) (listeners : List Call) :
    Exchanges engine [] client (client.handleResponse engine clock id message listeners) := by
  unfold handleResponse
  split
  next => exact .refl client
  next pending _ =>
    have herase : Exchanges engine [] client (client.eraseRequest id) := .of_eq rfl rfl
    have hlive : IsLive (client.eraseRequest id) := h
    refine Exchanges.after ?_ herase
    simp only [handleAnswer]
    split
    · exact abandon_exchanges _ pending
    · split
      · exact handleInitialized_exchanges _ _
      · exact handleCompletion_exchanges hlive _ _ listeners
      · exact handleDefinition_exchanges _ _ _

/-- A request is answered by the client of the server that made it. -/
theorem handleServerRequest_exchanges {client : GzLspClient} (hprocess : client.hasProcess = true)
    {body : ByteString} {message : List (Text × Json)}
    (hmessage : messagesOf engine body = [.dictionary message])
    (hrequest : (hasField message "method" && hasField message "id") = true) :
    Exchanges engine [body] client
      ((client.receive (.dictionary message)).handleServerRequest engine message) := by
  have hreceive : (client.receive (.dictionary message)).hasProcess = true := hprocess
  simp only [handleServerRequest, send]
  rw [if_pos hreceive]
  refine ⟨rfl, _, rfl, ?_⟩
  rw [owed_singleton, hmessage, List.filterMap_cons, answerTo, if_pos hrequest]
  rfl

/-- A body that is owed no response. -/
theorem Exchanges.of_owed_nil {client other : GzLspClient} (h : Exchanges engine [] client other)
    {body : ByteString} (howed : owed engine [body] = []) : Exchanges engine [body] client other :=
  ⟨h.earlier, by rw [howed]; exact h.sent⟩

theorem handleBody_exchanges {client : GzLspClient} (h : IsLive client)
    (hprocess : client.hasProcess = true) (body : ByteString) (listeners : List Call) :
    Exchanges engine [body] client (client.handleBody engine clock body listeners) := by
  unfold handleBody
  split
  next message hparsed =>
    have hmessage : messagesOf engine body = [.dictionary message] := by rw [messagesOf, hparsed]
    have hreceive : Exchanges engine [] client (client.receive (.dictionary message)) :=
      .of_eq rfl rfl
    simp only [handle]
    by_cases hrequest : (hasField message "method" && hasField message "id") = true
    · rw [if_pos hrequest]
      exact handleServerRequest_exchanges hprocess hmessage hrequest
    · have hnone : owed engine [body] = [] := by
        rw [owed_singleton, hmessage, List.filterMap_cons, answerTo, if_neg hrequest]
        rfl
      have hlive : IsLive (client.receive (.dictionary message)) := h
      rw [if_neg hrequest]
      split_ifs
      · exact (hreceive.trans (handleResponse_exchanges hlive _ message listeners)).of_owed_nil
          hnone
      · exact hreceive.of_owed_nil hnone
  next hother =>
    have hnone : owed engine [body] = [] := by
      have hmessages : messagesOf engine body = [] := by
        unfold messagesOf
        split
        next message hparsed => exact absurd hparsed (hother message)
        next => rfl
      rw [owed_singleton, hmessages, List.filterMap_nil]
    exact (Exchanges.refl client).of_owed_nil hnone

/-- Only an answer that shows the server to be incompatible makes a live client fail. -/
theorem handleAnswer_refuses {client : GzLspClient} (h : IsLive client) {pending : Request}
    {message : List (Text × Json)} {listeners : List Call}
    (hfailed : ¬ IsLive (client.handleAnswer engine clock pending message listeners)) :
    hasField message "error" = false ∧
      isIncompatible (serverVersion engine (field message "result" .null)) = true := by
  have hcontinues (other : GzLspClient) (hsame : Untouched client other) : IsLive other :=
    (isLive_congr hsame.state).mpr h
  simp only [handleAnswer] at hfailed
  split at hfailed
  next => exact absurd (hcontinues _ (abandon_untouched _ _)) hfailed
  next herror =>
    refine ⟨Bool.not_eq_true _ ▸ herror, ?_⟩
    split at hfailed
    next =>
      simp only [handleInitialized] at hfailed
      split_ifs at hfailed with hversion hpending
      · exact hversion
      · exact absurd (.inr (sendDefinition_untouched _ _).state) hfailed
      · exact absurd (.inr rfl) hfailed
    next =>
      have hflight : IsLive (client.setInFlight false) := h
      simp only [handleCompletion] at hfailed
      split_ifs at hfailed
      · have hcache (query : Query) (result : Json) :
            IsLive ((client.setInFlight false).cacheCompletion engine query result) := h
        exact absurd (calls_live (hcache _ _) listeners) hfailed
      · exact absurd hflight hfailed
    next =>
      unfold handleDefinition at hfailed
      split_ifs at hfailed
      · exact absurd h hfailed
      · exact absurd h hfailed

theorem handleBody_refuses {client : GzLspClient} (h : IsLive client) {body : ByteString}
    {listeners : List Call}
    (hfailed : ¬ IsLive (client.handleBody engine clock body listeners)) :
    Refuses engine body := by
  unfold handleBody at hfailed
  split at hfailed
  next message hparsed =>
    have hreceive : IsLive (client.receive (.dictionary message)) := h
    unfold handle at hfailed
    split_ifs at hfailed with hrequest hid
    · exact absurd ((isLive_congr (send_untouched _ _).state).mpr hreceive) hfailed
    · unfold handleResponse at hfailed
      split at hfailed
      next => exact absurd hreceive hfailed
      next pending _ =>
        have herase (id : ℤ) :
            IsLive ((client.receive (.dictionary message)).eraseRequest id) := h
        have hmethod : hasField message "method" = false := by
          rw [hid, Bool.and_true, Bool.not_eq_true] at hrequest
          exact hrequest
        exact ⟨message, hparsed, hid, hmethod, handleAnswer_refuses (herase _) hfailed⟩
    · exact absurd hreceive hfailed
  next => exact absurd h hfailed

/-! ### Pumping -/

theorem hasProcess_of_live {client : GzLspClient} (hinStep : InStep client) (h : IsLive client) :
    client.hasProcess = true := hinStep.process.mpr h

/-- Of the bodies that a pump frames a client takes all, unless a refusal fails it on the way. -/
theorem parseMessages_exchanges (clock : Clock) (pump : PumpInput) (left : ℕ) {client : GzLspClient}
    (hinStep : InStep client) (h : IsLive client) {framed : Run UInt8 ByteString String}
    (hframed : drainUpTo messageDecoder (PumpSchedule.roundsFrom pump.elapsed left) client.input =
      framed) :
    ∃ taken, AllOrRefused engine framed.items taken ∧
      Exchanges engine taken client (parseMessages engine clock pump left client) ∧
      (IsLive (parseMessages engine clock pump left client) → taken = framed.items ∧
        (parseMessages engine clock pump left client).input = framed.rest) := by
  induction left generalizing client framed with
  | zero =>
    subst hframed
    exact ⟨[], .all _, .refl client, fun _ ↦ ⟨rfl, rfl⟩⟩
  | succ left ih =>
    simp only [PumpSchedule.roundsFrom] at hframed
    simp only [parseMessages]
    split
    next hbudget =>
      rw [if_pos hbudget] at hframed
      subst hframed
      exact ⟨[], .all _, .refl client, fun _ ↦ ⟨rfl, rfl⟩⟩
    next hbudget =>
      rw [if_neg hbudget] at hframed
      split
      next hverdict =>
        rw [drainUpTo_wait hverdict] at hframed
        subst hframed
        exact ⟨[], .all _, .refl client, fun _ ↦ ⟨rfl, rfl⟩⟩
      next message hverdict =>
        rw [drainUpTo_fail hverdict] at hframed
        subst hframed
        exact ⟨[], .all _, fail_exchanges client _,
          fun hlive ↦ absurd hlive (not_isLive_failed rfl)⟩
      next body rest hverdict =>
        rw [drainUpTo_deliver hverdict] at hframed
        subst hframed
        have hinput : IsLive (client.setInput rest) := h
        have hset : InStep (client.setInput rest) := hinStep.congr rfl rfl rfl rfl id rfl
        have hrest : Exchanges engine [] client (client.setInput rest) := .of_eq rfl rfl
        set listeners := pump.listeners (PumpSchedule.maxMessagesPerPump - (left + 1))
        have hbody : Exchanges engine [body] client
            ((client.setInput rest).handleBody engine clock body listeners) :=
          (handleBody_exchanges hinput (hasProcess_of_live hset hinput) body listeners).after hrest
        have hcontinues : Continues (client.setInput rest)
            ((client.setInput rest).handleBody engine clock body listeners) :=
          handleBody_input hinput body listeners
        obtain ⟨hlive, hsame⟩ | ⟨hfailed, hempty⟩ := hcontinues
        · have hnext : ((client.setInput rest).handleBody engine clock body listeners).input =
              rest := hsame
          obtain ⟨taken, htaken, hexchanges, hafter⟩ :=
            ih (handleBody_inStep hset body listeners) hlive (congrArg _ hnext)
          refine ⟨body :: taken, htaken.append [body], hbody.trans hexchanges, fun hend ↦ ?_⟩
          obtain ⟨hall, hleft⟩ := hafter hend
          exact ⟨congrArg (body :: ·) hall, hleft⟩
        · have hdead := not_isLive_failed hfailed
          rw [parseMessages_empty hempty]
          refine ⟨[body], ⟨List.prefix_append [body] _, .inr ⟨[], body, rfl, ?_⟩⟩, hbody,
            fun hend ↦ absurd hend hdead⟩
          exact handleBody_refuses hinput hdead

theorem expireRequests_exchanges (client : GzLspClient) (now : ℕ) :
    Exchanges engine [] client (client.expireRequests now) := by
  have hfold (expired : List Request) (start : GzLspClient) :
      Exchanges engine [] start (expired.foldl abandon start) := by
    induction expired generalizing start with
    | nil => exact .refl start
    | cons pending expired ih => exact (abandon_exchanges start pending).trans (ih _)
  have hfilter : Exchanges engine [] client
      { client with requests := client.requests.filter fun entry ↦ !isExpired now entry.2 } :=
    .of_eq rfl rfl
  exact hfilter.trans (hfold _ _)

theorem read_exchanges (client : GzLspClient) : Exchanges engine [] client client.read :=
  .of_eq rfl rfl

theorem serve_exchanges (client : GzLspClient) :
    Exchanges engine [] client (client.serve clock) := by
  have hexpire (now : ℕ) : Exchanges engine [] client (client.read.expireRequests now) :=
    (read_exchanges client).trans (expireRequests_exchanges _ now)
  simp only [serve]
  split
  · exact (hexpire _).trans (sendCompletion_exchanges _ _)
  · exact hexpire _

theorem afterParsing_exchanges (client : GzLspClient) (pump : PumpInput) :
    Exchanges engine [] client (client.afterParsing engine clock pump) := by
  have hset (stderrOutput : ByteString) :
      Exchanges engine [] client (client.setStderr stderrOutput) := .of_eq rfl rfl
  have htrim : Exchanges engine [] client client.trimStderr := hset _
  have hread : Exchanges engine [] client client.trimStderr.read :=
    htrim.trans (read_exchanges _)
  simp only [afterParsing]
  split_ifs
  · exact fail_exchanges client _
  · exact htrim.trans (fail_exchanges _ _)
  · exact hread.trans (fail_exchanges _ _)
  · exact hread.trans (serve_exchanges _)
  · exact htrim.trans (serve_exchanges _)

variable (engine clock) in
/-- A pump of a live client takes the bodies that its limits leave room for. -/
theorem pump_exchanges {client : GzLspClient} (hinStep : InStep client)
    (hdrains : drains client = true) (pump : PumpInput) {framed : Run UInt8 ByteString String}
    (hframed : drainUpTo messageDecoder
      (PumpSchedule.roundsFrom pump.elapsed PumpSchedule.maxMessagesPerPump)
      (client.input ++ pump.stdout.take PumpSchedule.pipeReadLimit) = framed) :
    ∃ taken, AllOrRefused engine framed.items taken ∧
      Exchanges engine taken client (client.pump engine clock pump) ∧
      (IsLive (client.pump engine clock pump) → taken = framed.items ∧
        (client.pump engine clock pump).input = framed.rest) := by
  rw [drains, Bool.and_eq_true, Bool.not_eq_true', Bool.or_eq_true, decide_eq_true_eq,
    decide_eq_true_eq] at hdrains
  obtain ⟨hrunning, hstate⟩ := hdrains
  have hlive : IsLive (client.drain pump) := hstate
  have hdrain : InStep (client.drain pump) := hinStep.congr rfl rfl rfl rfl id rfl
  have hdrained : Exchanges engine [] client (client.drain pump) := .of_eq rfl rfl
  have hnot : ¬ (decide (client.state ≠ .initializing) && decide (client.state ≠ .ready)) =
      true := by
    rcases hstate with hstate | hstate <;> simp [hstate]
  obtain ⟨taken, htaken, hparsed, hend⟩ := parseMessages_exchanges clock pump
    PumpSchedule.maxMessagesPerPump hdrain hlive hframed
  rw [GzLspClient.pump, hrunning, if_neg Bool.false_ne_true, if_neg hnot]
  refine ⟨taken, htaken, (hparsed.after hdrained).before (afterParsing_exchanges _ pump),
    fun hafter ↦ ?_⟩
  obtain ⟨hparsedLive, -, hinput⟩ := afterParsing_live pump hafter
  obtain ⟨hall, hleft⟩ := hend hparsedLive
  exact ⟨hall, hinput.trans hleft⟩

/-- A client is live, or has dropped what is left of the input. -/
def LiveOrEmpty (client : GzLspClient) : Prop := IsLive client ∨ client.input = []

theorem LiveOrEmpty.untouched {client other : GzLspClient} (h : LiveOrEmpty client)
    (hsame : Untouched client other) : LiveOrEmpty other :=
  h.imp (isLive_congr hsame.state).mpr hsame.input.trans

theorem parseMessages_liveOrEmpty (clock : Clock) (pump : PumpInput) (left : ℕ)
    {client : GzLspClient} (h : IsLive client) :
    LiveOrEmpty (parseMessages engine clock pump left client) := by
  induction left generalizing client with
  | zero => exact .inl h
  | succ left ih =>
    simp only [parseMessages]
    split
    next => exact .inl h
    next =>
      split
      next => exact .inl h
      next => exact .inr rfl
      next body rest _ =>
        have hinput : IsLive (client.setInput rest) := h
        have hcontinues : Continues (client.setInput rest) ((client.setInput rest).handleBody engine
            clock body (pump.listeners (PumpSchedule.maxMessagesPerPump - (left + 1)))) :=
          handleBody_input hinput body _
        obtain ⟨hlive, -⟩ | ⟨-, hempty⟩ := hcontinues
        · exact ih hlive
        · rw [parseMessages_empty hempty]
          exact .inr hempty

theorem pump_liveOrEmpty {client : GzLspClient} (h : LiveOrEmpty client) (pump : PumpInput) :
    LiveOrEmpty (client.pump engine clock pump) := by
  unfold GzLspClient.pump
  split_ifs with _ hstate
  · exact h
  · exact h
  · have hlive : IsLive (client.drain pump) := by
      rw [Bool.and_eq_true, decide_eq_true_eq, decide_eq_true_eq, ← not_or, not_not] at hstate
      exact hstate
    have hparsed : LiveOrEmpty (parseMessages engine clock pump PumpSchedule.maxMessagesPerPump
        (client.drain pump)) := parseMessages_liveOrEmpty clock pump _ hlive
    generalize parseMessages engine clock pump PumpSchedule.maxMessagesPerPump
      (client.drain pump) = parsed at hparsed
    simp only [afterParsing]
    split_ifs
    · exact .inr rfl
    · exact .inr rfl
    · exact .inr rfl
    · exact hparsed.untouched
        (((trimStderr_untouched parsed).trans (read_untouched _)).trans (serve_untouched _))
    · exact hparsed.untouched ((trimStderr_untouched parsed).trans (serve_untouched _))

theorem pump_of_not_drains {client : GzLspClient} (h : ¬ drains client = true)
    (pump : PumpInput) : client.pump engine clock pump = client := by
  unfold GzLspClient.pump
  split_ifs with hshutdown hstate
  · rfl
  · rfl
  · refine absurd ?_ h
    rw [Bool.not_eq_true] at hshutdown
    rw [Bool.and_eq_true, decide_eq_true_eq, decide_eq_true_eq, ← not_or, not_not] at hstate
    simp [drains, hshutdown, hstate]

theorem shutdown_exchanges (client : GzLspClient) (isProcessRunning : Bool) :
    Exchanges engine [] client (client.shutdown isProcessRunning) := by
  have hexit : Exchanges engine [] client
      (if isProcessRunning then client.send .exit else client) := by
    split
    · exact send_exchanges rfl client
    · exact .refl client
  unfold GzLspClient.shutdown
  split
  · exact .refl client
  · have hstop {other : GzLspClient} (hearlier : other.earlier = _) (hsent : other.sent = _) :=
      hexit.trans (Exchanges.of_eq hearlier hsent)
    exact hstop rfl rfl

theorem shutdown_idle (client : GzLspClient) (isProcessRunning : Bool) :
    client.shutdown isProcessRunning = client ∨ Idle (client.shutdown isProcessRunning) := by
  unfold GzLspClient.shutdown
  split
  · exact .inl rfl
  · refine .inr ⟨?_, rfl, rfl⟩
    rintro (hstate | hstate)
    · cases hstate
    · cases hstate

/-! ### Runs -/

variable (engine) in
/-- A session that is watched, with the invariants of the client. -/
structure Tracks (watched : Watched) : Prop where
  inStep : InStep watched.client
  input : LiveOrEmpty watched.client
  answered : RequestsAnswered engine watched

/-- An operation in which no body is taken, and after which a live session was live before. -/
theorem RequestsAnswered.of_exchanges {watched : Watched} (h : RequestsAnswered engine watched)
    {other : GzLspClient} (hexchanges : Exchanges engine [] watched.client other)
    (hlive : IsLive other → IsLive watched.client ∧ other.input = watched.client.input) :
    RequestsAnswered engine { watched with client := other } := by
  have hsame : responses other.sent = responses watched.client.sent := by
    rw [hexchanges.responses_sent, owed, List.flatMap_nil, List.filterMap_nil, List.append_nil]
  constructor
  · obtain ⟨taken, htaken, howed⟩ := h.present
    exact ⟨taken, htaken, hsame.trans howed⟩
  · rw [hexchanges.earlier]
    exact h.earlier
  · intro hother
    obtain ⟨hbefore, hinput⟩ := hlive hother
    obtain ⟨hleft, howed⟩ := h.live hbefore
    exact ⟨hinput.trans hleft, hsame.trans howed⟩

theorem answered_empty {sent : List ClientMessage} (hnone : responses sent = []) :
    Answered engine .empty sent := ⟨[], .all [], hnone⟩

/-- A new server is owed nothing yet, and the one before it gets no more. -/
theorem RequestsAnswered.of_relaunched {watched : Watched} (h : RequestsAnswered engine watched)
    {other : GzLspClient} (hearlier : other.earlier = watched.client.sent :: watched.client.earlier)
    (hnone : responses other.sent = []) (hinput : other.input = []) :
    RequestsAnswered engine ⟨other, .empty, watched.present :: watched.earlier⟩ where
  present := answered_empty hnone
  earlier := by
    rw [hearlier]
    exact .cons h.present h.earlier
  live _ := ⟨hinput, hnone⟩

theorem RequestsAnswered.pump {watched : Watched} (h : RequestsAnswered engine watched)
    (hinStep : InStep watched.client) (hdrains : drains watched.client = true) (pump : PumpInput) :
    RequestsAnswered engine
      { watched with
        client := watched.client.pump engine clock pump
        present := watched.present.pump pump } := by
  have hbefore : IsLive watched.client := by
    rw [drains, Bool.and_eq_true, Bool.or_eq_true, decide_eq_true_eq, decide_eq_true_eq] at hdrains
    exact hdrains.2
  obtain ⟨hleft, howed⟩ := h.live hbefore
  obtain ⟨taken, htaken, hexchanges, hafter⟩ :=
    pump_exchanges engine clock hinStep hdrains pump rfl
  rw [hleft] at htaken hafter
  have hresponses : responses (watched.client.pump engine clock pump).sent =
      owed engine (watched.present.bodies ++ taken) := by
    rw [hexchanges.responses_sent, howed, owed_append]
  refine ⟨⟨_, htaken.append watched.present.bodies, hresponses⟩, ?_, fun hlive ↦ ?_⟩
  · rw [hexchanges.earlier]
    exact h.earlier
  · obtain ⟨hall, hinput⟩ := hafter hlive
    rw [hall] at hresponses
    exact ⟨hinput, hresponses⟩

theorem watch_client (watched : Watched) (op : Op) :
    (watch engine clock watched op).client = step engine clock watched.client op := by
  simp only [watch]
  split
  · rfl
  · split <;> rfl

/-- A call launches no server while there is one. -/
theorem watch_call_tracks {watched : Watched} (h : Tracks engine watched) (call : Call) :
    Tracks engine (watch engine clock watched (.call call)) := by
  have hinStep : InStep (watched.client.call engine clock call) := call_inStep h.inStep call
  by_cases hlive : IsLive watched.client
  · have hprocess := hasProcess_of_live h.inStep hlive
    have hsame : Untouched watched.client (watched.client.call engine clock call) :=
      call_untouched_of_live hlive call
    simp only [watch, hprocess, Bool.not_true, Bool.false_and, if_neg Bool.false_ne_true]
    exact ⟨hinStep, h.input.untouched hsame,
      h.answered.of_exchanges (call_exchanges hlive call) fun _ ↦ ⟨hlive, hsame.input⟩⟩
  · have hprocess : watched.client.hasProcess = false := by
      rw [← Bool.not_eq_true]
      exact fun hprocess ↦ hlive (h.inStep.process.mp hprocess)
    have hidle : Idle watched.client := ⟨hlive, hprocess, h.input.resolve_left hlive⟩
    have hrelaunched : Relaunched watched.client (watched.client.call engine clock call) :=
      call_relaunched hidle call
    obtain ⟨hnone, hearlier, hsent⟩ | ⟨hnew, hearlier, hsent⟩ := hrelaunched.server
    · have hdead : ¬ IsLive (watched.client.call engine clock call) := by
        intro hafter
        rw [hasProcess_of_live hinStep hafter] at hnone
        cases hnone
      simp only [watch, step, hnone, Bool.and_false, if_neg Bool.false_ne_true]
      exact ⟨hinStep, .inr hrelaunched.input, h.answered.of_exchanges (.of_eq hearlier hsent)
        fun hafter ↦ absurd hafter hdead⟩
    · simp only [watch, step, hprocess, hnew, Bool.not_false, Bool.and_true, if_true]
      exact ⟨hinStep, .inr hrelaunched.input,
        h.answered.of_relaunched hearlier hsent hrelaunched.input⟩

theorem watch_shutdown_tracks {watched : Watched} (h : Tracks engine watched)
    (isProcessRunning : Bool) :
    Tracks engine (watch engine clock watched (.shutdown isProcessRunning)) := by
  have hexchanges : Exchanges engine [] watched.client
      (watched.client.shutdown isProcessRunning) := shutdown_exchanges _ _
  have hinStep := shutdown_inStep h.inStep isProcessRunning
  obtain hsame | hidle := shutdown_idle watched.client isProcessRunning
  · simp only [watch, step, hsame, Bool.not_and_self, if_neg Bool.false_ne_true]
    exact h
  · simp only [watch, step, hidle.hasProcess, Bool.and_false, if_neg Bool.false_ne_true]
    exact ⟨hinStep, .inr hidle.input, h.answered.of_exchanges hexchanges
      fun hlive ↦ absurd hlive hidle.state⟩

theorem watch_tracks (watched : Watched) (op : Op) (h : Tracks engine watched) :
    Tracks engine (watch engine clock watched op) := by
  cases op with
  | call call => exact watch_call_tracks h call
  | pump pump =>
    have hinStep : InStep (watched.client.pump engine clock pump) := pump_inStep h.inStep pump
    have hinput : LiveOrEmpty (watched.client.pump engine clock pump) :=
      pump_liveOrEmpty h.input pump
    by_cases hdrains : drains watched.client = true
    · simp only [watch, step, hdrains, if_true]
      exact ⟨hinStep, hinput, h.answered.pump h.inStep hdrains pump⟩
    · simp only [watch, step, if_neg hdrains, pump_of_not_drains hdrains]
      exact h
  | shutdown isProcessRunning => exact watch_shutdown_tracks h isProcessRunning
  | beginLifecycleShutdown =>
    simp only [watch, step, beginLifecycleShutdown, Bool.not_and_self, if_neg Bool.false_ne_true]
    exact ⟨h.inStep.congr rfl rfl rfl rfl id rfl, h.input,
      h.answered.of_exchanges (.of_eq rfl rfl) fun hlive ↦ ⟨hlive, rfl⟩⟩

theorem tracks_initial : Tracks engine .initial where
  inStep := initial_inStep
  input := .inr rfl
  answered :=
    { present := answered_empty rfl
      earlier := .nil
      live := fun _ ↦ ⟨rfl, rfl⟩ }

/-- The client of a watched session is that of the session. -/
theorem watched_client (ops : List Op) :
    (watched engine clock ops).client = run engine clock ops := by
  induction ops using List.reverseRecOn with
  | nil => rfl
  | append_singleton ops op ih =>
    rw [watched, exec_concat, watch_client, run, exec_concat]
    exact congrArg (step engine clock · op) ih

variable (engine clock)

/-- Whatever the editor, the servers and the time do: what a server was sent answers the requests
among the bodies that the bytes drained from it frame, each once and in order, and nothing else
among it is a response. All bodies are taken before a pump returns, but those behind a message that
shows the server to be incompatible. -/
theorem run_requestsAnswered (ops : List Op) :
    (watched engine clock ops).client = run engine clock ops ∧
      RequestsAnswered engine (watched engine clock ops) :=
  ⟨watched_client ops,
    (exec_invariant (watch engine clock) (Tracks engine) watch_tracks tracks_initial ops).answered⟩

end Gzscript.Lsp.ServerRequests
