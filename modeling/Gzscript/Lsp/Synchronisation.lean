import Gzscript.Lsp.Session
import Mathlib.Data.List.Induction

/-!
# The documents of the language server

What a server is sent is `Synchronised`: documents and requests come after `initialized`, the
notifications of a document are a `didOpen` and then `didChange`s, and a request comes when the last
text of its document is the query's. The client keeps this for every server it launches
(`run_serversSynchronised`), because its documents are at all times what the messages to the present
server make them (`InStep`).

The versions of a document are 1, 2, 3 and so on up to `2 ^ 31 - 1`. The version is an `int32_t`,
which the next text overflows (`longSession_not_inOrder`).
-/

set_option autoImplicit false
set_option relaxedAutoImplicit false

namespace Gzscript.Lsp.Synchronisation

open Library.Bytes Library.Transition Protocol Session Session.GzLspClient

/-! ### What a server may be sent -/

/-- The text of a document that a message carries. -/
def sentText (uri : Text) : ClientMessage → Option Text
  | .didOpen other _ text => if other = uri then some text else none
  | .didChange other _ text => if other = uri then some text else none
  | _ => none

/-- The texts of a document that a server was sent, in order. -/
def texts (uri : Text) (log : List ClientMessage) : List Text := log.filterMap (sentText uri)

/-- Which versions a text of a document may have, by its number. -/
abbrev Numbering : Type := ℕ → Option Int32 → Prop

/-- A version is the number of the text. -/
def inOrder : Numbering := fun number version ↦ version.map Int32.toInt = some (number : ℤ)

/-- The version is the number of the text as long as an `int32_t` can be. -/
def inOrderWithinInt32 : Numbering := fun number version ↦
  number ≤ 2 ^ 31 - 1 → inOrder number version

/-- A message that may come after some others. -/
def Permitted (numbering : Numbering) (before : List ClientMessage) : ClientMessage → Prop
  | .didOpen uri version _ =>
    .initialized ∈ before ∧ texts uri before = [] ∧ numbering 1 version
  | .didChange uri version _ =>
    .initialized ∈ before ∧ texts uri before ≠ [] ∧
      numbering ((texts uri before).length + 1) version
  | .completion _ query =>
    .initialized ∈ before ∧ (texts query.uri before).getLast? = some query.source
  | .definition _ query =>
    .initialized ∈ before ∧ (texts query.uri before).getLast? = some query.source
  | _ => True

/-- One more message. -/
def record (log : List ClientMessage) (message : ClientMessage) : List ClientMessage :=
  log ++ [message]

/-- Every message is permitted after the ones before it. -/
def Synchronised (numbering : Numbering) (log : List ClientMessage) : Prop :=
  Along record (Permitted numbering) [] log

variable {numbering : Numbering}

theorem synchronised_iff_split (log : List ClientMessage) :
    Synchronised numbering log ↔ ∀ before message after, log = before ++ message :: after →
      Permitted numbering before message :=
  lawful_iff_split (Permitted numbering) log

theorem synchronised_concat {log : List ClientMessage} {message : ClientMessage} :
    Synchronised numbering (log ++ [message]) ↔
      Synchronised numbering log ∧ Permitted numbering log message :=
  lawful_concat

theorem Permitted.mono {other : Numbering} (hle : ∀ number version, numbering number version →
      other number version) {before : List ClientMessage} {message : ClientMessage}
    (h : Permitted numbering before message) : Permitted other before message := by
  cases message with
  | didOpen uri version text => exact ⟨h.1, h.2.1, hle _ _ h.2.2⟩
  | didChange uri version text => exact ⟨h.1, h.2.1, hle _ _ h.2.2⟩
  | completion id query => exact h
  | definition id query => exact h
  | _ => trivial

theorem Synchronised.mono {other : Numbering} (hle : ∀ number version, numbering number version →
      other number version) {log : List ClientMessage} (h : Synchronised numbering log) :
    Synchronised other log := by
  rw [synchronised_iff_split] at h ⊢
  exact fun before message after hlog ↦ (h before message after hlog).mono hle

/-- Every server launched so far was sent what it may be sent. -/
def ServersSynchronised (numbering : Numbering) (client : GzLspClient) : Prop :=
  ∀ log ∈ client.sent :: client.earlier, Synchronised numbering log

/-! ### Counting versions -/

/-- The version of a text, counted up from 0. -/
def versionAfter (number : ℕ) : Option Int32 := nextVersion^[number] (some 0)

theorem versionAfter_succ (number : ℕ) :
    versionAfter (number + 1) = nextVersion (versionAfter number) :=
  Function.iterate_succ_apply' ..

theorem versionAfter_of_le {number : ℕ} (h : number ≤ 2 ^ 31 - 1) :
    versionAfter number = some (.ofNat number) := by
  induction number with
  | zero => rfl
  | succ number ih =>
    have hne : Int32.ofNat number ≠ Int32.maxValue := by
      intro heq
      have hint := congrArg Int32.toInt heq
      rw [Int32.toInt_ofNat_of_lt (by omega), Int32.toInt_maxValue] at hint
      omega
    rw [versionAfter_succ, ih (by omega), nextVersion, if_neg hne, Int32.ofNat_add]
    rfl

theorem versionAfter_of_lt {number : ℕ} (h : 2 ^ 31 - 1 < number) :
    versionAfter number = none := by
  induction number with
  | zero => omega
  | succ number ih =>
    rw [versionAfter_succ]
    rcases Nat.lt_or_ge (2 ^ 31 - 1) number with hlt | hge
    · rw [ih hlt]
      rfl
    · obtain rfl : number = 2 ^ 31 - 1 := by omega
      rw [versionAfter_of_le le_rfl]
      rfl

/-- The version is the one that is counted up. -/
def counted : Numbering := fun number version ↦ version = versionAfter number

theorem inOrder_of_counted {number : ℕ} {version : Option Int32} (h : counted number version) :
    inOrderWithinInt32 number version := by
  intro hle
  rw [inOrder, h, versionAfter_of_le hle, Option.map_some, Int32.toInt_ofNat_of_lt (by omega)]

/-! ### The documents a server has -/

/-- The document a server has after some messages, in the version of its last text. -/
def documentAt (uri : Text) (log : List ClientMessage) : Option Document :=
  (texts uri log).getLast?.map fun text ↦ ⟨text, versionAfter (texts uri log).length⟩

theorem texts_concat (uri : Text) (log : List ClientMessage) (message : ClientMessage) :
    texts uri (log ++ [message]) = texts uri log ++ (sentText uri message).toList := by
  rw [texts, List.filterMap_append]
  cases htext : sentText uri message <;> simp [texts, htext]

theorem documentAt_concat_of_none {uri : Text} {message : ClientMessage}
    (hnone : sentText uri message = none) (log : List ClientMessage) :
    documentAt uri (log ++ [message]) = documentAt uri log := by
  rw [documentAt, texts_concat, hnone, Option.toList_none, List.append_nil]
  rfl

theorem documentAt_concat_of_some {uri text : Text} {message : ClientMessage}
    (hsome : sentText uri message = some text) (log : List ClientMessage) :
    documentAt uri (log ++ [message]) = some ⟨text, versionAfter ((texts uri log).length + 1)⟩ := by
  rw [documentAt, texts_concat, hsome, Option.toList_some, List.getLast?_concat,
    List.length_append]
  rfl

theorem texts_of_documentAt_none {uri : Text} {log : List ClientMessage}
    (hnone : documentAt uri log = none) : texts uri log = [] := by
  rw [documentAt, Option.map_eq_none_iff] at hnone
  exact List.getLast?_eq_none_iff.mp hnone

theorem texts_of_documentAt_some {uri : Text} {log : List ClientMessage} {document : Document}
    (hsome : documentAt uri log = some document) :
    (texts uri log).getLast? = some document.source ∧
      document.version = versionAfter (texts uri log).length := by
  rw [documentAt, Option.map_eq_some_iff] at hsome
  obtain ⟨text, htext, rfl⟩ := hsome
  exact ⟨htext, rfl⟩

/-! ### The invariant -/

/-- The client's documents are those of the present server, every server was sent what it may be
sent, and there are requests and a ready state only with a server, which has been told so. -/
structure InStep (client : GzLspClient) : Prop where
  earlier : ∀ log ∈ client.earlier, Synchronised counted log
  sent : Synchronised counted client.sent
  process : client.hasProcess = true ↔ client.state = .initializing ∨ client.state = .ready
  requests : client.hasProcess = false → client.requests = []
  documents : ∀ uri, client.documents uri =
    if client.hasProcess then documentAt uri client.sent else none
  ready : client.state = .ready → .initialized ∈ client.sent

theorem initial_inStep : InStep initial where
  earlier := by simp [initial]
  sent := trivial
  process := by simp [initial]
  requests _ := rfl
  documents uri := rfl
  ready := by simp [initial]

/-- The invariant depends on these fields alone. -/
theorem InStep.congr {client other : GzLspClient} (h : InStep client)
    (hearlier : other.earlier = client.earlier) (hsent : other.sent = client.sent)
    (hstate : other.state = client.state) (hprocess : other.hasProcess = client.hasProcess)
    (hrequests : client.requests = [] → other.requests = [])
    (hdocuments : other.documents = client.documents) : InStep other where
  earlier := hearlier ▸ h.earlier
  sent := hsent ▸ h.sent
  process := by rw [hprocess, hstate, h.process]
  requests hnone := hrequests (h.requests (hprocess ▸ hnone))
  documents := by rw [hdocuments, hprocess, hsent]; exact h.documents
  ready := by rw [hstate, hsent]; exact h.ready

theorem InStep.documentAt_sent {client : GzLspClient} (h : InStep client)
    (hprocess : client.hasProcess = true) (uri : Text) :
    client.documents uri = documentAt uri client.sent := by
  rw [h.documents uri, if_pos hprocess]

/-- A message that is no document's is sent. -/
theorem send_inStep {client : GzLspClient} (h : InStep client) (message : ClientMessage)
    (hpermitted : client.hasProcess = true → Permitted counted client.sent message)
    (hnone : ∀ uri, sentText uri message = none) : InStep (client.send message) := by
  rw [send]
  split
  next hprocess =>
    refine ⟨h.earlier, synchronised_concat.mpr ⟨h.sent, hpermitted hprocess⟩, h.process, h.requests,
      fun uri ↦ ?_, fun hready ↦ List.mem_append_left _ (h.ready hready)⟩
    rw [h.documents uri, documentAt_concat_of_none (hnone uri)]
  next => exact h

/-! ### Sending -/

theorem send_hasProcess (client : GzLspClient) (message : ClientMessage) :
    (client.send message).hasProcess = client.hasProcess := by
  rw [send]
  split <;> rfl

theorem send_state (client : GzLspClient) (message : ClientMessage) :
    (client.send message).state = client.state := by
  rw [send]
  split <;> rfl

theorem send_sent {client : GzLspClient} (hprocess : client.hasProcess = true)
    (message : ClientMessage) : (client.send message).sent = client.sent ++ [message] := by
  rw [send, if_pos hprocess]

/-- A document's text is sent in the version that follows. -/
theorem sendDocument_inStep {client : GzLspClient} (h : InStep client)
    (hprocess : client.hasProcess = true) (uri text : Text) {version : Option Int32}
    (hversion : counted ((texts uri client.sent).length + 1) version) (message : ClientMessage)
    (hpermitted : Permitted counted client.sent message)
    (htext : ∀ other, sentText other message = if uri = other then some text else none) :
    InStep ((client.setDocument uri ⟨text, version⟩).send message) := by
  have hsome : sentText uri message = some text := by rw [htext, if_pos rfl]
  have hset : (client.setDocument uri ⟨text, version⟩).hasProcess = true := hprocess
  rw [send, if_pos hset]
  refine ⟨h.earlier, synchronised_concat.mpr ⟨h.sent, hpermitted⟩, h.process, h.requests,
    fun other ↦ ?_, fun hready ↦ List.mem_append_left _ (h.ready hready)⟩
  rw [if_pos hset]
  change Function.update client.documents uri _ other = documentAt other (client.sent ++ [message])
  by_cases hother : uri = other
  · rw [← hother, Function.update_self, documentAt_concat_of_some hsome, hversion]
  · have hnone : sentText other message = none := by rw [htext, if_neg hother]
    rw [Function.update_of_ne (Ne.symm hother), documentAt_concat_of_none hnone,
      h.documentAt_sent hprocess]

/-- A server that has been told so, in the invariant. -/
structure Serving (client : GzLspClient) : Prop extends InStep client where
  serves : client.state = .ready

theorem Serving.hasProcess {client : GzLspClient} (h : Serving client) :
    client.hasProcess = true := h.process.mpr (.inr h.serves)

/-- The same, after a document's text is sent. -/
theorem sendDocument_serving {client : GzLspClient} (h : Serving client) (uri text : Text)
    {version : Option Int32} (hversion : counted ((texts uri client.sent).length + 1) version)
    (message : ClientMessage) (hpermitted : Permitted counted client.sent message)
    (htext : ∀ other, sentText other message = if uri = other then some text else none) :
    Serving ((client.setDocument uri ⟨text, version⟩).send message) ∧
      (texts uri ((client.setDocument uri ⟨text, version⟩).send message).sent).getLast? =
        some text := by
  have hset : (client.setDocument uri ⟨text, version⟩).hasProcess = true := h.hasProcess
  refine ⟨⟨sendDocument_inStep h.toInStep h.hasProcess uri text hversion message hpermitted htext,
    (send_state _ _).trans h.serves⟩, ?_⟩
  rw [send_sent hset, texts_concat, htext, if_pos rfl, Option.toList_some]
  exact List.getLast?_concat

/-- After `synchronize`, the last text sent for the document is that of the query. -/
theorem synchronize_serving {client : GzLspClient} (h : Serving client) (query : Query) :
    Serving (client.synchronize query) ∧
      (texts query.uri (client.synchronize query).sent).getLast? = some query.source := by
  have hdocument := h.documentAt_sent h.hasProcess query.uri
  have hinitialized := h.ready h.serves
  unfold synchronize
  split
  next hnone =>
    have hfirst := texts_of_documentAt_none (hdocument.symm.trans hnone)
    have hversion : counted ((texts query.uri client.sent).length + 1) (nextVersion (some 0)) := by
      rw [hfirst]
      rfl
    exact sendDocument_serving h query.uri query.source hversion
      (.didOpen query.uri (nextVersion (some 0)) query.source) ⟨hinitialized, hfirst, rfl⟩
      fun _ ↦ rfl
  next document hsome =>
    obtain ⟨hsource, hversion⟩ := texts_of_documentAt_some (hdocument.symm.trans hsome)
    split
    next hsame => exact ⟨h, hsame ▸ hsource⟩
    next =>
      have hopen : texts query.uri client.sent ≠ [] := by
        intro hnil
        rw [hnil] at hsource
        cases hsource
      have hnext : counted ((texts query.uri client.sent).length + 1)
          (nextVersion document.version) := by
        rw [counted, versionAfter_succ, hversion]
      exact sendDocument_serving h query.uri query.source hnext
        (.didChange query.uri (nextVersion document.version) query.source)
        ⟨hinitialized, hopen, hnext⟩ fun _ ↦ rfl

/-- A request of a query is sent once the document is synchronised. -/
theorem request_inStep {client : GzLspClient} (h : InStep client)
    (hprocess : client.hasProcess = true) (clock : Clock) (message : ℤ → ClientMessage)
    (kind : RequestKind) (query : Query)
    (hpermitted : ∀ id, Permitted counted client.sent (message id))
    (hnone : ∀ id uri, sentText uri (message id) = none) :
    InStep (client.request clock message kind query) := by
  refine send_inStep ?_ _ (fun _ ↦ hpermitted _) (hnone _)
  refine ⟨h.earlier, h.sent, h.process, fun hno ↦ ?_, h.documents, h.ready⟩
  rw [hprocess] at hno
  cases hno

theorem sendCompletion_inStep {client : GzLspClient} (h : Serving client) (clock : Clock)
    (query : Query) : InStep (client.sendCompletion clock query) := by
  obtain ⟨hserving, hlast⟩ := synchronize_serving h query
  have hrequest := request_inStep hserving.toInStep hserving.hasProcess clock
    (.completion · query) .completion query (fun _ ↦ ⟨hserving.ready hserving.serves, hlast⟩)
    fun _ _ ↦ rfl
  exact hrequest.congr rfl rfl rfl rfl id rfl

theorem sendDefinition_inStep {client : GzLspClient} (h : Serving client) (clock : Clock)
    (query : Query) : InStep (client.sendDefinition clock query) := by
  obtain ⟨hserving, hlast⟩ := synchronize_serving h query
  exact request_inStep hserving.toInStep hserving.hasProcess clock (.definition · query)
    .definition query (fun _ ↦ ⟨hserving.ready hserving.serves, hlast⟩) fun _ _ ↦ rfl

/-! ### Starting and failing -/

variable {engine : Engine} {clock : Clock}

theorem fail_inStep {client : GzLspClient} (h : InStep client) (message : Text) :
    InStep (client.fail clock message) where
  earlier := h.earlier
  sent := h.sent
  process := by simp [fail]
  requests _ := rfl
  documents _ := rfl
  ready := by simp [fail]

theorem connect_inStep {client : GzLspClient} (h : InStep client)
    (hprocess : client.hasProcess = false) : InStep (client.connect clock) where
  earlier log hlog := by
    rcases List.mem_cons.mp hlog with rfl | hearlier
    · exact h.sent
    · exact h.earlier log hearlier
  sent := trivial
  process := by simp [connect]
  requests := by simp [connect]
  documents uri := by
    have hnone := h.documents uri
    rw [hprocess] at hnone
    exact hnone
  ready := by simp [connect]

/-- A server that has been launched was sent nothing before. -/
theorem launch_inStep {client : GzLspClient} (h : InStep client)
    (hprocess : client.hasProcess = false) (launches : Bool) :
    InStep (client.launch clock launches).2 := by
  unfold launch
  split
  next =>
    exact request_inStep (connect_inStep h hprocess) rfl clock .initializeRequest .initializing
      .empty (fun _ ↦ trivial) fun _ _ ↦ rfl
  next => exact fail_inStep h _

theorem read_inStep {client : GzLspClient} (h : InStep client) : InStep client.read :=
  h.congr rfl rfl rfl rfl id rfl

/-- There is no server unless it is being started or ready. -/
theorem InStep.no_process {client : GzLspClient} (h : InStep client)
    (hinitializing : client.state ≠ .initializing) (hready : client.state ≠ .ready) :
    client.hasProcess = false := by
  rw [← Bool.not_eq_true, h.process]
  exact not_or.mpr ⟨hinitializing, hready⟩

theorem start_inStep {client : GzLspClient} (h : InStep client) (launches : Bool) :
    InStep (client.start clock launches).2 := by
  unfold start
  split
  next => exact h
  next =>
    split
    next => exact h
    next => exact h
    next hstate =>
      have hprocess := h.no_process (by simp [hstate]) (by simp [hstate])
      split_ifs
      · exact h
      · exact read_inStep h
      · have hrestart : InStep client.restart :=
          ⟨h.earlier, h.sent, by simp [restart, hprocess], h.requests, h.documents,
            by simp [restart]⟩
        have hattempt : InStep (client.restart.attempt (some (client.now clock))) :=
          hrestart.congr rfl rfl rfl rfl id rfl
        exact launch_inStep hattempt hprocess launches
    next hstate =>
      have hprocess := h.no_process (by simp [hstate]) (by simp [hstate])
      have hattempt : InStep (client.attempt none) := h.congr rfl rfl rfl rfl id rfl
      exact launch_inStep hattempt hprocess launches

/-! ### The editor's calls -/

theorem complete_inStep {client : GzLspClient} (h : InStep client) (code path : Text)
    (launches : Bool) : InStep (client.complete engine clock code path launches).2 := by
  simp only [complete]
  split_ifs
  · exact h
  · have hrecord : InStep (client.recordCompletion clock (makeQuery engine code path)) :=
      h.congr rfl rfl rfl rfl id rfl
    exact start_inStep hrecord launches
  · exact h
  · exact h

theorem afterStart_inStep {started : Bool × GzLspClient} (h : InStep started.2) (query : Query) :
    InStep (afterStart clock started query) := by
  unfold afterStart
  split
  next hready =>
    rw [Bool.and_eq_true, decide_eq_true_eq] at hready
    exact sendDefinition_inStep ⟨h, hready.2⟩ clock query
  next => exact h

theorem lookup_inStep {client : GzLspClient} (h : InStep client) (code path : Text)
    (launches : Bool) : InStep (client.lookup engine clock code path launches).2 := by
  simp only [lookup]
  split_ifs
  · exact h
  · have hrecord : InStep (client.recordDefinition (makeQuery engine code path)) :=
      h.congr rfl rfl rfl rfl id rfl
    exact afterStart_inStep (start_inStep hrecord launches) _
  · exact h
  · exact h

theorem call_inStep {client : GzLspClient} (h : InStep client) (call : Call) :
    InStep (client.call engine clock call) := by
  cases call with
  | complete code path launches => exact complete_inStep h code path launches
  | lookup code path launches => exact lookup_inStep h code path launches

theorem calls_inStep {client : GzLspClient} (h : InStep client) (calls : List Call) :
    InStep (calls.foldl (GzLspClient.call engine clock) client) := by
  induction calls generalizing client with
  | nil => exact h
  | cons call calls ih => exact ih (call_inStep h call)

/-! ### The server's messages -/

theorem abandon_inStep {client : GzLspClient} (h : InStep client) (pending : Request) :
    InStep (client.abandon pending) := by
  unfold abandon
  split
  · exact h
  · exact h.congr rfl rfl rfl rfl id rfl
  · exact h.congr rfl rfl rfl rfl id rfl

/-- The server that is ready was told so just before. -/
theorem becomeReady_serving {client : GzLspClient} (h : InStep client)
    (hprocess : client.hasProcess = true) : Serving (client.send .initialized).becomeReady := by
  have hsend := send_inStep h .initialized (fun _ ↦ trivial) fun _ ↦ rfl
  have hkept : (client.send .initialized).hasProcess = true :=
    (send_hasProcess _ _).trans hprocess
  refine ⟨⟨hsend.earlier, hsend.sent, iff_of_true hkept (.inr rfl), hsend.requests,
    hsend.documents, fun _ ↦ ?_⟩, rfl⟩
  change .initialized ∈ (client.send .initialized).sent
  rw [send_sent hprocess]
  exact List.mem_append_right _ (List.mem_singleton_self _)

theorem handleInitialized_inStep {client : GzLspClient} (h : InStep client)
    (hprocess : client.hasProcess = true) (result : Json) :
    InStep (client.handleInitialized engine clock result) := by
  have hserving := becomeReady_serving h hprocess
  simp only [handleInitialized]
  split_ifs
  · exact fail_inStep h _
  · exact sendDefinition_inStep hserving clock _
  · exact hserving.toInStep

theorem handleCompletion_inStep {client : GzLspClient} (h : InStep client) (query : Query)
    (result : Json) (listeners : List Call) :
    InStep (client.handleCompletion engine clock query result listeners) := by
  have hflight : InStep (client.setInFlight false) := h.congr rfl rfl rfl rfl id rfl
  simp only [handleCompletion]
  split_ifs
  · have hcache : InStep ((client.setInFlight false).cacheCompletion engine query result) :=
      hflight.congr rfl rfl rfl rfl id rfl
    exact calls_inStep hcache listeners
  · exact hflight

theorem handleDefinition_inStep {client : GzLspClient} (h : InStep client) (query : Query)
    (result : Json) : InStep (client.handleDefinition engine query result) := by
  unfold handleDefinition
  split_ifs
  · exact h.congr rfl rfl rfl rfl id rfl
  · exact h

theorem handleAnswer_inStep {client : GzLspClient} (h : InStep client)
    (hprocess : client.hasProcess = true) (pending : Request) (message : List (Text × Json))
    (listeners : List Call) :
    InStep (client.handleAnswer engine clock pending message listeners) := by
  simp only [handleAnswer]
  split
  next => exact abandon_inStep h pending
  next =>
    split
    · exact handleInitialized_inStep h hprocess _
    · exact handleCompletion_inStep h _ _ listeners
    · exact handleDefinition_inStep h _ _

/-- An answer is looked at only if its request was sent, which takes a server. -/
theorem handleResponse_inStep {client : GzLspClient} (h : InStep client) (id : ℤ)
    (message : List (Text × Json)) (listeners : List Call) :
    InStep (client.handleResponse engine clock id message listeners) := by
  unfold handleResponse
  split
  next => exact h
  next pending hpending =>
    have hprocess : client.hasProcess = true := by
      by_contra hno
      rw [h.requests (Bool.not_eq_true _ ▸ hno)] at hpending
      cases hpending
    have herase : InStep (client.eraseRequest id) :=
      h.congr rfl rfl rfl rfl (fun hnil ↦ by simp [eraseRequest, hnil]) rfl
    exact handleAnswer_inStep herase hprocess pending message listeners

theorem handle_inStep {client : GzLspClient} (h : InStep client) (message : List (Text × Json))
    (listeners : List Call) : InStep (client.handle engine clock message listeners) := by
  unfold handle
  split_ifs
  · exact send_inStep h _ (fun _ ↦ trivial) fun _ ↦ rfl
  · exact handleResponse_inStep h _ message listeners
  · exact h

theorem handleBody_inStep {client : GzLspClient} (h : InStep client) (body : ByteString)
    (listeners : List Call) : InStep (client.handleBody engine clock body listeners) := by
  unfold handleBody
  split
  next message _ =>
    have hreceive : InStep (client.receive (.dictionary message)) :=
      h.congr rfl rfl rfl rfl id rfl
    exact handle_inStep hreceive message listeners
  next => exact h

theorem parseMessages_inStep (pump : PumpInput) (left : ℕ) {client : GzLspClient}
    (h : InStep client) : InStep (parseMessages engine clock pump left client) := by
  induction left generalizing client with
  | zero => exact h
  | succ left ih =>
    simp only [parseMessages]
    split
    next => exact h
    next =>
      split
      next => exact h
      next => exact fail_inStep h _
      next body rest _ =>
        have hinput : InStep (client.setInput rest) := h.congr rfl rfl rfl rfl id rfl
        exact ih (handleBody_inStep hinput body _)

/-! ### Pumping -/

theorem expireRequests_inStep {client : GzLspClient} (h : InStep client) (now : ℕ) :
    InStep (client.expireRequests now) := by
  have hfold (expired : List Request) {start : GzLspClient} (hstart : InStep start) :
      InStep (expired.foldl abandon start) := by
    induction expired generalizing start with
    | nil => exact hstart
    | cons pending expired ih => exact ih (abandon_inStep hstart pending)
  exact hfold _ (h.congr rfl rfl rfl rfl (fun hnil ↦ by simp [hnil]) rfl)

theorem serve_inStep {client : GzLspClient} (h : InStep client) : InStep (client.serve clock) := by
  have hexpire := expireRequests_inStep (read_inStep h) (client.now clock)
  simp only [serve]
  split
  next hdue =>
    simp only [Bool.and_eq_true, decide_eq_true_eq] at hdue
    exact sendCompletion_inStep ⟨hexpire, hdue.1.1.1⟩ clock _
  next => exact hexpire

theorem setStderr_inStep {client : GzLspClient} (h : InStep client) (stderrOutput : ByteString) :
    InStep (client.setStderr stderrOutput) := h.congr rfl rfl rfl rfl id rfl

theorem afterParsing_inStep {client : GzLspClient} (h : InStep client) (pump : PumpInput) :
    InStep (client.afterParsing engine clock pump) := by
  have htrim : InStep client.trimStderr := setStderr_inStep h _
  have hread : InStep client.trimStderr.read := read_inStep htrim
  simp only [afterParsing]
  split_ifs
  · exact fail_inStep h _
  · exact fail_inStep htrim _
  · exact fail_inStep hread _
  · exact serve_inStep hread
  · exact serve_inStep htrim

theorem pump_inStep {client : GzLspClient} (h : InStep client) (pump : PumpInput) :
    InStep (client.pump engine clock pump) := by
  unfold GzLspClient.pump
  split_ifs
  · exact h
  · exact h
  · have hdrain : InStep (client.drain pump) := h.congr rfl rfl rfl rfl id rfl
    exact afterParsing_inStep (parseMessages_inStep pump _ hdrain) pump

theorem shutdown_inStep {client : GzLspClient} (h : InStep client) (isProcessRunning : Bool) :
    InStep (client.shutdown isProcessRunning) := by
  have hexit (running : Bool) : InStep (if running then client.send .exit else client) := by
    split
    · exact send_inStep h .exit (fun _ ↦ trivial) fun _ ↦ rfl
    · exact h
  unfold GzLspClient.shutdown
  split
  next => exact h
  next =>
    exact ⟨(hexit _).earlier, (hexit _).sent, by simp, fun _ ↦ rfl, fun _ ↦ rfl, by simp⟩

/-! ### Runs -/

theorem step_inStep (client : GzLspClient) (op : Op) (h : InStep client) :
    InStep (step engine clock client op) := by
  cases op with
  | call call => exact call_inStep h call
  | pump pump => exact pump_inStep h pump
  | shutdown isProcessRunning => exact shutdown_inStep h isProcessRunning
  | beginLifecycleShutdown =>
    have hbegin : InStep client.beginLifecycleShutdown := h.congr rfl rfl rfl rfl id rfl
    exact hbegin

theorem run_inStep (ops : List Op) : InStep (run engine clock ops) :=
  exec_invariant (step engine clock) InStep step_inStep initial_inStep ops

theorem run_synchronised (ops : List Op) : ServersSynchronised counted (run engine clock ops) := by
  have hinStep : InStep (run engine clock ops) := run_inStep ops
  intro log hlog
  rcases List.mem_cons.mp hlog with rfl | hearlier
  · exact hinStep.sent
  · exact hinStep.earlier log hearlier

variable (engine clock)

/-- Whatever the editor, the server and the time do, every server is sent its documents and its
requests after `initialized`, the versions of a document in order as long as an `int32_t` can count
them, and every request with the query's text as the last one of its document. -/
theorem run_serversSynchronised (ops : List Op) :
    ServersSynchronised inOrderWithinInt32 (run engine clock ops) :=
  fun log hlog ↦ (run_synchronised ops log hlog).mono fun _ _ ↦ inOrder_of_counted

/-! ### A long session -/

section LongSession

/-- The answer of a server to the first request. -/
def firstAnswer : String := "\x7b\"jsonrpc\":\"2.0\",\"id\":1,\"result\":\x7b\x7d\x7d"

/-- An engine that can read this answer, and encodes plain characters and slashes. -/
def answeringEngine : Engine where
  globalizePath := id
  localizePath := id
  uriEncode := replaceText ['/'] "%2F".toList
  uriDecode := replaceText "%2F".toList ['/']
  isWindows := false
  utf8 bytes := bytes.map fun byte ↦ Char.ofNat byte.toNat
  parseString text :=
    if text = firstAnswer.toList then
      .dictionary [("jsonrpc".toList, .string "2.0".toList), ("id".toList, .number 1),
        ("result".toList, .dictionary [])]
    else .null
  stringify _ := []
  integerOf _ := 0

/-- A clock that stands still. -/
def standingClock : Clock := ⟨fun _ ↦ 7, fun _ _ _ ↦ le_rfl⟩

def editedPath : Text := "/project/a.zig".toList

/-- The texts of a document that is edited to and fro. -/
def editedText (number : ℕ) : Text := if number % 2 = 0 then ['a'] else ['b']

/-- As many lookups in the edited document. -/
def edits : ℕ → List Op
  | 0 => []
  | count + 1 => edits count ++ [.call (.lookup (editedText count) editedPath false)]

/-- A server is started, answers, and is asked for a definition after each edit. -/
def longSession (count : ℕ) : List Op :=
  [.call (.complete [] editedPath true),
    .pump ⟨ascii "Content-Length: 36\r\n\r\n" ++ ascii firstAnswer, [], fun _ ↦ 0, fun _ ↦ [],
      true⟩] ++ edits count

def editedUri : Text := pathToUri answeringEngine editedPath

/-- The server is ready and has some text of the document, and only a lookup in that is pending. -/
structure Editing (client : GzLspClient) (last : Option Text) : Prop where
  ready : client.state = .ready
  process : client.hasProcess = true
  notShutdown : client.shutdownStarted = false
  noLifecycleShutdown : client.lifecycleShutdown = false
  uncached : client.hasCachedDefinition = false
  pending : client.hasPendingDefinition = true → some client.pendingDefinition.source = last
  document : (client.documents editedUri).map Document.source = last

/-- A text that the server does not have is sent to it. -/
theorem synchronize_new {client : GzLspClient} (hprocess : client.hasProcess = true)
    (query : Query)
    (hnew : (client.documents query.uri).map Document.source ≠ some query.source) :
    ∃ version message, sentText query.uri message = some query.source ∧
      client.synchronize query = { client.setDocument query.uri ⟨query.source, version⟩ with
        sent := client.sent ++ [message] } := by
  unfold synchronize
  split
  next hnone =>
    exact ⟨nextVersion (some 0), .didOpen query.uri (nextVersion (some 0)) query.source,
      if_pos rfl, if_pos hprocess⟩
  next document hsome =>
    have hne : document.source ≠ query.source := by
      intro heq
      rw [hsome, Option.map_some, heq] at hnew
      exact hnew rfl
    rw [if_neg hne]
    exact ⟨nextVersion document.version,
      .didChange query.uri (nextVersion document.version) query.source, if_pos rfl,
      if_pos hprocess⟩

theorem isNewDefinition_editing {client : GzLspClient} {last : Option Text}
    (h : Editing client last) {query : Query} (hnew : last ≠ some query.source) :
    client.isNewDefinition query = true := by
  have hpending : (client.hasPendingDefinition &&
      sameQuery query client.pendingDefinition) = false := by
    rw [Bool.and_eq_false_imp]
    intro hpending
    have hne : query.source ≠ client.pendingDefinition.source := by
      intro heq
      rw [← h.pending hpending, ← heq] at hnew
      exact hnew rfl
    simp [sameQuery, hne]
  rw [isNewDefinition, h.uncached, hpending]
  rfl

/-- A lookup in another text asks for its definition. -/
theorem lookup_eq {client : GzLspClient} {last : Option Text} (h : Editing client last)
    {query : Query} (code : Text) (hquery : makeQuery answeringEngine code editedPath = query)
    (hnew : last ≠ some query.source) :
    (client.lookup answeringEngine standingClock code editedPath false).2 =
      (client.recordDefinition query).sendDefinition standingClock query := by
  have hpath : editedPath.isEmpty = false := rfl
  have hother := isNewDefinition_editing h hnew
  have hready : (client.recordDefinition query).state = .ready := h.ready
  have hstart : (client.recordDefinition query).start standingClock false =
      (true, client.recordDefinition query) := by
    have hgoing : (client.recordDefinition query).shutdownStarted = false := h.notShutdown
    have hlives : (client.recordDefinition query).lifecycleShutdown = false :=
      h.noLifecycleShutdown
    simp only [start, hgoing, hlives, hready, Bool.or_self, Bool.false_eq_true, if_false]
  simp only [lookup, hpath, hquery, hother, hstart, afterStart, hready, Bool.false_eq_true,
    if_false, if_true, Bool.true_and, decide_true]

theorem lookup_editing {client : GzLspClient} {last : Option Text} (h : Editing client last)
    {code : Text} (hcode : code.filter (· ≠ caretMarker) = code) (hnew : last ≠ some code) :
    Editing (client.lookup answeringEngine standingClock code editedPath false).2 (some code) ∧
      (texts editedUri
        (client.lookup answeringEngine standingClock code editedPath false).2.sent).length =
          (texts editedUri client.sent).length + 1 := by
  obtain ⟨query, hquery, hsource, huri⟩ : ∃ query,
      makeQuery answeringEngine code editedPath = query ∧ query.source = code ∧
        query.uri = editedUri := ⟨_, rfl, hcode, rfl⟩
  have hdocument : ((client.recordDefinition query).documents query.uri).map Document.source ≠
      some query.source := by
    rw [hsource, huri]
    exact h.document ▸ hnew
  have hprocess : (client.recordDefinition query).hasProcess = true := h.process
  obtain ⟨version, message, hmessage, hsynchronize⟩ := synchronize_new hprocess query hdocument
  rw [lookup_eq h code hquery (hsource.symm ▸ hnew), sendDefinition, hsynchronize, request, send]
  split
  next =>
    refine ⟨⟨h.ready, h.process, h.notShutdown, h.noLifecycleShutdown, h.uncached, fun _ ↦ ?_, ?_⟩,
      ?_⟩
    · exact congrArg some hsource
    · change (Function.update client.documents query.uri (some ⟨query.source, version⟩)
        editedUri).map Document.source = some code
      rw [huri, Function.update_self, Option.map_some, hsource]
    · change (texts editedUri (client.sent ++ [message] ++ [_])).length = _
      rw [huri] at hmessage
      rw [texts_concat, texts_concat, hmessage]
      simp [sentText]
  next hstopped => exact absurd hprocess hstopped

/-- The server has been told that it is ready. -/
theorem edited_zero : Editing (run answeringEngine standingClock (longSession 0)) none where
  ready := by decide +kernel
  process := by decide +kernel
  notShutdown := by decide +kernel
  noLifecycleShutdown := by decide +kernel
  uncached := by decide +kernel
  pending := by decide +kernel
  document := by decide +kernel

theorem editedText_ne (number : ℕ) : editedText number ≠ editedText (number + 1) := by
  unfold editedText
  rcases Nat.mod_two_eq_zero_or_one number with heven | hodd
  · rw [if_pos heven, if_neg (by omega)]
    decide
  · rw [if_neg (by omega), if_pos (by omega)]
    decide

theorem filter_editedText (number : ℕ) :
    (editedText number).filter (· ≠ caretMarker) = editedText number := by
  unfold editedText
  split_ifs <;> decide

/-- After each edit the server has the new text. -/
theorem longSession_editing (count : ℕ) :
    Editing (run answeringEngine standingClock (longSession count))
      (if count = 0 then none else some (editedText (count - 1))) ∧
    (texts editedUri (run answeringEngine standingClock (longSession count)).sent).length =
      count := by
  induction count with
  | zero => exact ⟨edited_zero, by decide +kernel⟩
  | succ count ih =>
    obtain ⟨hediting, hlength⟩ := ih
    have hrun : run answeringEngine standingClock (longSession (count + 1)) =
        ((run answeringEngine standingClock (longSession count)).lookup answeringEngine
          standingClock (editedText count) editedPath false).2 := by
      rw [longSession, edits, ← List.append_assoc, run, exec_concat]
      rfl
    have hnew : (if count = 0 then none else some (editedText (count - 1))) ≠
        some (editedText count) := by
      split_ifs with hzero
      · exact (Option.some_ne_none _).symm
      · obtain ⟨previous, rfl⟩ := Nat.exists_eq_succ_of_ne_zero hzero
        simpa using editedText_ne previous
    obtain ⟨hnext, hmore⟩ := lookup_editing hediting (filter_editedText count) hnew
    rw [hrun, if_neg (Nat.succ_ne_zero count), Nat.add_sub_cancel, hmore, hlength]
    exact ⟨hnext, rfl⟩

/-- A text after some number of them, and the message that carried it. -/
theorem exists_sentText {uri : Text} {log : List ClientMessage} {count : ℕ}
    (h : count < (texts uri log).length) :
    ∃ before message after, log = before ++ message :: after ∧
      (texts uri before).length = count ∧ sentText uri message ≠ none := by
  induction log using List.reverseRecOn with
  | nil => exact absurd h (Nat.not_lt_zero count)
  | append_singleton log message ih =>
    rw [texts_concat, List.length_append] at h
    by_cases hearlier : count < (texts uri log).length
    · obtain ⟨before, other, after, rfl, hcount, hsome⟩ := ih hearlier
      exact ⟨before, other, after ++ [message], by simp, hcount, hsome⟩
    · cases htext : sentText uri message with
      | none =>
        rw [htext, Option.toList_none, List.length_nil] at h
        omega
      | some text =>
        rw [htext, Option.toList_some, List.length_singleton] at h
        refine ⟨log, message, [], rfl, by omega, ?_⟩
        rw [htext]
        exact Option.some_ne_none text

/-- A log in which a document has more texts than an `int32_t` can count. -/
theorem not_inOrder_of_lt {uri : Text} {log : List ClientMessage}
    (h : Synchronised counted log) (hmany : 2 ^ 31 - 1 < (texts uri log).length) :
    ¬ Synchronised inOrder log := by
  intro hinOrder
  obtain ⟨before, message, after, hlog, hcount, hsome⟩ := exists_sentText hmany
  have hcounted := (synchronised_iff_split log).mp h before message after hlog
  have hordered := (synchronised_iff_split log).mp hinOrder before message after hlog
  cases message with
  | didOpen other version text =>
    have huri : other = uri := by
      by_contra hne
      exact hsome (if_neg hne)
    rw [huri] at hcounted
    rw [hcounted.2.1] at hcount
    cases hcount
  | didChange other version text =>
    have huri : other = uri := by
      by_contra hne
      exact hsome (if_neg hne)
    rw [huri] at hcounted hordered
    have hnone : version = none := by
      rw [hcounted.2.2, hcount]
      exact versionAfter_of_lt (Nat.lt_succ_self _)
    have hversion := hordered.2.2
    rw [hnone, inOrder] at hversion
    cases hversion
  | _ => exact hsome rfl

theorem longSession_overflows {count : ℕ} (h : 2 ^ 31 - 1 < count) :
    ¬ ServersSynchronised inOrder (run answeringEngine standingClock (longSession count)) := by
  intro hall
  have hcounted := @run_synchronised answeringEngine standingClock (longSession count) _
    List.mem_cons_self
  have hmany : 2 ^ 31 - 1 <
      (texts editedUri (run answeringEngine standingClock (longSession count)).sent).length := by
    rw [(longSession_editing count).2]
    exact h
  exact not_inOrder_of_lt hcounted hmany (hall _ List.mem_cons_self)

/-- A document that is edited `2 ^ 31` times has no version any more. -/
theorem longSession_not_inOrder :
    ¬ ServersSynchronised inOrder (run answeringEngine standingClock (longSession (2 ^ 31))) :=
  longSession_overflows (by omega)

end LongSession

end Gzscript.Lsp.Synchronisation
