import Gzscript.Lsp.SessionFraming

/-!
# The buffers of a session

What is not drained stays in the pipes, and what is drained is bounded. Nothing but a drain makes
the input longer or changes the error output (`Within`). A pump that leaves too much input fails the
session, which drops the input but not the error output; the error output is trimmed before it grows
again, because the next pump starts without input and so does not fail for it.

`run_buffersBounded` bounds both buffers after every run, and `pump_drained_bounded` what they hold
in the middle of a pump.
-/

set_option autoImplicit false
set_option relaxedAutoImplicit false

namespace Gzscript.Lsp.BufferBounds

open Library.Bytes Library.Transition Framing Protocol Session Session.GzLspClient
open PumpSchedule (pipeReadLimit inputLimit)
open SessionFraming (trimStderr_untouched)

/-- The error output is within its limit, or a pump that failed the session has left one more
reading of the pipe. -/
structure Bounded (client : GzLspClient) : Prop where
  input : client.input.length ≤ inputLimit
  stderr : client.stderrOutput.length ≤ stderrLimit ∨
    client.stderrOutput.length ≤ stderrLimit + pipeReadLimit ∧ client.input = []

/-- The error output is the same, and the input is no longer. -/
structure Within (client other : GzLspClient) : Prop where
  input : other.input.length ≤ client.input.length
  stderr : other.stderrOutput = client.stderrOutput

variable {engine : Engine} {clock : Clock} {client other : GzLspClient}

theorem Within.refl (client : GzLspClient) : Within client client := ⟨le_rfl, rfl⟩

theorem Within.trans {last : GzLspClient} (h : Within client other) (h' : Within other last) :
    Within client last := ⟨h'.input.trans h.input, h'.stderr.trans h.stderr⟩

/-- Where the two buffers are the same. -/
theorem Within.of_eq (hinput : other.input = client.input)
    (hstderr : other.stderrOutput = client.stderrOutput) : Within client other :=
  ⟨(congrArg List.length hinput).le, hstderr⟩

theorem Within.bounded (h : Within client other) (hclient : Bounded client) : Bounded other := by
  refine ⟨h.input.trans hclient.input, ?_⟩
  rw [h.stderr]
  refine hclient.stderr.imp_right fun hfailed ↦ ⟨hfailed.1, List.eq_nil_of_length_eq_zero ?_⟩
  have hinput := h.input
  rw [hfailed.2] at hinput
  exact Nat.le_zero.mp hinput

/-! ### Sending -/

theorem send_within (client : GzLspClient) (message : ClientMessage) :
    Within client (client.send message) := by
  rw [send]
  split
  · exact .of_eq rfl rfl
  · exact .refl client

theorem request_within (client : GzLspClient) (message : ℤ → ClientMessage) (kind : RequestKind)
    (query : Query) : Within client (client.request clock message kind query) := by
  simp only [request]
  refine Within.trans ?_ (send_within _ _)
  exact .of_eq rfl rfl

theorem synchronize_within (client : GzLspClient) (query : Query) :
    Within client (client.synchronize query) := by
  have hset (document : Document) : Within client (client.setDocument query.uri document) :=
    .of_eq rfl rfl
  unfold synchronize
  split
  · exact (hset _).trans (send_within _ _)
  · split
    · exact .refl client
    · exact (hset _).trans (send_within _ _)

theorem sendDefinition_within (client : GzLspClient) (query : Query) :
    Within client (client.sendDefinition clock query) :=
  (synchronize_within client query).trans (request_within _ _ _ _)

theorem sendCompletion_within (client : GzLspClient) (query : Query) :
    Within client (client.sendCompletion clock query) := by
  have hrequest : Within client
      ((client.synchronize query).request clock (.completion · query) .completion query) :=
    (synchronize_within client query).trans (request_within _ _ _ _)
  exact ⟨hrequest.input, hrequest.stderr⟩

theorem fail_within (client : GzLspClient) (message : Text) :
    Within client (client.fail clock message) := ⟨Nat.zero_le _, rfl⟩

/-! ### The editor's calls -/

theorem launch_within (client : GzLspClient) (launches : Bool) :
    Within client (client.launch clock launches).2 := by
  have hconnect : Within client (client.connect clock) := .of_eq rfl rfl
  unfold launch
  split
  · exact hconnect.trans (request_within _ _ _ _)
  · exact fail_within _ _

theorem start_within (client : GzLspClient) (launches : Bool) :
    Within client (client.start clock launches).2 := by
  have hattempt (decidedMsec : Option ℕ) : Within client (client.attempt decidedMsec) :=
    .of_eq rfl rfl
  have hrestart (decidedMsec : Option ℕ) : Within client (client.restart.attempt decidedMsec) :=
    .of_eq rfl rfl
  unfold start
  split
  · exact .refl client
  · split
    · exact .refl client
    · exact .refl client
    · split_ifs
      · exact .refl client
      · exact .of_eq rfl rfl
      · exact (hrestart _).trans (launch_within _ _)
    · exact (hattempt _).trans (launch_within _ _)

theorem call_within (client : GzLspClient) (call : Call) :
    Within client (client.call engine clock call) := by
  cases call with
  | complete code path launches =>
    have hrecord (query : Query) : Within client (client.recordCompletion clock query) :=
      .of_eq rfl rfl
    simp only [GzLspClient.call, complete]
    split_ifs
    · exact .refl client
    · exact (hrecord _).trans (start_within _ _)
    · exact .refl client
    · exact .refl client
  | lookup code path launches =>
    have hrecord (query : Query) : Within client (client.recordDefinition query) := .of_eq rfl rfl
    simp only [GzLspClient.call, lookup]
    split_ifs
    · exact .refl client
    · have hstart (query : Query) :
          Within client ((client.recordDefinition query).start clock launches).2 :=
        (hrecord query).trans (start_within _ _)
      unfold afterStart
      split
      · exact (hstart _).trans (sendDefinition_within _ _)
      · exact hstart _
    · exact .refl client
    · exact .refl client

theorem calls_within (calls : List Call) (client : GzLspClient) :
    Within client (calls.foldl (GzLspClient.call engine clock) client) := by
  induction calls generalizing client with
  | nil => exact .refl client
  | cons call calls ih => exact (call_within client call).trans (ih _)

/-! ### The server's messages -/

theorem abandon_within (client : GzLspClient) (pending : Request) :
    Within client (client.abandon pending) := by
  unfold abandon
  split
  · exact .refl client
  · exact .of_eq rfl rfl
  · exact .of_eq rfl rfl

theorem handleAnswer_within (client : GzLspClient) (pending : Request)
    (message : List (Text × Json)) (listeners : List Call) :
    Within client (client.handleAnswer engine clock pending message listeners) := by
  simp only [handleAnswer]
  split
  next => exact abandon_within client pending
  next =>
    split
    next =>
      have hready : Within client (client.send .initialized).becomeReady :=
        (send_within client .initialized).trans (.of_eq rfl rfl)
      simp only [handleInitialized]
      split_ifs
      · exact fail_within _ _
      · exact hready.trans (sendDefinition_within _ _)
      · exact hready
    next =>
      simp only [handleCompletion]
      split_ifs
      · refine Within.trans ?_ (calls_within listeners _)
        exact .of_eq rfl rfl
      · exact .of_eq rfl rfl
    next =>
      unfold handleDefinition
      split_ifs
      · exact .of_eq rfl rfl
      · exact .refl client

theorem handleBody_within (client : GzLspClient) (body : ByteString) (listeners : List Call) :
    Within client (client.handleBody engine clock body listeners) := by
  unfold handleBody
  split
  next message _ =>
    have hreceive : Within client (client.receive (.dictionary message)) := .of_eq rfl rfl
    unfold handle
    split_ifs
    · exact hreceive.trans (send_within _ _)
    · unfold handleResponse
      split
      · exact hreceive
      next id pending _ =>
        have herase (id : ℤ) :
            Within client ((client.receive (.dictionary message)).eraseRequest id) :=
          .of_eq rfl rfl
        exact (herase _).trans (handleAnswer_within _ pending message listeners)
    · exact hreceive
  next => exact .refl client

theorem parseMessages_within (pump : PumpInput) (left : ℕ) (client : GzLspClient) :
    Within client (parseMessages engine clock pump left client) := by
  induction left generalizing client with
  | zero => exact .refl client
  | succ left ih =>
    simp only [parseMessages]
    split
    next => exact .refl client
    next =>
      split
      next => exact .refl client
      next => exact fail_within _ _
      next body rest hverdict =>
        have hshorter : rest.length < client.input.length :=
          messageDecoder.shrinks client.input body rest hverdict
        have hinput : Within client (client.setInput rest) := ⟨hshorter.le, rfl⟩
        exact (hinput.trans (handleBody_within _ body _)).trans (ih _)

/-! ### Pumping -/

theorem serve_within (client : GzLspClient) : Within client (client.serve clock) := by
  have hfold (expired : List Request) (start : GzLspClient) :
      Within start (expired.foldl abandon start) := by
    induction expired generalizing start with
    | nil => exact .refl start
    | cons pending expired ih => exact (abandon_within start pending).trans (ih _)
  have hexpire (now : ℕ) : Within client (client.read.expireRequests now) := by
    refine Within.trans ?_ (hfold _ _)
    exact .of_eq rfl rfl
  simp only [serve]
  split
  · exact (hexpire _).trans (sendCompletion_within _ _)
  · exact hexpire _

theorem read_bounded (h : Bounded client) : Bounded client.read := ⟨h.input, h.stderr⟩

theorem length_trimStderr (client : GzLspClient) :
    client.trimStderr.stderrOutput.length ≤ stderrLimit := by
  have hset (stderrOutput : ByteString) :
      (client.setStderr stderrOutput).stderrOutput = stderrOutput := rfl
  rw [trimStderr, hset, List.length_drop]
  omega

/-- After the messages, the error output is within its limit unless there was too much input. -/
theorem afterParsing_bounded (pump : PumpInput)
    (hstderr : client.input.length ≤ inputLimit ∨
      client.stderrOutput.length ≤ stderrLimit + pipeReadLimit) :
    Bounded (client.afterParsing engine clock pump) := by
  by_cases hinput : inputLimit < client.input.length
  · simp only [afterParsing]
    rw [if_pos hinput]
    exact ⟨Nat.zero_le _, .inr ⟨hstderr.resolve_left hinput.not_ge, rfl⟩⟩
  · have hsame : client.trimStderr.input = client.input := (trimStderr_untouched client).input
    have htrim : Bounded client.trimStderr := by
      refine ⟨?_, .inl (length_trimStderr client)⟩
      rw [hsame]
      exact not_lt.mp hinput
    have hread : Bounded client.trimStderr.read := read_bounded htrim
    simp only [afterParsing]
    rw [if_neg hinput]
    split_ifs
    · exact (fail_within _ _).bounded htrim
    · exact (fail_within _ _).bounded hread
    · exact (serve_within _).bounded hread
    · exact (serve_within _).bounded htrim

/-- What the buffers hold in the middle of a pump. -/
theorem pump_drained_bounded (h : Bounded client) (pump : PumpInput) :
    (client.drain pump).input.length ≤ inputLimit + pipeReadLimit ∧
      ((client.drain pump).input.length ≤ inputLimit ∨
        (client.drain pump).stderrOutput.length ≤ stderrLimit + pipeReadLimit) ∧
      (client.drain pump).stderrOutput.length ≤ stderrLimit + 2 * pipeReadLimit := by
  have hinput := h.input
  have hout : (pump.stdout.take pipeReadLimit).length ≤ pipeReadLimit := List.length_take_le _ _
  have herr : (pump.stderr.take pipeReadLimit).length ≤ pipeReadLimit := List.length_take_le _ _
  have hroom : pipeReadLimit ≤ inputLimit := by decide
  simp only [drain, List.length_append]
  obtain hwithin | ⟨hbeyond, hempty⟩ := h.stderr
  · refine ⟨by omega, .inr (by omega), by omega⟩
  · rw [hempty, List.length_nil]
    refine ⟨by omega, .inl (by omega), by omega⟩

theorem pump_bounded (h : Bounded client) (pump : PumpInput) :
    Bounded (client.pump engine clock pump) := by
  unfold GzLspClient.pump
  split_ifs
  · exact h
  · exact h
  · obtain ⟨-, hdrained, -⟩ := pump_drained_bounded h pump
    have hparsed : Within (client.drain pump)
        (parseMessages engine clock pump PumpSchedule.maxMessagesPerPump (client.drain pump)) :=
      parseMessages_within pump _ _
    refine afterParsing_bounded pump ?_
    rw [hparsed.stderr]
    exact hdrained.imp_left hparsed.input.trans

theorem shutdown_within (client : GzLspClient) (isProcessRunning : Bool) :
    Within client (client.shutdown isProcessRunning) := by
  unfold GzLspClient.shutdown
  split
  · exact .refl client
  · refine ⟨Nat.zero_le _, ?_⟩
    split
    · exact (send_within client .exit).stderr
    · rfl

/-! ### Runs -/

theorem step_bounded (client : GzLspClient) (op : Op) (h : Bounded client) :
    Bounded (step engine clock client op) := by
  cases op with
  | call call => exact (call_within client call).bounded h
  | pump pump => exact pump_bounded h pump
  | shutdown isProcessRunning => exact (shutdown_within client isProcessRunning).bounded h
  | beginLifecycleShutdown => exact ⟨h.input, h.stderr⟩

variable (engine clock)

/-- Whatever the server writes, a session keeps no more than `inputLimit` bytes of input and
`stderrLimit + pipeReadLimit` bytes of error output between two operations, and at most one and two
readings of a pipe more while it parses. -/
theorem run_buffersBounded (ops : List Op) (pump : PumpInput) :
    (run engine clock ops).input.length ≤ inputLimit ∧
      (run engine clock ops).stderrOutput.length ≤ stderrLimit + pipeReadLimit ∧
      ((run engine clock ops).drain pump).input.length ≤ inputLimit + pipeReadLimit ∧
      ((run engine clock ops).drain pump).stderrOutput.length ≤
        stderrLimit + 2 * pipeReadLimit := by
  have hinitial : Bounded initial := ⟨Nat.zero_le _, .inl (Nat.zero_le _)⟩
  have hbounded : Bounded (run engine clock ops) :=
    exec_invariant (step engine clock) Bounded step_bounded hinitial ops
  obtain ⟨hinput, -, hstderr⟩ := pump_drained_bounded hbounded pump
  refine ⟨hbounded.input, ?_, hinput, hstderr⟩
  obtain hwithin | ⟨hbeyond, -⟩ := hbounded.stderr
  · exact hwithin.trans (Nat.le_add_right _ _)
  · exact hbeyond

end Gzscript.Lsp.BufferBounds
