import Gzscript.Lsp.PendingQueries

/-!
# The input of a session

As long as a session's server is live, its pumps read the pipe as the pumps of `PumpSchedule` do
(`pump_framing`): what a message does to the session leaves the rest of the input alone, unless it
fails the session (`handleBody_input`). So a schedule that keeps within the limit of the backlog is
delivered to the session as well.
-/

set_option autoImplicit false
set_option relaxedAutoImplicit false

namespace Gzscript.Lsp.SessionFraming

open Library.Bytes Framing Protocol Session Session.GzLspClient Synchronisation PendingQueries

variable {engine : Engine} {clock : Clock}

/-- The session goes on with the same input, or has failed and dropped it. -/
def Continues (client other : GzLspClient) : Prop :=
  (IsLive other ∧ other.input = client.input) ∨ (other.state = .failed ∧ other.input = [])

/-- A step in the same state with the same input. -/
theorem continues_of_untouched {client other : GzLspClient} (h : IsLive client)
    (hsame : Untouched client other) : Continues client other :=
  .inl ⟨(isLive_congr hsame.state).mpr h, hsame.input⟩

theorem handleAnswer_continues {client : GzLspClient} (h : IsLive client) (pending : Request)
    (message : List (Text × Json)) (listeners : List Call) :
    Continues client (client.handleAnswer engine clock pending message listeners) := by
  simp only [handleAnswer]
  split
  next => exact continues_of_untouched h (abandon_untouched _ _)
  next =>
    split
    next =>
      simp only [handleInitialized]
      split_ifs
      · exact .inr ⟨rfl, rfl⟩
      · exact .inl ⟨.inr (sendDefinition_untouched _ _).state,
          (sendDefinition_untouched _ _).input.trans (send_untouched client .initialized).input⟩
      · exact .inl ⟨.inr rfl, (send_untouched client .initialized).input⟩
    next =>
      have hflight : IsLive (client.setInFlight false) := h
      simp only [handleCompletion]
      split_ifs
      · have hcache (query : Query) (result : Json) :
            IsLive ((client.setInFlight false).cacheCompletion engine query result) := h
        exact .inl
          ⟨calls_live (hcache _ _) listeners, (calls_untouched (hcache _ _) listeners).input⟩
      · exact continues_of_untouched h ⟨rfl, rfl, rfl⟩
    next =>
      unfold handleDefinition
      split_ifs
      · exact continues_of_untouched h ⟨rfl, rfl, rfl⟩
      · exact continues_of_untouched h ⟨rfl, rfl, rfl⟩

/-- A message leaves the input alone, unless it fails the session. -/
theorem handleBody_input {client : GzLspClient} (h : IsLive client) (body : ByteString)
    (listeners : List Call) : Continues client (client.handleBody engine clock body listeners) := by
  unfold handleBody
  split
  next message _ =>
    have hreceived (id : ℤ) : IsLive ((client.receive (.dictionary message)).eraseRequest id) := h
    unfold handle
    split_ifs
    · refine continues_of_untouched h (.trans ?_ (send_untouched _ _))
      exact ⟨rfl, rfl, rfl⟩
    · unfold handleResponse
      split
      next => exact continues_of_untouched h ⟨rfl, rfl, rfl⟩
      next pending _ => exact handleAnswer_continues (hreceived _) pending message listeners
    · exact continues_of_untouched h ⟨rfl, rfl, rfl⟩
  next => exact continues_of_untouched h ⟨rfl, rfl, rfl⟩

/-- A session without input parses nothing. -/
theorem parseMessages_empty {client : GzLspClient} (hinput : client.input = []) (pump : PumpInput)
    (left : ℕ) :
    parseMessages engine clock pump left client = client := by
  have hwait : parseMessage client.input = .wait := by
    rw [hinput]
    exact messageDecoder.verdict_nil
  cases left with
  | zero => rfl
  | succ left =>
    simp only [parseMessages, hwait]
    split <;> rfl

theorem not_isLive_failed {client : GzLspClient} (hfailed : client.state = .failed) :
    ¬ IsLive client := by
  rw [IsLive, hfailed]
  simp

/-- A session that is live after parsing has parsed what the framing client parses. -/
theorem parseMessages_framing (pump : PumpInput) (left : ℕ) {client : GzLspClient}
    (h : IsLive client) (handled : List ByteString)
    (hafter : IsLive (parseMessages engine clock pump left client)) :
    (parseMessages engine clock pump left client).input =
        (PumpSchedule.parseMessages pump.elapsed left ⟨client.input, handled, none⟩).input ∧
      (PumpSchedule.parseMessages pump.elapsed left ⟨client.input, handled, none⟩).failure =
        none := by
  induction left generalizing client handled with
  | zero => exact ⟨rfl, rfl⟩
  | succ left ih =>
    simp only [parseMessages] at hafter ⊢
    simp only [PumpSchedule.parseMessages]
    split
    next => exact ⟨rfl, rfl⟩
    next hbudget =>
      rw [if_neg hbudget] at hafter
      cases hverdict : parseMessage client.input with
      | wait => exact ⟨rfl, rfl⟩
      | fail message =>
        rw [hverdict] at hafter
        exact absurd hafter (not_isLive_failed rfl)
      | deliver body rest =>
        rw [hverdict] at hafter
        have hinput : IsLive (client.setInput rest) := h
        have hcontinues : Continues (client.setInput rest) ((client.setInput rest).handleBody engine
            clock body (pump.listeners (PumpSchedule.maxMessagesPerPump - (left + 1)))) :=
          handleBody_input hinput body _
        obtain ⟨hlive, hrest⟩ | ⟨hfailed, hempty⟩ := hcontinues
        · have hnext := ih hlive (handled ++ [body]) hafter
          rw [hrest] at hnext
          exact hnext
        · dsimp only at hafter
          rw [parseMessages_empty hempty] at hafter
          exact absurd hafter (not_isLive_failed hfailed)

/-! ### One pump -/

theorem expireRequests_untouched (client : GzLspClient) (now : ℕ) :
    Untouched client (client.expireRequests now) := by
  have hfold (expired : List Request) (start : GzLspClient) :
      Untouched start (expired.foldl abandon start) := by
    induction expired generalizing start with
    | nil => exact .refl start
    | cons pending expired ih => exact (abandon_untouched start pending).trans (ih _)
  refine .trans ?_ (hfold _ _)
  exact ⟨rfl, rfl, rfl⟩

theorem read_untouched (client : GzLspClient) : Untouched client client.read := ⟨rfl, rfl, rfl⟩

theorem setStderr_untouched (client : GzLspClient) (stderrOutput : ByteString) :
    Untouched client (client.setStderr stderrOutput) := ⟨rfl, rfl, rfl⟩

theorem trimStderr_untouched (client : GzLspClient) : Untouched client client.trimStderr :=
  setStderr_untouched client _

theorem serve_untouched (client : GzLspClient) : Untouched client (client.serve clock) := by
  have hread (now : ℕ) : Untouched client (client.read.expireRequests now) :=
    (read_untouched client).trans (expireRequests_untouched client.read now)
  simp only [serve]
  split
  · exact (hread _).trans (sendCompletion_untouched _ _)
  · exact hread _

/-- A session that is live after a pump was live when the messages were parsed, and has at most
`inputLimit` bytes left over. -/
theorem afterParsing_live {client : GzLspClient} (pump : PumpInput)
    (hafter : IsLive (client.afterParsing engine clock pump)) :
    IsLive client ∧ client.input.length ≤ PumpSchedule.inputLimit ∧
      (client.afterParsing engine clock pump).input = client.input := by
  have hfail (failing : GzLspClient) (message : Text) : ¬ IsLive (failing.fail clock message) :=
    not_isLive_failed rfl
  simp only [afterParsing] at hafter ⊢
  split_ifs at hafter ⊢ with hlimit
  · exact absurd hafter (hfail _ _)
  · exact absurd hafter (hfail _ _)
  · exact absurd hafter (hfail _ _)
  · have hserve : Untouched client (client.trimStderr.read.serve clock) :=
      ((trimStderr_untouched client).trans (read_untouched _)).trans (serve_untouched _)
    exact ⟨(isLive_congr hserve.state).mp hafter, not_lt.mp hlimit, hserve.input⟩
  · have hserve : Untouched client (client.trimStderr.serve clock) :=
      (trimStderr_untouched client).trans (serve_untouched _)
    exact ⟨(isLive_congr hserve.state).mp hafter, not_lt.mp hlimit, hserve.input⟩

/-- A pump that leaves the session live does to its input what a pump does to a connection with
the same input and the same bytes in the pipe, which does not fail. -/
theorem pump_framing {client : GzLspClient} (h : IsLive client)
    (hrunning : client.shutdownStarted = false) (pump : PumpInput) (handled : List ByteString)
    (hafter : IsLive (client.pump engine clock pump)) :
    let connection := PumpSchedule.Connection.pump ⟨⟨client.input, handled, none⟩, pump.stdout⟩
      ⟨pump.stdout.length, pump.elapsed⟩
    connection.client.failure = none ∧
      (client.pump engine clock pump).input = connection.client.input := by
  have hlive : ¬ (decide (client.state ≠ .initializing) && decide (client.state ≠ .ready)) = true :=
    by rcases h with hstate | hstate <;> simp [hstate]
  have hcount : pump.stdout.take (min pump.stdout.length PumpSchedule.pipeReadLimit) =
      pump.stdout.take PumpSchedule.pipeReadLimit := by
    rw [List.take_eq_take_iff]
    omega
  rw [GzLspClient.pump, hrunning, if_neg Bool.false_ne_true, if_neg hlive] at hafter ⊢
  obtain ⟨hparsed, hlimit, hinput⟩ := afterParsing_live pump hafter
  have hdrain : IsLive (client.drain pump) := h
  obtain ⟨hframed, hnone⟩ := parseMessages_framing pump _ hdrain handled hparsed
  simp only [PumpSchedule.Connection.pump, PumpSchedule.drain, hcount]
  rw [hframed] at hlimit
  rw [if_neg]
  · exact ⟨hnone, hinput.trans hframed⟩
  · exact hlimit.not_gt

end Gzscript.Lsp.SessionFraming
