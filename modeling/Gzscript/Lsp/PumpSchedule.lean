import Gzscript.Library.Transition
import Gzscript.Lsp.Client
import Gzscript.Lsp.Frames

/-!
# The frames of a server under any schedule of pumps

A pump drains at most `pipeReadLimit` bytes of the pipe, handles at most `maxMessagesPerPump`
messages while a time budget lasts, and fails when more than `inputLimit` bytes are left over. How
many of the drained bytes are left over depends on the lengths of the frames and on the schedule
alone: it is a `Backlog`. The bodies are handled exactly once and in order, and the client does not
fail, exactly when no pump leaves more than `inputLimit` bytes of it (`delivered_iff_withinLimit`).

A pump drains more bytes than eight short messages take up, so a server that sends enough of them
is cut off (`progressReports_not_delivered`).
-/

set_option autoImplicit false
set_option relaxedAutoImplicit false

namespace Gzscript.Lsp.PumpSchedule

open Library.Bytes Library.StreamDecoder Library.FramedStream Library.Transition
open Framing Frames Client

/-- `PIPE_READ_LIMIT`. -/
def pipeReadLimit : ℕ := 64 * 1024

/-- `INPUT_LIMIT`. -/
def inputLimit : ℕ := headerLimit + 4 + messageLimit

/-- `MAX_MESSAGES_PER_PUMP`. -/
def maxMessagesPerPump : ℕ := 8

/-- `MESSAGE_BUDGET_USEC`. -/
def messageBudgetUsec : ℕ := 1500

def exceededInput : String := "ZLS exceeded the JSON-RPC input buffer limit"

/-- What a pump finds: the bytes available in the pipe, and the microseconds that have passed when
a number of messages are parsed. -/
structure Pump where
  available : ℕ
  elapsed : ℕ → ℕ

/-- `parse_messages`, with `left` messages to go. -/
def parseMessages (elapsed : ℕ → ℕ) : ℕ → GzLspClient → GzLspClient
  | 0, client => client
  | left + 1, client =>
    if messageBudgetUsec ≤ elapsed (maxMessagesPerPump - (left + 1)) then client
    else
      match parseMessage client.input with
      | .wait => client
      | .fail message => client.fail message
      | .deliver body rest =>
        parseMessages elapsed left
          { client with input := rest, handled := client.handled ++ [body] }

/-- `drain` of bytes into the input. -/
def drain (client : GzLspClient) (bytes : ByteString) : GzLspClient :=
  { client with input := client.input ++ bytes }

/-- The client, and what the server has written or will write that is not drained. -/
structure Connection where
  client : GzLspClient
  pipe : ByteString

/-- `pump`, as far as the input goes. -/
def Connection.pump (connection : Connection) (pump : Pump) : Connection :=
  match connection.client.failure with
  | some _ => connection
  | none =>
    let count := min pump.available pipeReadLimit
    let client := parseMessages pump.elapsed maxMessagesPerPump
      (drain connection.client (connection.pipe.take count))
    { client := if inputLimit < client.input.length then client.fail exceededInput else client
      pipe := connection.pipe.drop count }

/-- A new client, and a server that sends some bodies. -/
def connect (bodies : List Body) : Connection where
  client := initial
  pipe := frameCode.stream bodies

/-- The client has not failed, the bodies it has handled are the first ones, each once and in
order, and the frames of the others follow. -/
def Delivered (bodies : List Body) (connection : Connection) : Prop :=
  connection.client.failure = none ∧ ∃ done left, bodies = done ++ left ∧
    connection.client.handled = done.map Subtype.val ∧
    connection.client.input ++ connection.pipe = frameCode.stream left

/-! ### The backlog of a schedule -/

/-- The messages that the limits of a pump leave room for, with `left` to go. -/
def roundsFrom (elapsed : ℕ → ℕ) : ℕ → ℕ
  | 0 => 0
  | left + 1 =>
    if messageBudgetUsec ≤ elapsed (maxMessagesPerPump - (left + 1)) then 0
    else roundsFrom elapsed left + 1

def Pump.rounds (pump : Pump) : ℕ := roundsFrom pump.elapsed maxMessagesPerPump

/-- The frames that are not handled and the bytes of them that are drained, after a pump. -/
def pumpBacklog (backlog : Backlog) (pump : Pump) : Backlog :=
  (backlog.arrive (min pump.available pipeReadLimit)).serve pump.rounds

/-- No pump of the schedule leaves more than `inputLimit` drained bytes of frames that are not
handled. -/
def WithinLimit (bodies : List Body) (schedule : List Pump) : Prop :=
  Along pumpBacklog (fun backlog pump ↦ (pumpBacklog backlog pump).held ≤ inputLimit)
    (frameCode.backlog bodies 0) schedule

/-! ### One pump -/

/-- Parsing is decoding for as many rounds as the limits leave room for. -/
theorem parseMessages_eq (elapsed : ℕ → ℕ) (left : ℕ) (client : GzLspClient)
    (hnone : (drainUpTo messageDecoder (roundsFrom elapsed left) client.input).failure = none) :
    parseMessages elapsed left client =
      { client with
        input := (drainUpTo messageDecoder (roundsFrom elapsed left) client.input).rest
        handled := client.handled ++
          (drainUpTo messageDecoder (roundsFrom elapsed left) client.input).items } := by
  induction left generalizing client with
  | zero => simp [parseMessages, roundsFrom, drainUpTo]
  | succ left ih =>
    rw [roundsFrom] at hnone ⊢
    rw [parseMessages]
    by_cases hbudget : messageBudgetUsec ≤ elapsed (maxMessagesPerPump - (left + 1))
    · rw [if_pos hbudget, if_pos hbudget]
      simp [drainUpTo]
    · rw [if_neg hbudget] at hnone
      rw [if_neg hbudget, if_neg hbudget]
      cases hverdict : parseMessage client.input with
      | fail message =>
        have hrun : drainUpTo messageDecoder (roundsFrom elapsed left + 1) client.input =
            ⟨[], some message, client.input⟩ := drainUpTo_fail hverdict _
        rw [hrun] at hnone
        cases hnone
      | wait =>
        have hrun : drainUpTo messageDecoder (roundsFrom elapsed left + 1) client.input =
            ⟨[], none, client.input⟩ := drainUpTo_wait hverdict _
        rw [hrun, List.append_nil]
      | deliver body rest =>
        have hrun : drainUpTo messageDecoder (roundsFrom elapsed left + 1) client.input =
            (drainUpTo messageDecoder (roundsFrom elapsed left) rest).after [body] :=
          drainUpTo_deliver hverdict _
        rw [hrun, Run.after_failure] at hnone
        rw [hrun]
        refine (ih _ hnone).trans ?_
        simp

/-- A delivered connection, and its backlog. -/
def Tracks (bodies : List Body) (connection : Connection) (backlog : Backlog) : Prop :=
  connection.client.failure = none ∧ ∃ done left, bodies = done ++ left ∧
    connection.client.handled = done.map Subtype.val ∧
    connection.client.input ++ connection.pipe = frameCode.stream left ∧
    backlog = frameCode.backlog left connection.client.input.length

theorem Tracks.delivered {bodies : List Body} {connection : Connection} {backlog : Backlog}
    (htracks : Tracks bodies connection backlog) : Delivered bodies connection := by
  obtain ⟨hnone, done, left, hbodies, hhandled, hstream, -⟩ := htracks
  exact ⟨hnone, done, left, hbodies, hhandled, hstream⟩

/-- The bytes that a pump drains arrive in the backlog. -/
theorem arrive_drain {left : List Body} {client : GzLspClient} {pipe : ByteString}
    (hstream : client.input ++ pipe = frameCode.stream left) (count : ℕ) :
    (frameCode.backlog left client.input.length).arrive count =
      frameCode.backlog left (drain client (pipe.take count)).input.length := by
  have htotal := congrArg List.length hstream
  rw [List.length_append, frameCode.length_stream left client.input.length] at htotal
  rw [drain, List.length_append, List.length_take, Backlog.arrive, ← htotal,
    show (frameCode.backlog left client.input.length).held = client.input.length from rfl,
    Nat.add_sub_cancel_left]
  rfl

/-- A pump keeps track of the backlog, unless it leaves too much of it: then it fails. -/
theorem pump_tracks {bodies : List Body} {connection : Connection} {backlog : Backlog}
    (htracks : Tracks bodies connection backlog) (pump : Pump) :
    if (pumpBacklog backlog pump).held ≤ inputLimit then
      Tracks bodies (connection.pump pump) (pumpBacklog backlog pump)
    else (connection.pump pump).client.failure = some exceededInput := by
  obtain ⟨hnone, done, left, hbodies, hhandled, hstream, rfl⟩ := htracks
  set count := min pump.available pipeReadLimit with hcount
  set drained := drain connection.client (connection.pipe.take count) with hdrained
  have hrejoin : drained.input ++ connection.pipe.drop count = frameCode.stream left := by
    rw [hdrained, drain, List.append_assoc, List.take_append_drop, hstream]
  obtain ⟨handled, waiting, hleft, hitems, hfailure, hrest, hserve⟩ :=
    drainUpTo_stream frameCode pump.rounds hrejoin
  set run := drainUpTo messageDecoder pump.rounds drained.input with hrun
  have hbacklog : pumpBacklog (frameCode.backlog left connection.client.input.length) pump =
      frameCode.backlog waiting run.rest.length := by
    rw [pumpBacklog, arrive_drain hstream, hserve]
  have hparse := parseMessages_eq pump.elapsed maxMessagesPerPump drained hfailure
  have hpump : connection.pump pump =
      ⟨if inputLimit < run.rest.length then
          GzLspClient.fail ⟨run.rest, drained.handled ++ run.items, drained.failure⟩ exceededInput
        else ⟨run.rest, drained.handled ++ run.items, drained.failure⟩,
        connection.pipe.drop count⟩ := by
    simp only [Connection.pump, hnone, ← hcount, ← hdrained, hparse]
    rfl
  rw [hbacklog, hpump]
  change if run.rest.length ≤ inputLimit then _ else _
  split
  next hwithin =>
    rw [if_neg hwithin.not_gt]
    refine ⟨hnone, done ++ handled, waiting, ?_, ?_, hrest, rfl⟩
    · rw [hbodies, hleft, List.append_assoc]
    · rw [hitems, List.map_append, ← hhandled]
      rfl
  next hbeyond =>
    rw [if_pos (not_le.mp hbeyond)]
    rfl

theorem pump_failed {connection : Connection} {message : String}
    (hfailed : connection.client.failure = some message) (pump : Pump) :
    connection.pump pump = connection := by
  simp only [Connection.pump, hfailed]

/-! ### A schedule of pumps -/

theorem exec_failed {connection : Connection} {message : String}
    (hfailed : connection.client.failure = some message) (schedule : List Pump) :
    exec Connection.pump connection schedule = connection := by
  induction schedule with
  | nil => rfl
  | cons pump schedule ih => rw [exec_cons, pump_failed hfailed, ih]

/-- From a tracked connection, the rest of a schedule delivers exactly when the backlog stays
within the limit. -/
theorem exec_delivered_iff {bodies : List Body} {connection : Connection} {backlog : Backlog}
    (htracks : Tracks bodies connection backlog) (schedule : List Pump) :
    Delivered bodies (exec Connection.pump connection schedule) ↔
      Along pumpBacklog (fun backlog pump ↦ (pumpBacklog backlog pump).held ≤ inputLimit)
        backlog schedule := by
  induction schedule generalizing connection backlog with
  | nil => exact iff_of_true htracks.delivered trivial
  | cons pump schedule ih =>
    have hpump := pump_tracks htracks pump
    rw [exec_cons, along_cons]
    by_cases hwithin : (pumpBacklog backlog pump).held ≤ inputLimit
    · rw [if_pos hwithin] at hpump
      rw [ih hpump]
      exact (and_iff_right hwithin).symm
    · rw [if_neg hwithin] at hpump
      rw [exec_failed hpump]
      refine iff_of_false (fun hdelivered ↦ ?_) (fun halong ↦ hwithin halong.1)
      rw [hdelivered.1] at hpump
      cases hpump

theorem connect_tracks (bodies : List Body) :
    Tracks bodies (connect bodies) (frameCode.backlog bodies 0) :=
  ⟨rfl, [], bodies, rfl, rfl, rfl, rfl⟩

/-- The bodies a server sends are handled exactly once and in order, without a failure, exactly
when no pump leaves more than `inputLimit` bytes of frames that are drained and not handled. -/
theorem delivered_iff_withinLimit (bodies : List Body) (schedule : List Pump) :
    Delivered bodies (exec Connection.pump (connect bodies) schedule) ↔
      WithinLimit bodies schedule :=
  exec_delivered_iff (connect_tracks bodies) schedule

/-! ### A server that is cut off -/

/-- A notification that the server may send at any time. -/
def progressReport : Body :=
  ⟨ascii "\x7b\"jsonrpc\":\"2.0\",\"method\":\"$/progress\"\x7d", by decide⟩

/-- A pump of a pipe that is never empty, by a client that is never short of time. -/
def busyPump : Pump := ⟨pipeReadLimit, fun _ ↦ 0⟩

theorem rounds_busyPump : busyPump.rounds = 8 := by decide

theorem backlog_progressReports (count held : ℕ) :
    frameCode.backlog (List.replicate count progressReport) held =
      ⟨List.replicate count 61, held⟩ := by
  have hlength : (frameCode.word progressReport).length = 61 := by decide
  rw [Code.backlog, List.map_replicate, hlength]

/-- A busy pump drains `pipeReadLimit` bytes and handles eight reports. -/
theorem pumpBacklog_busyPump {count held : ℕ} (hpipe : held + 65048 ≤ count * 61) :
    pumpBacklog ⟨List.replicate (8 + count) 61, held⟩ busyPump =
      ⟨List.replicate count 61, held + 65048⟩ := by
  have harrive : Backlog.arrive (min busyPump.available pipeReadLimit)
      ⟨List.replicate (8 + count) 61, held⟩ = ⟨List.replicate (8 + count) 61, held + 65536⟩ := by
    have hsome : min (min 65536 65536) ((8 + count) * 61 - held) = 65536 := by omega
    simp only [Backlog.arrive, busyPump, pipeReadLimit, List.sum_replicate_nat, Nat.reduceMul,
      hsome]
  have hleft : held + 65536 - 8 * 61 = held + 65048 := by omega
  rw [pumpBacklog, harrive, rounds_busyPump, Backlog.serve_replicate 8 count (by omega), hleft]

theorem exec_busyPump (pumps count held : ℕ) (hpipe : held + pumps * 65048 ≤ count * 61) :
    exec pumpBacklog ⟨List.replicate (8 * pumps + count) 61, held⟩
        (List.replicate pumps busyPump) =
      ⟨List.replicate count 61, held + pumps * 65048⟩ := by
  induction pumps generalizing held with
  | zero => simp
  | succ pumps ih =>
    have hcount : 8 * (pumps + 1) + count = 8 + (8 * pumps + count) := by omega
    rw [List.replicate_succ, exec_cons, hcount, pumpBacklog_busyPump (by omega),
      ih (held + 65048) (by omega)]
    congr 1
    omega

/-- Enough short messages at once make the client give the server up. -/
theorem progressReports_not_delivered :
    ¬ Delivered (List.replicate 150000 progressReport)
      (exec Connection.pump (connect (List.replicate 150000 progressReport))
        (List.replicate 130 busyPump)) := by
  rw [exec_delivered_iff (connect_tracks _), along_iff_split, backlog_progressReports]
  intro hwithin
  have hsplit : List.replicate 130 busyPump = List.replicate 129 busyPump ++ [busyPump] :=
    List.replicate_succ'
  have hreached : exec pumpBacklog ⟨List.replicate 150000 61, 0⟩ (List.replicate 130 busyPump) =
      ⟨List.replicate 148960 61, 0 + 130 * 65048⟩ := exec_busyPump 130 148960 0 (by decide)
  have hlast := hwithin (List.replicate 129 busyPump) busyPump [] hsplit
  rw [hsplit, exec_concat] at hreached
  rw [hreached] at hlast
  exact absurd hlast (by decide)

end Gzscript.Lsp.PumpSchedule
