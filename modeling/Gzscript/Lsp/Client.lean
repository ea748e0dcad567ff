import Gzscript.Lsp.Framing

/-!
# Reading the language server's output

`GzLspClient` is the part of the client that `parse_messages` reads and writes. `receive` appends
the bytes of one read of the pipe and parses to quiescence; a failed client reads no more.

The bytes are decoded the same however the reads cut them exactly when no cut falls inside the
terminator of an accepted header after more than `headerLimit` bytes of the message
(`receiveAll_sameStream_iff`): there the part of the terminator that has arrived counts as header.
`splitTerminator_fails` is such a stream.
-/

set_option autoImplicit false
set_option relaxedAutoImplicit false

namespace Gzscript.Lsp.Client

open Library.Bytes Library.StreamDecoder Framing

/-- The buffered input, the bodies handed over so far and, in the failed state, its message. -/
structure GzLspClient where
  input : ByteString
  handled : List ByteString
  failure : Option String
  deriving DecidableEq

def initial : GzLspClient := ⟨[], [], none⟩

/-- `fail`, which also drops the input. -/
def GzLspClient.fail (client : GzLspClient) (message : String) : GzLspClient :=
  { client with input := [], failure := some message }

/-- `parse_messages`, until it fails or has to wait. -/
def GzLspClient.parseMessages (client : GzLspClient) : GzLspClient :=
  let run := messageDecoder.drain client.input
  let client := { client with input := run.rest, handled := client.handled ++ run.items }
  match run.failure with
  | some message => client.fail message
  | none => client

/-- One `pump`: append what the pipe holds and parse, unless the client has failed. -/
def GzLspClient.receive (client : GzLspClient) (chunk : ByteString) : GzLspClient :=
  match client.failure with
  | some _ => client
  | none => parseMessages { client with input := client.input ++ chunk }

/-- The client after the chunks, one `pump` for each. -/
def receiveAll (chunks : List ByteString) : GzLspClient :=
  chunks.foldl GzLspClient.receive initial

/-- The same bodies in the same order, both failed or neither, and the same input left over unless
they failed. -/
def SameStream (first second : GzLspClient) : Prop :=
  first.handled = second.handled ∧ first.failure.isSome = second.failure.isSome ∧
    (first.failure = none → first.input = second.input)

/-- The offsets at which the messages of a stream begin: the start, and the end of every complete
message with an accepted header. -/
inductive MessageStart (bytes : ByteString) : ℕ → Prop
  | first : MessageStart bytes 0
  | next {start headerEnd length : ℕ} : MessageStart bytes start →
      AcceptedHeader (bytes.drop start) headerEnd length →
      start + (headerEnd + 4 + length) ≤ bytes.length →
      MessageStart bytes (start + (headerEnd + 4 + length))

/-- The cut falls inside the terminator of an accepted header, after more than `headerLimit` bytes
of the message. -/
def SplitsTerminator (bytes : ByteString) (cut : ℕ) : Prop :=
  ∃ start headerEnd length, MessageStart bytes start ∧
    AcceptedHeader (bytes.drop start) headerEnd length ∧
    start + headerLimit < cut ∧ cut < start + headerEnd + 4

/-! ### The client as a run of the decoder -/

/-- The client that has made a run. -/
def ofRun (run : Run UInt8 ByteString String) : GzLspClient where
  input := if run.failure.isSome then [] else run.rest
  handled := run.items
  failure := run.failure

theorem receive_ofRun (run : Run UInt8 ByteString String) (chunk : ByteString) :
    (ofRun run).receive chunk = ofRun (messageDecoder.feed run chunk) := by
  cases hfailure : run.failure with
  | some message => simp [GzLspClient.receive, Decoder.feed, ofRun, hfailure]
  | none =>
    simp only [GzLspClient.receive, GzLspClient.parseMessages, Decoder.feed, ofRun, hfailure]
    cases hnext : (messageDecoder.drain (run.rest ++ chunk)).failure <;>
      simp [GzLspClient.fail, hnext]

theorem receiveAll_eq_ofRun (chunks : List ByteString) :
    receiveAll chunks = ofRun (messageDecoder.feedAll ⟨[], none, []⟩ chunks) := by
  have hfold (run : Run UInt8 ByteString String) :
      chunks.foldl GzLspClient.receive (ofRun run) = ofRun (messageDecoder.feedAll run chunks) := by
    induction chunks generalizing run with
    | nil => rfl
    | cons chunk chunks ih =>
      rw [List.foldl_cons, receive_ofRun, ih]
      rfl
  exact hfold ⟨[], none, []⟩

theorem receiveAll_single (bytes : ByteString) :
    receiveAll [bytes] = ofRun (messageDecoder.drain bytes) := by
  rw [receiveAll_eq_ofRun, feedAll_cons rfl]
  rfl

theorem sameStream_ofRun_iff (first second : Run UInt8 ByteString String) :
    SameStream (ofRun first) (ofRun second) ↔ first.Agree second := by
  refine and_congr_right fun _ ↦ and_congr_right fun hfailures ↦ forall_congr' fun hnone ↦ ?_
  have hfirst : first.failure = none := hnone
  have hsecond : second.failure = none := by simpa [ofRun, hfirst] using hfailures
  simp [ofRun, hfirst, hsecond]

/-! ### Where a run stops -/

theorem messageStart_le {bytes : ByteString} {start : ℕ} (h : MessageStart bytes start) :
    start ≤ bytes.length := by
  cases h with
  | first => exact Nat.zero_le _
  | next _ _ hcomplete => exact hcomplete

/-- The messages that begin within a first part are those of the first part. -/
theorem messageStart_append_iff {bytes : ByteString} {start : ℕ} (hstart : start ≤ bytes.length)
    (more : ByteString) : MessageStart (bytes ++ more) start ↔ MessageStart bytes start := by
  constructor
  · intro h
    induction h with
    | first => exact .first
    | @next start headerEnd length _ haccepted _ ih =>
      rw [List.drop_append_of_le_length (by omega)] at haccepted
      have hfits : headerEnd + 4 ≤ (bytes.drop start).length := by
        rw [List.length_drop]
        omega
      exact .next (ih (by omega)) ((acceptedHeader_append_iff hfits more).mp haccepted) hstart
  · intro h
    induction h with
    | first => exact .first
    | @next start headerEnd length hbefore haccepted hcomplete ih =>
      have hle := messageStart_le hbefore
      refine .next (ih hle) ?_ (by rw [List.length_append]; omega)
      rw [List.drop_append_of_le_length hle]
      exact (acceptedHeader_append_iff (headerEnd_fits haccepted.found) more).mpr haccepted

/-- A complete message with an accepted header is delivered. -/
theorem drain_message {input : ByteString} {headerEnd length : ℕ}
    (haccepted : AcceptedHeader input headerEnd length)
    (hcomplete : headerEnd + 4 + length ≤ input.length) :
    messageDecoder.drain input =
      (messageDecoder.drain (input.drop (headerEnd + 4 + length))).after
        [(input.drop (headerEnd + 4)).take length] := by
  refine drain_deliver ?_
  change parseMessage input = _
  rw [parseMessage_accepted haccepted, if_neg hcomplete.not_gt]

/-- The run on a stream passes every message start. -/
theorem drain_messageStart {bytes : ByteString} {start : ℕ} (h : MessageStart bytes start) :
    ∃ items, messageDecoder.drain bytes =
      (messageDecoder.drain (bytes.drop start)).after items := by
  induction h with
  | first => exact ⟨[], rfl⟩
  | @next start headerEnd length _ haccepted hcomplete ih =>
    obtain ⟨items, hitems⟩ := ih
    have hrest : (bytes.drop start).drop (headerEnd + 4 + length) =
        bytes.drop (start + (headerEnd + 4 + length)) := List.drop_drop ..
    rw [drain_message haccepted (by rw [List.length_drop]; omega), Run.after_after, hrest] at hitems
    exact ⟨_, hitems⟩

/-- The run on a stream stops at a message start. -/
theorem exists_messageStart_drain_rest (bytes : ByteString) :
    ∃ start, MessageStart bytes start ∧ (messageDecoder.drain bytes).rest = bytes.drop start := by
  have hfrom (held : ByteString) : ∀ start, MessageStart bytes start → held = bytes.drop start →
      ∃ start, MessageStart bytes start ∧
        (messageDecoder.drain held).rest = bytes.drop start := by
    induction held using Decoder.drain.induct messageDecoder with
    | case1 held message hverdict =>
      intro start hstart hheld
      exact ⟨start, hstart, by rw [drain_fail hverdict, hheld]⟩
    | case2 held hverdict =>
      intro start hstart hheld
      exact ⟨start, hstart, by rw [drain_wait hverdict, hheld]⟩
    | case3 held body rest hverdict ih =>
      intro start hstart hheld
      obtain ⟨headerEnd, length, haccepted, hcomplete, -, hrest⟩ :=
        acceptedHeader_of_deliver hverdict
      rw [hheld, List.length_drop] at hcomplete
      rw [hheld] at haccepted
      have hle := messageStart_le hstart
      have hnext := MessageStart.next hstart haccepted (by omega)
      rw [drain_deliver hverdict, Run.after_rest]
      exact ih _ hnext (by rw [hrest, hheld, List.drop_drop])
  exact hfrom bytes 0 .first rfl

/-- A failure is premature exactly at a cut inside the terminator of a long accepted header. -/
theorem premature_iff (before after : ByteString) :
    messageDecoder.Premature before after ↔
      SplitsTerminator (before ++ after) before.length := by
  constructor
  · rintro ⟨hfailed, hcontinues⟩
    obtain ⟨start, hstart, hrest⟩ := exists_messageStart_drain_rest before
    have hle := messageStart_le hstart
    obtain ⟨message, hmessage⟩ := Option.ne_none_iff_exists'.mp hfailed
    have hfail : messageDecoder.verdict (before.drop start) = .fail message := by
      rw [← hrest, verdict_drain_rest, hmessage, Option.elim_some]
    rw [hrest] at hcontinues
    obtain ⟨hopen, hlong⟩ := header_open_of_fail hfail hcontinues
    obtain ⟨headerEnd, length, haccepted⟩ :=
      exists_acceptedHeader hcontinues (by rw [List.length_append]; omega)
    have hpast : (before.drop start).length < headerEnd + 4 := by
      by_contra hfits
      have hfound := ((acceptedHeader_append_iff (not_lt.mp hfits) after).mp haccepted).found
      rw [hopen] at hfound
      cases hfound
    rw [← List.drop_append_of_le_length hle] at haccepted
    rw [List.length_drop] at hlong hpast
    exact ⟨start, headerEnd, length, (messageStart_append_iff hle after).mpr hstart, haccepted,
      by omega, by omega⟩
  · rintro ⟨start, headerEnd, length, hstart, haccepted, hlong, hinside⟩
    have hle : start ≤ before.length := by omega
    rw [List.drop_append_of_le_length hle] at haccepted
    have hopen : find headerTerminator (before.drop start) = none :=
      header_open_of_short haccepted (by rw [List.length_drop]; omega)
    have hfail : messageDecoder.verdict (before.drop start) = .fail oversizedHeader := by
      change parseMessage _ = _
      rw [parseMessage_incomplete hopen, if_pos (by rw [List.length_drop]; omega)]
    obtain ⟨items, hitems⟩ := drain_messageStart ((messageStart_append_iff hle after).mp hstart)
    rw [drain_fail hfail] at hitems
    rw [Decoder.Premature, hitems]
    exact ⟨by simp, parseMessage_ne_fail haccepted⟩

theorem sameStream_iff_premature (chunks : List ByteString) :
    SameStream (receiveAll chunks) (receiveAll [chunks.flatten]) ↔
      ∀ before after, chunks = before ++ after →
        ¬ messageDecoder.Premature before.flatten after.flatten := by
  rw [receiveAll_single, receiveAll_eq_ofRun, sameStream_ofRun_iff,
    feedAll_agree_iff messageDecoder_local]

/-- Reads that cut a stream decode it as one read does exactly when no cut falls inside the
terminator of an accepted header after more than `headerLimit` bytes of the message. -/
theorem receiveAll_sameStream_iff (chunks : List ByteString) :
    SameStream (receiveAll chunks) (receiveAll [chunks.flatten]) ↔
      ∀ before after, chunks = before ++ after →
        ¬ SplitsTerminator chunks.flatten before.flatten.length := by
  rw [sameStream_iff_premature]
  refine forall_congr' fun before ↦ forall_congr' fun after ↦ forall_congr' fun hsplit ↦ ?_
  rw [premature_iff, ← List.flatten_append, ← hsplit]

/-! ### A stream that fails when it is cut -/

/-- A line that no one reads and the length of an empty body. -/
def paddedHeader (padding : ℕ) : ByteString :=
  List.replicate padding 65 ++ (lineBreak ++ ascii "Content-Length: 0")

theorem length_paddedHeader (padding : ℕ) : (paddedHeader padding).length = padding + 19 := by
  rw [paddedHeader, List.length_append, List.length_replicate]
  rfl

theorem acceptedHeader_paddedHeader {padding : ℕ} (hwithin : padding + 19 ≤ headerLimit) :
    AcceptedHeader (paddedHeader padding ++ headerTerminator) (padding + 19) 0 := by
  have hbytes : paddedHeader padding ++ headerTerminator = List.replicate padding 65 ++
      (lineBreak ++ (ascii "Content-Length: 0" ++ headerTerminator)) := by
    simp only [paddedHeader, List.append_assoc]
  have hbreak : find [13, 10] (lineBreak ++ (ascii "Content-Length: 0" ++ headerTerminator)) =
      some 0 := by decide
  have hterminator : find [13, 10, 13, 10]
      (lineBreak ++ (ascii "Content-Length: 0" ++ headerTerminator)) = some 19 := by decide
  have hfirst : lineEnd (paddedHeader padding ++ headerTerminator) (padding + 19) 0 = padding := by
    have hfind : find lineBreak (paddedHeader padding ++ headerTerminator) = some padding := by
      rw [hbytes]
      exact (find_replicate_append (by decide) _ _).trans (by rw [hbreak]; rfl)
    rw [lineEnd, List.drop_zero, hfind]
    simp
  have hpadding : lineAt (paddedHeader padding ++ headerTerminator) (padding + 19) 0 =
      List.replicate padding 65 := by
    rw [lineAt, hfirst, hbytes]
    exact List.take_left' List.length_replicate
  have hrest : (paddedHeader padding ++ headerTerminator).drop (padding + 2) =
      ascii "Content-Length: 0" ++ headerTerminator := by
    rw [hbytes, ← List.append_assoc]
    exact List.drop_left' (by simp [lineBreak])
  have hend : find lineBreak (ascii "Content-Length: 0" ++ headerTerminator) = some 17 := by decide
  have hsecond : lineEnd (paddedHeader padding ++ headerTerminator) (padding + 19) (padding + 2) =
      padding + 19 := by
    rw [lineEnd, hrest, hend]
    simp
  have hlength : lineAt (paddedHeader padding ++ headerTerminator) (padding + 19) (padding + 2) =
      ascii "Content-Length: 0" := by
    rw [lineAt, hsecond, hrest, Nat.add_sub_add_left]
    decide
  have hskipped : headerLine (List.replicate padding 65) none = .ok none := by
    cases padding with
    | zero => rfl
    | succ padding =>
      rw [List.replicate_succ]
      rfl
  refine ⟨?_, hwithin, ?_⟩
  · rw [hbytes]
    exact (find_replicate_append (by decide) _ _).trans (by rw [hterminator]; rfl)
  · rw [headerLines_of_lt _ (by omega), hpadding, hfirst, hskipped]
    change headerLines _ _ (padding + 2) none = _
    rw [headerLines_of_lt _ (by omega), hlength, hsecond]
    exact headerLines_of_le _ (Nat.le_add_right _ _) _

/-- A message that is refused when the first byte of its terminator arrives before the others. -/
theorem splitTerminator_fails :
    ¬ SameStream (receiveAll [paddedHeader 16365 ++ [13], [10, 13, 10]])
      (receiveAll [[paddedHeader 16365 ++ [13], [10, 13, 10]].flatten]) := by
  intro hsame
  refine (sameStream_iff_premature _).mp hsame [paddedHeader 16365 ++ [13]] [[10, 13, 10]] rfl ?_
  have hbytes : [paddedHeader 16365 ++ [13]].flatten ++ [[10, 13, 10]].flatten =
      paddedHeader 16365 ++ headerTerminator := by
    simp only [List.flatten_cons, List.flatten_nil, List.append_nil, List.append_assoc]
    rfl
  have hcut : [paddedHeader 16365 ++ [13]].flatten.length = headerLimit + 1 := by
    rw [List.flatten_cons, List.flatten_nil, List.append_nil, List.length_append,
      length_paddedHeader]
    rfl
  rw [premature_iff, hbytes, hcut]
  exact ⟨0, headerLimit, 0, .first, acceptedHeader_paddedHeader (by decide), by omega, by omega⟩

end Gzscript.Lsp.Client
