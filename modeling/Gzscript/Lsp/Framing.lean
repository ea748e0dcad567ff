import Gzscript.Library.Bytes
import Gzscript.Library.StreamDecoder

/-!
# Messages of the language server

The language server writes messages to a pipe, each a header of lines, an empty line and a body.
`parseMessage` is one round of the loop of `parse_messages` over the buffered input.

A header is refused beyond `headerLimit`. While its end has not arrived, the limit is compared with
everything in the buffer (`parseMessage_incomplete`), and afterwards with the position of the end
(`AcceptedHeader`). A complete header has one verdict, whatever follows it
(`acceptedHeader_append_iff`, `parseMessage_refused`), so the rounds form a local decoder
(`messageDecoder_local`).
-/

set_option autoImplicit false
set_option relaxedAutoImplicit false

namespace Gzscript.Lsp.Framing

open Library.Bytes Library.StreamDecoder

/-! ### One message -/

/-- `HEADER_LIMIT`. -/
def headerLimit : ℕ := 16 * 1024

/-- `MESSAGE_LIMIT`. -/
def messageLimit : ℕ := 8 * 1024 * 1024

def lineBreak : ByteString := [13, 10]

def headerTerminator : ByteString := [13, 10, 13, 10]

def contentLengthPrefix : ByteString := ascii "Content-Length:"

def oversizedHeader : String := "ZLS sent an oversized JSON-RPC header"

def duplicateLength : String := "ZLS sent duplicate Content-Length headers"

def invalidLength : String := "ZLS sent an invalid Content-Length header"

def oversizedLength : String := "ZLS sent an invalid or oversized Content-Length header"

def omittedLength : String := "ZLS response omitted Content-Length"

/-- The digits up to the end of a line, after digits that amount to `length`. -/
def lengthDigits (length : ℕ) : ByteString → Except String ℕ
  | [] => .ok length
  | digit :: digits =>
    if digit < 48 ∨ 57 < digit ∨ (messageLimit - (digit.toNat - 48)) / 10 < length then
      .error oversizedLength
    else
      lengthDigits (length * 10 + (digit.toNat - 48)) digits

/-- One header line, after lines that announced `length`. -/
def headerLine (line : ByteString) (length : Option ℕ) : Except String (Option ℕ) :=
  if contentLengthPrefix.isPrefixOf line then
    match length with
    | some _ => .error duplicateLength
    | none =>
      match (line.drop contentLengthPrefix.length).dropWhile (· == 32) with
      | [] => .error invalidLength
      | digits => (lengthDigits 0 digits).map some
  else
    .ok length

/-- Where the line that starts at `lineStart` ends. -/
def lineEnd (input : ByteString) (headerEnd lineStart : ℕ) : ℕ :=
  match find lineBreak (input.drop lineStart) with
  | none => headerEnd
  | some offset => if headerEnd < lineStart + offset then headerEnd else lineStart + offset

theorem lineStart_le_lineEnd (input : ByteString) {headerEnd lineStart : ℕ}
    (h : lineStart < headerEnd) : lineStart ≤ lineEnd input headerEnd lineStart := by
  rw [lineEnd]
  split
  · exact h.le
  · split <;> omega

theorem lineEnd_le (input : ByteString) (headerEnd lineStart : ℕ) :
    lineEnd input headerEnd lineStart ≤ headerEnd := by
  rw [lineEnd]
  split
  · exact le_rfl
  · split <;> omega

/-- The bytes of the line that starts at `lineStart`. -/
def lineAt (input : ByteString) (headerEnd lineStart : ℕ) : ByteString :=
  (input.drop lineStart).take (lineEnd input headerEnd lineStart - lineStart)

/-- The header lines from `lineStart` on. -/
def headerLines (input : ByteString) (headerEnd lineStart : ℕ) (length : Option ℕ) :
    Except String (Option ℕ) :=
  if _hline : lineStart < headerEnd then
    match headerLine (lineAt input headerEnd lineStart) length with
    | .error message => .error message
    | .ok length => headerLines input headerEnd (lineEnd input headerEnd lineStart + 2) length
  else
    .ok length
termination_by headerEnd - lineStart
decreasing_by
  have := lineStart_le_lineEnd input _hline
  omega

/-- One round of `parse_messages`. -/
def parseMessage (input : ByteString) : Verdict UInt8 ByteString String :=
  match find headerTerminator input with
  | none => if headerLimit < input.length then .fail oversizedHeader else .wait
  | some headerEnd =>
    if headerLimit < headerEnd then
      .fail oversizedHeader
    else
      match headerLines input headerEnd 0 none with
      | .error message => .fail message
      | .ok none => .fail omittedLength
      | .ok (some length) =>
        let bodyStart := headerEnd + 4
        if input.length - bodyStart < length then
          .wait
        else
          .deliver ((input.drop bodyStart).take length) (input.drop (bodyStart + length))

/-! ### The header does not depend on what follows it -/

theorem lineBreak_prefix : lineBreak <+: headerTerminator := by decide

/-- The end of a header is the start of its terminator, where the last line ends at the latest. -/
theorem lineBreak_at_headerEnd {input : ByteString} {headerEnd lineStart : ℕ}
    (hend : find headerTerminator input = some headerEnd) (hline : lineStart < headerEnd) :
    ∃ offset, lineStart + offset ≤ headerEnd ∧
      find lineBreak (input.drop lineStart) = some offset := by
  have hterminator : lineBreak <+: (input.drop lineStart).drop (headerEnd - lineStart) := by
    rw [List.drop_drop, Nat.add_sub_cancel' hline.le]
    exact lineBreak_prefix.trans (prefix_of_find hend)
  obtain ⟨offset, hoffset, hfind⟩ := find_of_prefix hterminator
  exact ⟨offset, by omega, hfind⟩

theorem headerEnd_fits {input : ByteString} {headerEnd : ℕ}
    (hend : find headerTerminator input = some headerEnd) : headerEnd + 4 ≤ input.length :=
  find_fits (by decide) hend

theorem lineEnd_append {input : ByteString} {headerEnd lineStart : ℕ}
    (hend : find headerTerminator input = some headerEnd) (hline : lineStart < headerEnd)
    (more : ByteString) :
    lineEnd (input ++ more) headerEnd lineStart = lineEnd input headerEnd lineStart := by
  have hfits := headerEnd_fits hend
  obtain ⟨offset, hoffset, hfind⟩ := lineBreak_at_headerEnd hend hline
  have hbreak : offset + lineBreak.length ≤ (input.drop lineStart).length :=
    find_fits (by decide) hfind
  rw [lineEnd, lineEnd, List.drop_append_of_le_length (by omega),
    (find_append_iff hbreak more).mpr hfind, hfind]

theorem lineAt_append {input : ByteString} {headerEnd lineStart : ℕ}
    (hend : find headerTerminator input = some headerEnd) (hline : lineStart < headerEnd)
    (more : ByteString) :
    lineAt (input ++ more) headerEnd lineStart = lineAt input headerEnd lineStart := by
  have hfits := headerEnd_fits hend
  have hstop := lineEnd_le input headerEnd lineStart
  rw [lineAt, lineAt, lineEnd_append hend hline, List.drop_append_of_le_length (by omega),
    List.take_append_of_le_length (by rw [List.length_drop]; omega)]

/-- One line, then the lines after it. -/
theorem headerLines_of_lt (input : ByteString) {headerEnd lineStart : ℕ}
    (hline : lineStart < headerEnd) (length : Option ℕ) :
    headerLines input headerEnd lineStart length =
      (headerLine (lineAt input headerEnd lineStart) length).bind
        (headerLines input headerEnd (lineEnd input headerEnd lineStart + 2)) := by
  rw [headerLines, dif_pos hline]
  cases headerLine (lineAt input headerEnd lineStart) length <;> rfl

theorem headerLines_of_le (input : ByteString) {headerEnd lineStart : ℕ}
    (hline : headerEnd ≤ lineStart) (length : Option ℕ) :
    headerLines input headerEnd lineStart length = .ok length := by
  rw [headerLines, dif_neg hline.not_gt]

theorem headerLines_append {input : ByteString} {headerEnd : ℕ}
    (hend : find headerTerminator input = some headerEnd) (more : ByteString) (lineStart : ℕ)
    (length : Option ℕ) :
    headerLines (input ++ more) headerEnd lineStart length =
      headerLines input headerEnd lineStart length := by
  induction lineStart, length using headerLines.induct input headerEnd with
  | case1 lineStart length hline message hfailed =>
    rw [headerLines_of_lt _ hline, headerLines_of_lt _ hline, lineAt_append hend hline, hfailed]
    rfl
  | case2 lineStart length hline next hread ih =>
    rw [headerLines_of_lt _ hline, headerLines_of_lt _ hline, lineAt_append hend hline,
      lineEnd_append hend hline, hread]
    exact ih
  | case3 lineStart length hline =>
    rw [headerLines_of_le _ (not_lt.mp hline), headerLines_of_le _ (not_lt.mp hline)]

/-- `input` begins with a header that ends at `headerEnd`, is within the limit and announces a body
of `length` bytes. -/
structure AcceptedHeader (input : ByteString) (headerEnd length : ℕ) : Prop where
  found : find headerTerminator input = some headerEnd
  within : headerEnd ≤ headerLimit
  lines : headerLines input headerEnd 0 none = .ok (some length)

theorem acceptedHeader_append_iff {input : ByteString} {headerEnd length : ℕ}
    (hfits : headerEnd + 4 ≤ input.length) (more : ByteString) :
    AcceptedHeader (input ++ more) headerEnd length ↔ AcceptedHeader input headerEnd length := by
  constructor
  · rintro ⟨hfound, hwithin, hlines⟩
    have hend := (find_append_iff hfits more).mp hfound
    exact ⟨hend, hwithin, (headerLines_append hend more 0 none).symm.trans hlines⟩
  · rintro ⟨hfound, hwithin, hlines⟩
    exact ⟨(find_append_iff hfits more).mpr hfound, hwithin,
      (headerLines_append hfound more 0 none).trans hlines⟩

/-! ### The verdict on a message -/

theorem parseMessage_incomplete {input : ByteString}
    (hfound : find headerTerminator input = none) :
    parseMessage input =
      if headerLimit < input.length then .fail oversizedHeader else .wait := by
  rw [parseMessage, hfound]

/-- With an accepted header, the message is delivered as soon as its body is there. -/
theorem parseMessage_accepted {input : ByteString} {headerEnd length : ℕ}
    (h : AcceptedHeader input headerEnd length) :
    parseMessage input =
      if input.length < headerEnd + 4 + length then .wait
      else .deliver ((input.drop (headerEnd + 4)).take length)
        (input.drop (headerEnd + 4 + length)) := by
  have hfits := headerEnd_fits h.found
  simp only [parseMessage, h.found, if_neg h.within.not_gt, h.lines]
  split <;> split <;> first | rfl | omega

/-- A complete header that is not accepted fails, whatever follows it. -/
theorem parseMessage_refused {input : ByteString} {headerEnd : ℕ}
    (hfound : find headerTerminator input = some headerEnd)
    (hrefused : ∀ length, ¬ AcceptedHeader input headerEnd length) (more : ByteString) :
    ∃ message, parseMessage (input ++ more) = .fail message := by
  have hmore := (find_append_iff (headerEnd_fits hfound) more).mpr hfound
  simp only [parseMessage, hmore, headerLines_append hfound more]
  by_cases hwithin : headerEnd ≤ headerLimit
  · rw [if_neg hwithin.not_gt]
    cases hlines : headerLines input headerEnd 0 none with
    | error message => exact ⟨message, rfl⟩
    | ok length =>
      cases length with
      | none => exact ⟨omittedLength, rfl⟩
      | some length => exact absurd ⟨hfound, hwithin, hlines⟩ (hrefused length)
  · exact ⟨oversizedHeader, if_pos (not_le.mp hwithin)⟩

/-- A delivered message has an accepted header and a complete body. -/
theorem acceptedHeader_of_deliver {input body rest : ByteString}
    (h : parseMessage input = .deliver body rest) :
    ∃ headerEnd length, AcceptedHeader input headerEnd length ∧
      headerEnd + 4 + length ≤ input.length ∧
      body = (input.drop (headerEnd + 4)).take length ∧
      rest = input.drop (headerEnd + 4 + length) := by
  cases hfound : find headerTerminator input with
  | none =>
    rw [parseMessage_incomplete hfound] at h
    split at h <;> cases h
  | some headerEnd =>
    by_cases haccepted : ∃ length, AcceptedHeader input headerEnd length
    · obtain ⟨length, haccepted⟩ := haccepted
      rw [parseMessage_accepted haccepted] at h
      split at h
      next => cases h
      next hcomplete =>
        cases h
        exact ⟨headerEnd, length, haccepted, not_lt.mp hcomplete, rfl, rfl⟩
    · obtain ⟨message, hmessage⟩ := parseMessage_refused hfound (not_exists.mp haccepted) []
      rw [List.append_nil, h] at hmessage
      cases hmessage

theorem parseMessage_ne_fail {input : ByteString} {headerEnd length : ℕ}
    (h : AcceptedHeader input headerEnd length) (message : String) :
    parseMessage input ≠ .fail message := by
  rw [parseMessage_accepted h]
  split <;> nofun

/-- Beyond the limit, only an accepted header does not fail. -/
theorem exists_acceptedHeader {input : ByteString}
    (hcontinues : ∀ message, parseMessage input ≠ .fail message)
    (hlong : headerLimit < input.length) :
    ∃ headerEnd length, AcceptedHeader input headerEnd length := by
  cases hfound : find headerTerminator input with
  | none =>
    refine absurd ?_ (hcontinues oversizedHeader)
    rw [parseMessage_incomplete hfound, if_pos hlong]
  | some headerEnd =>
    by_contra hrefused
    obtain ⟨message, hmessage⟩ :=
      parseMessage_refused hfound (fun length h ↦ hrefused ⟨headerEnd, length, h⟩) []
    rw [List.append_nil] at hmessage
    exact hcontinues message hmessage

/-- A failure that more input would have prevented is that of an incomplete header. -/
theorem header_open_of_fail {input more : ByteString} {message : String}
    (hfail : parseMessage input = .fail message)
    (hcontinues : ∀ late, parseMessage (input ++ more) ≠ .fail late) :
    find headerTerminator input = none ∧ headerLimit < input.length := by
  cases hfound : find headerTerminator input with
  | none =>
    refine ⟨rfl, ?_⟩
    by_contra hshort
    rw [parseMessage_incomplete hfound, if_neg hshort] at hfail
    cases hfail
  | some headerEnd =>
    by_cases haccepted : ∃ length, AcceptedHeader input headerEnd length
    · obtain ⟨length, haccepted⟩ := haccepted
      exact absurd hfail (parseMessage_ne_fail haccepted message)
    · obtain ⟨late, hlate⟩ := parseMessage_refused hfound (not_exists.mp haccepted) more
      exact absurd hlate (hcontinues late)

/-- The header is not complete before the end of its terminator. -/
theorem header_open_of_short {input more : ByteString} {headerEnd length : ℕ}
    (h : AcceptedHeader (input ++ more) headerEnd length) (hshort : input.length < headerEnd + 4) :
    find headerTerminator input = none := by
  cases hfound : find headerTerminator input with
  | none => rfl
  | some early =>
    have hfits := headerEnd_fits hfound
    have hmore := (find_append_iff hfits more).mpr hfound
    rw [h.found] at hmore
    cases hmore
    omega

/-- The messages of a stream as a decoder. -/
def messageDecoder : Decoder UInt8 ByteString String where
  verdict := parseMessage
  verdict_nil := parseMessage_incomplete (by decide)
  shrinks input body rest h := by
    obtain ⟨headerEnd, length, -, hcomplete, -, rfl⟩ := acceptedHeader_of_deliver h
    rw [List.length_drop]
    omega

theorem messageDecoder_local : messageDecoder.Local := by
  intro input body rest more h
  obtain ⟨headerEnd, length, haccepted, hcomplete, rfl, rfl⟩ := acceptedHeader_of_deliver h
  have hmore := (acceptedHeader_append_iff (headerEnd_fits haccepted.found) more).mpr haccepted
  have hverdict := parseMessage_accepted hmore
  rw [if_neg (by rw [List.length_append]; omega),
    List.drop_append_of_le_length (by omega), List.drop_append_of_le_length (by omega),
    List.take_append_of_le_length (by rw [List.length_drop]; omega)] at hverdict
  exact hverdict

end Gzscript.Lsp.Framing
