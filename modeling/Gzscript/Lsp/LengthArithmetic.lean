import Gzscript.Library.CheckedArithmetic
import Gzscript.Lsp.ContentLength

/-!
# The arithmetic of message lengths

`parse_messages` computes with `std::size_t`: positions in its input, and the length that a header
announces, which grows digit by digit. Here one round of it is modelled with every step checked.
Each part is exactly the one over all numbers, so that no step overflows, goes below zero or reads
outside the input (`parseRound_eq`), whatever the input is. With what a header announces, this says
which lengths are derived and which headers are rejected (`announcedLength_exact`).
-/

set_option autoImplicit false
set_option relaxedAutoImplicit false

namespace Gzscript.Lsp.LengthArithmetic

open Library.Bytes Library.Lines Library.Decimal Library.CheckedArithmetic Library.StreamDecoder
open Framing ContentLength

/-! ### One round -/

/-- `std::size_t`, which has the constants of the client. -/
structure SizeT where
  bits : ℕ
  constants : headerLimit + 4 + messageLimit < 2 ^ bits

/-- How many numbers `std::size_t` has. -/
def SizeT.size (sizeT : SizeT) : ℕ := 2 ^ sizeT.bits

/-- A string of which `std::size_t` has the size. -/
structure Buffer (sizeT : SizeT) where
  bytes : ByteString
  fits : bytes.length < sizeT.size

/-- The variables `length` and `has_length`. -/
structure Announced where
  length : ℕ
  hasLength : Bool
  deriving DecidableEq

/-- `cursor` after the spaces that it is at. -/
def skipSpaces (size : ℕ) (line : ByteString) (cursor : ℕ) : Checked String ℕ :=
  if _hcursor : cursor < line.length then do
    let byte ← elementAt line cursor
    if byte = 32 then
      match _hnext : (plus size cursor 1 : Checked String ℕ) with
      | .error failure => .error failure
      | .ok next => skipSpaces size line next
    else
      return cursor
  else
    return cursor
termination_by line.length - cursor
decreasing_by
  have := eq_of_plus _hnext
  omega

/-- One digit after digits that amount to `length`. -/
def addDigit (size : ℕ) (digit : UInt8) (length : ℕ) : Checked String ℕ :=
  if digit < 48 ∨ 57 < digit then
    refuse oversizedLength
  else do
    let value ← minus digit.toNat 48
    let room ← minus messageLimit value
    if room / 10 < length then
      refuse oversizedLength
    else do
      let tens ← times size length 10
      plus size tens value

/-- The digits from `cursor` on, after digits that amount to `length`. -/
def readDigits (size : ℕ) (line : ByteString) (cursor length : ℕ) : Checked String ℕ :=
  if _hcursor : cursor < line.length then do
    let digit ← elementAt line cursor
    let length ← addDigit size digit length
    match _hnext : (plus size cursor 1 : Checked String ℕ) with
    | .error failure => .error failure
    | .ok next => readDigits size line next length
  else
    return length
termination_by line.length - cursor
decreasing_by
  have := eq_of_plus _hnext
  omega

/-- One line, after lines that left the variables at `announced`. -/
def readLine (size : ℕ) (line : ByteString) (announced : Announced) : Checked String Announced :=
  if contentLengthPrefix.length ≤ line.length ∧
      line.take contentLengthPrefix.length = contentLengthPrefix then
    if announced.hasLength then
      refuse duplicateLength
    else do
      let cursor ← skipSpaces size line contentLengthPrefix.length
      if cursor = line.length then
        refuse invalidLength
      else do
        let length ← readDigits size line cursor announced.length
        return ⟨length, true⟩
  else
    return announced

/-- The lines from `lineStart` on. -/
def lineLoop (size : ℕ) (input : ByteString) (headerEnd lineStart : ℕ) (announced : Announced) :
    Checked String Announced :=
  if _hline : lineStart < headerEnd then do
    let count ← minus (lineEnd input headerEnd lineStart) lineStart
    let line ← slice input lineStart count
    let announced ← readLine size line announced
    match _hnext : (plus size (lineEnd input headerEnd lineStart) 2 : Checked String ℕ) with
    | .error failure => .error failure
    | .ok next => lineLoop size input headerEnd next announced
  else
    return announced
termination_by headerEnd - lineStart
decreasing_by
  have := eq_of_plus _hnext
  have := lineStart_le_lineEnd input _hline
  omega

/-- The length of the body behind a header. -/
def announcedLength (size : ℕ) (input : ByteString) (headerEnd : ℕ) : Checked String ℕ := do
  let announced ← lineLoop size input headerEnd 0 ⟨0, false⟩
  if announced.hasLength then
    return announced.length
  else
    refuse omittedLength

/-- One round of `parse_messages`: the body it takes and the input it leaves, if there is one. -/
def parseRound {sizeT : SizeT} (input : Buffer sizeT) :
    Checked String (Option (ByteString × ByteString)) :=
  match find headerTerminator input.bytes with
  | none => if headerLimit < input.bytes.length then refuse oversizedHeader else return none
  | some headerEnd =>
    if headerLimit < headerEnd then
      refuse oversizedHeader
    else do
      let length ← announcedLength sizeT.size input.bytes headerEnd
      let bodyStart ← plus sizeT.size headerEnd 4
      let buffered ← minus input.bytes.length bodyStart
      if buffered < length then
        return none
      else do
        let body ← slice input.bytes bodyStart length
        let consumed ← plus sizeT.size bodyStart length
        return some (body, input.bytes.drop consumed)

/-! ### Every step is exact -/

section Steps

variable {size : ℕ}

/-- With the cursor behind a part of the line, the spaces that follow are skipped. -/
theorem skipSpaces_eq (before rest : ByteString) (hsize : (before ++ rest).length < size) :
    skipSpaces size (before ++ rest) before.length =
      .ok (before.length + (rest.takeWhile (· == 32)).length) := by
  induction rest generalizing before with
  | nil =>
    rw [skipSpaces, dif_neg (by rw [List.append_nil]; exact Nat.lt_irrefl _)]
    rfl
  | cons byte rest ih =>
    have hlength := length_lt_append before byte rest
    rw [skipSpaces, dif_pos hlength, elementAt_append]
    show (if byte = 32 then _ else _) = _
    by_cases hspace : byte = 32
    · rw [if_pos hspace, plus_of_lt (by omega)]
      have hnext := ih (before ++ [byte]) (by rwa [List.append_assoc])
      rw [List.append_assoc, List.length_append, List.length_singleton] at hnext
      have hspaces : (byte :: rest).takeWhile (· == 32) = byte :: rest.takeWhile (· == 32) :=
        List.takeWhile_cons_of_pos (beq_iff_eq.mpr hspace)
      rw [hspaces, List.length_cons]
      refine hnext.trans (congrArg Except.ok ?_)
      omega
    · have hspaces : (byte :: rest).takeWhile (· == 32) = [] :=
        List.takeWhile_cons_of_neg fun h ↦ hspace (eq_of_beq h)
      rw [if_neg hspace, hspaces]
      rfl

/-- Where the division lets a digit pass, neither the product nor the sum leaves the type. -/
theorem addDigit_eq (hsize : messageLimit < size) (digit : UInt8) (length : ℕ) :
    addDigit size digit length =
      if IsDigit digit ∧ length * 10 + digitValue digit ≤ messageLimit then
        .ok (length * 10 + digitValue digit)
      else refuse oversizedLength := by
  rw [addDigit]
  by_cases hdigit : IsDigit digit
  · have hlow : 48 ≤ digit.toNat := UInt8.le_iff_toNat_le.mp hdigit.1
    have hvalue := messageLimit_digit hdigit
    rw [if_neg fun h ↦ (not_isDigit_iff digit).mpr h hdigit, minus_of_le hlow]
    show (minus messageLimit (digitValue digit) >>= _) = _
    rw [minus_of_le hvalue]
    show (if (messageLimit - digitValue digit) / 10 < length then _ else _) = _
    by_cases hwithin : length * 10 + digitValue digit ≤ messageLimit
    · have hpasses : ¬ (messageLimit - digitValue digit) / 10 < length := fun h ↦
        Nat.not_le_of_lt ((limit_div_lt_iff hvalue).mp h) hwithin
      rw [if_neg hpasses, if_pos ⟨hdigit, hwithin⟩, times_of_lt (by omega)]
      exact plus_of_lt (hwithin.trans_lt hsize)
    · rw [if_pos ((limit_div_lt_iff hvalue).mpr (Nat.lt_of_not_le hwithin)),
        if_neg fun h ↦ hwithin h.2]
  · rw [if_pos ((not_isDigit_iff digit).mp hdigit), if_neg fun h ↦ hdigit h.1]

theorem readDigits_eq (hlimit : messageLimit < size) (before digits : ByteString)
    (hsize : (before ++ digits).length < size) (length : ℕ) :
    readDigits size (before ++ digits) before.length length =
      exactly (lengthDigits length digits) := by
  induction digits generalizing before length with
  | nil =>
    rw [readDigits, dif_neg (by rw [List.append_nil]; exact Nat.lt_irrefl _)]
    rfl
  | cons digit digits ih =>
    have hlength := length_lt_append before digit digits
    rw [readDigits, dif_pos hlength, elementAt_append, lengthDigits_cons]
    show (addDigit size digit length >>= _) = _
    rw [addDigit_eq hlimit]
    split
    · have hnext := ih (before ++ [digit]) (by rwa [List.append_assoc])
        (length * 10 + digitValue digit)
      rw [List.append_assoc, List.length_append, List.length_singleton] at hnext
      rw [plus_of_lt (by omega)]
      exact hnext
    · rfl

/-- The variables after lines that announced a length, or did not. -/
def Announced.of : Option ℕ → Announced
  | none => ⟨0, false⟩
  | some length => ⟨length, true⟩

/-- What a line is compared with is whether it begins with the prefix. -/
theorem compared_iff (line : ByteString) :
    (contentLengthPrefix.length ≤ line.length ∧
      line.take contentLengthPrefix.length = contentLengthPrefix) ↔ isLengthLine line = true := by
  rw [isLengthLine, List.isPrefixOf_iff_prefix, List.prefix_iff_eq_take, eq_comm]
  refine and_iff_right_of_imp fun h ↦ ?_
  exact (congrArg List.length h).trans_le (List.length_take_le' _ _)

theorem readLine_first (hlimit : messageLimit < size) {rest : ByteString}
    (hsize : (contentLengthPrefix ++ rest).length < size) :
    readLine size (contentLengthPrefix ++ rest) (.of none) =
      exactly ((headerLine (contentLengthPrefix ++ rest) none).map .of) := by
  have hsplit : contentLengthPrefix ++ rest.takeWhile (· == 32) ++ rest.dropWhile (· == 32) =
      contentLengthPrefix ++ rest := by
    rw [List.append_assoc, List.takeWhile_append_dropWhile]
  have hcursor : contentLengthPrefix.length + (rest.takeWhile (· == 32)).length =
      (contentLengthPrefix ++ rest.takeWhile (· == 32)).length := List.length_append.symm
  rw [readLine, if_pos ((compared_iff _).mpr (isLengthLine_append rest)), headerLine_first]
  show (skipSpaces size (contentLengthPrefix ++ rest) contentLengthPrefix.length >>= _) = _
  rw [skipSpaces_eq contentLengthPrefix rest hsize, hcursor, ← hsplit]
  show (if _ = _ then _ else _) = _
  by_cases hnil : rest.dropWhile (· == 32) = []
  · rw [if_pos (by rw [hnil, List.append_nil]), if_pos hnil]
    rfl
  · have hinside : (contentLengthPrefix ++ rest.takeWhile (· == 32)).length ≠
        (contentLengthPrefix ++ rest.takeWhile (· == 32) ++ rest.dropWhile (· == 32)).length := by
      have hpositive := List.length_pos_iff.mpr hnil
      simp only [List.length_append]
      omega
    rw [if_neg hinside, if_neg hnil]
    show (readDigits size _ _ 0 >>= _) = _
    rw [readDigits_eq hlimit _ _ (by rwa [hsplit])]
    cases lengthDigits 0 (rest.dropWhile (· == 32)) <;> rfl

theorem readLine_eq (hlimit : messageLimit < size) {line : ByteString} (hsize : line.length < size)
    (length : Option ℕ) :
    readLine size line (.of length) = exactly ((headerLine line length).map .of) := by
  cases hline : isLengthLine line with
  | false =>
    have hother : ¬ isLengthLine line = true := by rw [hline]; exact Bool.false_ne_true
    rw [readLine, if_neg (mt (compared_iff line).mp hother), headerLine_of_other hline]
    rfl
  | true =>
    cases length with
    | some length =>
      rw [readLine, if_pos ((compared_iff line).mpr hline), headerLine_second hline]
      rfl
    | none =>
      obtain ⟨rest, rfl⟩ := List.isPrefixOf_iff_prefix.mp hline
      exact readLine_first hlimit hsize

end Steps

section Loop

variable {size headerEnd : ℕ} {input : ByteString}

/-- One line, then the lines after it. -/
theorem lineLoop_of_lt (hlimit : messageLimit < size) (hsize : headerEnd + 2 < size)
    (hend : headerEnd ≤ input.length) {lineStart : ℕ} (hline : lineStart < headerEnd)
    (length : Option ℕ) :
    lineLoop size input headerEnd lineStart (.of length) =
      exactly ((headerLine (lineAt input headerEnd lineStart) length).map .of) >>=
        lineLoop size input headerEnd (lineEnd input headerEnd lineStart + 2) := by
  have hstart := lineStart_le_lineEnd input hline
  have hstop := lineEnd_le input headerEnd lineStart
  have hshort : (lineAt input headerEnd lineStart).length < size := by
    rw [lineAt, List.length_take]
    omega
  rw [lineLoop, dif_pos hline, minus_of_le hstart]
  show (slice input lineStart (lineEnd input headerEnd lineStart - lineStart) >>= _) = _
  rw [slice_of_le (by omega)]
  show (readLine size (lineAt input headerEnd lineStart) (.of length) >>= _) = _
  rw [readLine_eq hlimit hshort, plus_of_lt (by omega)]

theorem lineLoop_eq (hlimit : messageLimit < size) (hsize : headerEnd + 2 < size)
    (hend : headerEnd ≤ input.length) (lineStart : ℕ) (length : Option ℕ) :
    lineLoop size input headerEnd lineStart (.of length) =
      exactly ((headerLines input headerEnd lineStart length).map .of) := by
  induction lineStart, length using headerLines.induct input headerEnd with
  | case1 lineStart length hline message hfailed =>
    rw [lineLoop_of_lt hlimit hsize hend hline, headerLines_of_lt input hline, hfailed]
    rfl
  | case2 lineStart length hline next hread ih =>
    rw [lineLoop_of_lt hlimit hsize hend hline, headerLines_of_lt input hline, hread]
    exact ih
  | case3 lineStart length hline =>
    rw [lineLoop, dif_neg hline, headerLines_of_le _ (not_lt.mp hline)]
    rfl

end Loop

theorem SizeT.messageLimit_lt (sizeT : SizeT) : messageLimit < sizeT.size :=
  (Nat.le_add_left _ _).trans_lt sizeT.constants

/-- A verdict as the outcome of a round. -/
def outcome : Verdict UInt8 ByteString String → Except String (Option (ByteString × ByteString))
  | .fail message => .error message
  | .wait => .ok none
  | .deliver body rest => .ok (some (body, rest))

section Round

variable {sizeT : SizeT} (input : Buffer sizeT) {headerEnd : ℕ}

theorem announcedLength_eq (hend : find headerTerminator input.bytes = some headerEnd) :
    announcedLength sizeT.size input.bytes headerEnd =
      exactly (headerLines input.bytes headerEnd 0 none >>=
        fun length ↦ length.elim (.error omittedLength) .ok) := by
  have hfits := headerEnd_fits hend
  have hsize := input.fits
  have hloop : lineLoop sizeT.size input.bytes headerEnd 0 (.of none) =
      exactly ((headerLines input.bytes headerEnd 0 none).map .of) :=
    lineLoop_eq sizeT.messageLimit_lt (by omega) (by omega) 0 none
  rw [announcedLength]
  show (lineLoop sizeT.size input.bytes headerEnd 0 (.of none) >>= _) = _
  rw [hloop]
  rcases headerLines input.bytes headerEnd 0 none with message | _ | length <;> rfl

theorem announcedLength_eq_ok_iff (hend : find headerTerminator input.bytes = some headerEnd)
    (length : ℕ) :
    announcedLength sizeT.size input.bytes headerEnd = .ok length ↔
      HeaderAnnounces (lines lineBreak (input.bytes.take headerEnd)) length := by
  rw [announcedLength_eq input hend, exactly_eq_ok_iff, ← headerLines_eq_ok_iff hend]
  rcases headerLines input.bytes headerEnd 0 none with message | _ | announced
  · exact iff_of_false (fun h ↦ by cases h) (fun h ↦ by cases h)
  · exact iff_of_false (fun h ↦ by cases h) (fun h ↦ by cases h)
  · constructor
    · intro h
      rw [Except.ok.inj h]
    · intro h
      rw [Option.some.inj (Except.ok.inj h)]
      rfl

/-- No step of a round is inexact, and the round does what it does over all numbers. -/
theorem parseRound_eq : parseRound input = exactly (outcome (parseMessage input.bytes)) := by
  cases hend : find headerTerminator input.bytes with
  | none =>
    simp only [parseRound, parseMessage, hend]
    split <;> rfl
  | some headerEnd =>
    have hfits := headerEnd_fits hend
    have hsize := input.fits
    simp only [parseRound, parseMessage, hend]
    by_cases hlong : headerLimit < headerEnd
    · rw [if_pos hlong, if_pos hlong]
      rfl
    · rw [if_neg hlong, if_neg hlong, announcedLength_eq input hend]
      rcases headerLines input.bytes headerEnd 0 none with message | _ | length
      · rfl
      · rfl
      · show (plus sizeT.size headerEnd 4 >>= _) = _
        rw [plus_of_lt (by omega)]
        show (minus input.bytes.length (headerEnd + 4) >>= _) = _
        rw [minus_of_le hfits]
        show (if input.bytes.length - (headerEnd + 4) < length then _ else _) =
          exactly (outcome (if input.bytes.length - (headerEnd + 4) < length then _ else _))
        by_cases hwait : input.bytes.length - (headerEnd + 4) < length
        · rw [if_pos hwait, if_pos hwait]
          rfl
        · rw [if_neg hwait, if_neg hwait, slice_of_le (by omega)]
          show (plus sizeT.size (headerEnd + 4) length >>= _) = _
          rw [plus_of_lt (by omega)]
          rfl

/-- Behind a header that announces a length, the body is as long. -/
theorem parseRound_of_announced (hend : find headerTerminator input.bytes = some headerEnd)
    (hwithin : headerEnd ≤ headerLimit) {length : ℕ}
    (h : HeaderAnnounces (lines lineBreak (input.bytes.take headerEnd)) length) :
    parseRound input =
      if input.bytes.length < headerEnd + 4 + length then .ok none
      else .ok (some ((input.bytes.drop (headerEnd + 4)).take length,
        input.bytes.drop (headerEnd + 4 + length))) := by
  have haccepted : AcceptedHeader input.bytes headerEnd length :=
    ⟨hend, hwithin, (headerLines_eq_ok_iff hend length).mpr h⟩
  rw [parseRound_eq, parseMessage_accepted haccepted]
  split <;> rfl

/-- Every other header is refused. -/
theorem parseRound_of_not_announced (hend : find headerTerminator input.bytes = some headerEnd)
    (h : ¬ ∃ length, HeaderAnnounces (lines lineBreak (input.bytes.take headerEnd)) length) :
    ∃ message, parseRound input = .error (.refused message) := by
  have hrefused : ∀ length, ¬ AcceptedHeader input.bytes headerEnd length := fun length haccepted ↦
    h ⟨length, (headerLines_eq_ok_iff hend length).mp haccepted.lines⟩
  obtain ⟨message, hmessage⟩ := parseMessage_refused hend hrefused []
  rw [List.append_nil] at hmessage
  refine ⟨message, ?_⟩
  rw [parseRound_eq, hmessage]
  rfl

end Round

/-! ### What is derived from a header -/

/-- A round derives the length that the header announces, in steps none of which overflows or
underflows, and takes a body of that length as soon as it is there. A header that announces none is
rejected, in particular one with a second line that begins with `Content-Length:` and one with such
a line that goes on with something else. -/
theorem announcedLength_exact {sizeT : SizeT} (input : Buffer sizeT) {headerEnd : ℕ}
    (hend : find headerTerminator input.bytes = some headerEnd)
    (hwithin : headerEnd ≤ headerLimit) :
    (∀ length, announcedLength sizeT.size input.bytes headerEnd = .ok length ↔
      HeaderAnnounces (lines lineBreak (input.bytes.take headerEnd)) length) ∧
    (announcedLength sizeT.size input.bytes headerEnd ≠ .error .inexact ∧
      parseRound input ≠ .error .inexact) ∧
    (∀ length, HeaderAnnounces (lines lineBreak (input.bytes.take headerEnd)) length →
      parseRound input =
        if input.bytes.length < headerEnd + 4 + length then .ok none
        else .ok (some ((input.bytes.drop (headerEnd + 4)).take length,
          input.bytes.drop (headerEnd + 4 + length)))) ∧
    ((¬ ∃ length, HeaderAnnounces (lines lineBreak (input.bytes.take headerEnd)) length) →
      ∃ message, parseRound input = .error (.refused message)) ∧
    (1 < (lines lineBreak (input.bytes.take headerEnd)).countP isLengthLine →
      ∃ message, parseRound input = .error (.refused message)) ∧
    (∀ line ∈ lines lineBreak (input.bytes.take headerEnd), isLengthLine line = true →
      (∀ length, ¬ LineAnnounces line length) →
      ∃ message, parseRound input = .error (.refused message)) := by
  refine ⟨announcedLength_eq_ok_iff input hend, ⟨?_, ?_⟩, ?_, ?_, ?_, ?_⟩
  · rw [announcedLength_eq input hend]
    exact exactly_ne_inexact _
  · rw [parseRound_eq]
    exact exactly_ne_inexact _
  · exact fun length ↦ parseRound_of_announced input hend hwithin
  · exact parseRound_of_not_announced input hend
  · exact fun hmany ↦ parseRound_of_not_announced input hend (not_announced_of_many hmany)
  · exact fun line hmem hkind hline ↦
      parseRound_of_not_announced input hend (not_announced_of_mem hmem hkind hline)

def SizeT.bits64 : SizeT := ⟨64, by decide⟩

/-- A header of two lines, of which the second announces seven bytes. -/
def paddedHeader : Buffer .bits64 where
  bytes := ascii "Content-Type: json" ++ lineBreak ++ ascii "Content-Length:  007" ++
    headerTerminator
  fits := by decide

theorem announcedLength_exact_padded :
    announcedLength SizeT.bits64.size paddedHeader.bytes 40 = .ok 7 := by
  have hlines : lines lineBreak (paddedHeader.bytes.take 40) =
      [ascii "Content-Type: json", ascii "Content-Length:  007"] := by decide +kernel
  refine ((announcedLength_exact paddedHeader (by decide) (by decide)).1 7).mpr ?_
  rw [hlines]
  refine ⟨ascii "Content-Length:  007", by decide, ?_⟩
  exact (lineAnnounces_iff (ascii "  007") 7).mpr ⟨by decide, by decide⟩

end Gzscript.Lsp.LengthArithmetic
