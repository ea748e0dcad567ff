import Gzscript.Library.Decimal
import Gzscript.Library.Fallible
import Gzscript.Library.Lines
import Gzscript.Lsp.Framing

/-!
# The length a header announces

A header is a block of lines, of which only the last one has no line break of its own. Exactly one
of them is to begin with `Content-Length:`, and on it nothing follows but spaces and the digits of a
number up to `messageLimit` (`HeaderAnnounces`). The loop over the lines finds this number whenever
it is announced (`headerLines_eq_ok_iff`) and refuses every other header with a line of that kind.
-/

set_option autoImplicit false
set_option relaxedAutoImplicit false

namespace Gzscript.Lsp.ContentLength

open Library.Bytes Library.Lines Library.Decimal Library.Fallible Framing

/-! ### What is to be announced -/

/-- A line that begins with `Content-Length:`. -/
def isLengthLine (line : ByteString) : Bool := contentLengthPrefix.isPrefixOf line

/-- After the prefix, a line has spaces and the digits of a length. -/
def LineAnnounces (line : ByteString) (length : ℕ) : Prop :=
  ∃ spaces digits, line = contentLengthPrefix ++ (List.replicate spaces 32 ++ digits) ∧
    digits ≠ [] ∧ (∀ digit ∈ digits, IsDigit digit) ∧
    decimalValue digits = length ∧ length ≤ messageLimit

/-- Exactly one line begins with the prefix, and it announces a length. -/
def HeaderAnnounces (lines : List ByteString) (length : ℕ) : Prop :=
  ∃ line, lines.filter isLengthLine = [line] ∧ LineAnnounces line length

/-- A second line of the kind spoils the header. -/
theorem not_announced_of_many {lines : List ByteString} (hmany : 1 < lines.countP isLengthLine) :
    ¬ ∃ length, HeaderAnnounces lines length := by
  rintro ⟨length, line, hline, -⟩
  rw [List.countP_eq_length_filter, hline] at hmany
  exact Nat.lt_irrefl 1 hmany

/-- So does a line of the kind that announces nothing. -/
theorem not_announced_of_mem {lines : List ByteString} {line : ByteString} (hmem : line ∈ lines)
    (hkind : isLengthLine line = true) (hline : ∀ length, ¬ LineAnnounces line length) :
    ¬ ∃ length, HeaderAnnounces lines length := by
  rintro ⟨length, other, hother, hannounces⟩
  have hsame : line ∈ lines.filter isLengthLine := List.mem_filter.mpr ⟨hmem, hkind⟩
  rw [hother, List.mem_singleton] at hsame
  exact hline length (hsame ▸ hannounces)

/-! ### Digits -/

theorem messageLimit_digit {digit : UInt8} (h : IsDigit digit) : digitValue digit ≤ messageLimit :=
  h.digitValue_le.trans (by decide)

/-- The test that a digit fails, which divides where the number would be multiplied. -/
theorem digit_refused_iff (digit : UInt8) (number : ℕ) :
    (digit < 48 ∨ 57 < digit ∨ (messageLimit - (digit.toNat - 48)) / 10 < number) ↔
      ¬ (IsDigit digit ∧ number * 10 + digitValue digit ≤ messageLimit) := by
  rw [← or_assoc, ← not_isDigit_iff, not_and_or, Nat.not_le]
  by_cases hdigit : IsDigit digit
  · rw [or_iff_right (not_not_intro hdigit), or_iff_right (not_not_intro hdigit)]
    exact limit_div_lt_iff (messageLimit_digit hdigit)
  · exact iff_of_true (.inl hdigit) (.inl hdigit)

theorem lengthDigits_cons (number : ℕ) (digit : UInt8) (digits : ByteString) :
    lengthDigits number (digit :: digits) =
      if IsDigit digit ∧ number * 10 + digitValue digit ≤ messageLimit then
        lengthDigits (number * 10 + digitValue digit) digits
      else .error oversizedLength := by
  rw [lengthDigits]
  by_cases haccepted : IsDigit digit ∧ number * 10 + digitValue digit ≤ messageLimit
  · rw [if_pos haccepted, if_neg fun h ↦ (digit_refused_iff digit number).mp h haccepted]
    rfl
  · rw [if_neg haccepted, if_pos ((digit_refused_iff digit number).mpr haccepted)]

/-- Digits are read to the end exactly if the number they make up is within the limit. -/
theorem lengthDigits_eq_ok_iff {number length : ℕ} (hnumber : number ≤ messageLimit)
    (digits : ByteString) :
    lengthDigits number digits = .ok length ↔ (∀ digit ∈ digits, IsDigit digit) ∧
      number * 10 ^ digits.length + decimalValue digits = length ∧ length ≤ messageLimit := by
  induction digits generalizing number with
  | nil =>
    rw [lengthDigits, Except.ok.injEq, decimalValue_nil, List.length_nil, Nat.pow_zero, Nat.mul_one,
      Nat.add_zero]
    constructor
    · rintro rfl
      exact ⟨List.forall_mem_nil _, rfl, hnumber⟩
    · exact fun h ↦ h.2.1
  | cons digit digits ih =>
    have hvalue : number * 10 ^ (digit :: digits).length + decimalValue (digit :: digits) =
        (number * 10 + digitValue digit) * 10 ^ digits.length + decimalValue digits := by
      rw [decimalValue_cons, List.length_cons, Nat.pow_succ', ← Nat.mul_assoc, ← Nat.add_assoc,
        Nat.add_mul]
    rw [hvalue, List.forall_mem_cons, lengthDigits_cons]
    by_cases haccepted : IsDigit digit ∧ number * 10 + digitValue digit ≤ messageLimit
    · rw [if_pos haccepted, and_iff_right haccepted.1]
      exact ih haccepted.2
    · rw [if_neg haccepted]
      refine iff_of_false (fun h ↦ by cases h) ?_
      rintro ⟨⟨hdigit, -⟩, rfl, hwithin⟩
      -- more digits do not make the number smaller
      have hgrows : number * 10 + digitValue digit ≤
          (number * 10 + digitValue digit) * 10 ^ digits.length :=
        Nat.le_mul_of_pos_right _ (Nat.pow_pos (by decide))
      exact haccepted ⟨hdigit, by omega⟩

/-! ### Lines -/

theorem space_not_digit : ¬ IsDigit 32 := by decide

/-- Spaces and digits are told apart by where the first digit is. -/
theorem dropWhile_spaces {spaces : ℕ} {digits : ByteString}
    (hdigits : ∀ digit ∈ digits, IsDigit digit) :
    (List.replicate spaces 32 ++ digits).dropWhile (· == 32) = digits := by
  rw [List.dropWhile_append_of_pos (fun byte hbyte ↦ by rw [List.eq_of_mem_replicate hbyte]; rfl)]
  cases digits with
  | nil => rfl
  | cons digit digits =>
    have hne : ¬ (digit == 32) = true := by
      rw [beq_iff_eq]
      rintro rfl
      exact space_not_digit (hdigits 32 List.mem_cons_self)
    exact List.dropWhile_cons_of_neg hne

theorem exists_spaces (text : ByteString) :
    ∃ spaces, text = List.replicate spaces 32 ++ text.dropWhile (· == 32) := by
  refine ⟨(text.takeWhile (· == 32)).length, ?_⟩
  have hall : text.takeWhile (· == 32) =
      List.replicate (text.takeWhile (· == 32)).length 32 := by
    refine List.eq_replicate_of_mem fun byte hbyte ↦ ?_
    exact eq_of_beq (List.all_eq_true.mp List.all_takeWhile byte hbyte)
  rw [← hall, List.takeWhile_append_dropWhile]

/-- What is read behind the prefix. -/
theorem lineAnnounces_iff (rest : ByteString) (length : ℕ) :
    LineAnnounces (contentLengthPrefix ++ rest) length ↔
      rest.dropWhile (· == 32) ≠ [] ∧ lengthDigits 0 (rest.dropWhile (· == 32)) = .ok length := by
  rw [lengthDigits_eq_ok_iff (Nat.zero_le _), Nat.zero_mul, Nat.zero_add]
  constructor
  · rintro ⟨spaces, digits, hline, hne, hdigits, hvalue, hwithin⟩
    rw [List.append_cancel_left hline, dropWhile_spaces hdigits]
    exact ⟨hne, hdigits, hvalue, hwithin⟩
  · rintro ⟨hne, hdigits, hvalue, hwithin⟩
    obtain ⟨spaces, hspaces⟩ := exists_spaces rest
    exact ⟨spaces, _, congrArg (contentLengthPrefix ++ ·) hspaces, hne, hdigits, hvalue, hwithin⟩

theorem headerLine_of_other {line : ByteString} (h : isLengthLine line = false)
    (length : Option ℕ) : headerLine line length = .ok length := by
  have hnot : ¬ isLengthLine line = true := by rw [h]; exact Bool.false_ne_true
  unfold headerLine
  exact if_neg hnot

theorem headerLine_second {line : ByteString} (h : isLengthLine line = true) (length : ℕ) :
    headerLine line (some length) = .error duplicateLength := if_pos h

theorem isLengthLine_append (rest : ByteString) :
    isLengthLine (contentLengthPrefix ++ rest) = true :=
  List.isPrefixOf_iff_prefix.mpr (List.prefix_append _ _)

theorem headerLine_first (rest : ByteString) :
    headerLine (contentLengthPrefix ++ rest) none =
      if rest.dropWhile (· == 32) = [] then .error invalidLength
      else (lengthDigits 0 (rest.dropWhile (· == 32))).map some := by
  unfold headerLine
  rw [List.drop_left]
  refine (if_pos (isLengthLine_append rest)).trans ?_
  cases rest.dropWhile (· == 32) <;> rfl

/-- The first line of its kind gives the length it announces, if it does. -/
theorem headerLine_first_iff {line : ByteString} (h : isLengthLine line = true)
    (result : Option ℕ) : headerLine line none = .ok result ↔
      ∃ length, result = some length ∧ LineAnnounces line length := by
  obtain ⟨rest, rfl⟩ := List.isPrefixOf_iff_prefix.mp h
  simp only [lineAnnounces_iff]
  rw [headerLine_first]
  by_cases hnil : rest.dropWhile (· == 32) = []
  · rw [if_pos hnil]
    exact iff_of_false (fun herror ↦ by cases herror) fun ⟨_, _, hne, _⟩ ↦ hne hnil
  · rw [if_neg hnil]
    cases hread : lengthDigits 0 (rest.dropWhile (· == 32)) with
    | error message =>
      exact iff_of_false (fun herror ↦ by cases herror) fun ⟨_, _, _, hok⟩ ↦ by cases hok
    | ok length =>
      constructor
      · intro hresult
        obtain rfl := Except.ok.inj hresult
        exact ⟨length, rfl, hnil, rfl⟩
      · rintro ⟨other, rfl, -, hother⟩
        obtain rfl := Except.ok.inj hother
        rfl

/-! ### Headers -/

/-- The lines of a header, after lines that announced `length`. -/
def readLines (length : Option ℕ) (lines : List ByteString) : Except String (Option ℕ) :=
  lines.foldlM (fun length line ↦ headerLine line length) length

theorem readLines_cons (length : Option ℕ) (line : ByteString) (lines : List ByteString) :
    readLines length (line :: lines) =
      headerLine line length >>= fun next ↦ readLines next lines := List.foldlM_cons

/-- Other lines do not matter. -/
theorem readLines_filter (length : Option ℕ) (lines : List ByteString) :
    readLines length (lines.filter isLengthLine) = readLines length lines := by
  induction lines generalizing length with
  | nil => rfl
  | cons line lines ih =>
    cases hline : isLengthLine line with
    | true =>
      rw [List.filter_cons_of_pos hline, readLines_cons, readLines_cons]
      exact congrArg _ (funext ih)
    | false =>
      rw [List.filter_cons_of_neg (by rw [hline]; exact Bool.false_ne_true), readLines_cons,
        headerLine_of_other hline]
      exact ih length

/-- The lines of a header give a length exactly if they announce it. -/
theorem readLines_eq_ok_iff (lines : List ByteString) (length : ℕ) :
    readLines none lines = .ok (some length) ↔ HeaderAnnounces lines length := by
  have hall : ∀ line ∈ lines.filter isLengthLine, isLengthLine line = true := fun line hline ↦
    (List.mem_filter.mp hline).2
  rw [← readLines_filter, HeaderAnnounces]
  rcases hfiltered : lines.filter isLengthLine with _ | ⟨first, rest⟩
  · refine iff_of_false (fun hnone ↦ ?_) ?_
    · exact absurd (Except.ok.inj hnone) (Option.some_ne_none length).symm
    · rintro ⟨line, hline, -⟩
      exact List.cons_ne_nil _ _ hline.symm
  · rw [hfiltered, List.forall_mem_cons] at hall
    rw [readLines_cons, bind_eq_ok]
    rcases rest with _ | ⟨second, more⟩
    · constructor
      · rintro ⟨next, hnext, hlast⟩
        obtain rfl := Except.ok.inj hlast
        obtain ⟨other, hother, hline⟩ := (headerLine_first_iff hall.1 _).mp hnext
        obtain rfl := Option.some.inj hother
        exact ⟨first, rfl, hline⟩
      · rintro ⟨line, heq, hline⟩
        obtain rfl := List.singleton_inj.mp heq
        exact ⟨some length, (headerLine_first_iff hall.1 _).mpr ⟨length, rfl, hline⟩, rfl⟩
    · refine iff_of_false ?_ ?_
      · -- the second line of the kind is refused, whatever the first one announced
        rintro ⟨next, hnext, hlater⟩
        obtain ⟨other, rfl, -⟩ := (headerLine_first_iff hall.1 _).mp hnext
        rw [readLines_cons, headerLine_second (hall.2 second List.mem_cons_self)] at hlater
        cases hlater
      · rintro ⟨line, heq, -⟩
        exact List.cons_ne_nil _ _ (List.cons.inj heq).2

/-! ### The loop over the lines -/

theorem lineBreak_unbordered : Unbordered lineBreak := by
  intro shift hpositive hlt
  obtain rfl : shift = 1 := by
    have hlength : lineBreak.length = 2 := rfl
    omega
  decide

section Loop

variable {input line more : ByteString} {headerEnd lineStart : ℕ}

/-- A line ends where its line break is, or the one at the end of the header. -/
theorem lineEnd_of_line (hplain : find lineBreak line = none)
    (hdrop : input.drop lineStart = line ++ (lineBreak ++ more))
    (hle : lineStart + line.length ≤ headerEnd) :
    lineEnd input headerEnd lineStart = lineStart + line.length := by
  rw [lineEnd, hdrop, find_after_line lineBreak_unbordered hplain]
  exact if_neg (Nat.not_lt.mpr hle)

theorem lineAt_of_line (hplain : find lineBreak line = none)
    (hdrop : input.drop lineStart = line ++ (lineBreak ++ more))
    (hle : lineStart + line.length ≤ headerEnd) : lineAt input headerEnd lineStart = line := by
  rw [lineAt, lineEnd_of_line hplain hdrop hle, hdrop, Nat.add_sub_cancel_left, List.take_left]

end Loop

/-- What is left of a header is followed by a line break of its terminator. -/
theorem drop_before_terminator {input : ByteString} {headerEnd lineStart : ℕ}
    (hend : find headerTerminator input = some headerEnd) (hline : lineStart ≤ headerEnd) :
    ∃ more, input.drop lineStart =
      (input.take headerEnd).drop lineStart ++ (lineBreak ++ more) := by
  have hfits := headerEnd_fits hend
  obtain ⟨more, hmore⟩ := lineBreak_prefix.trans (prefix_of_find hend)
  have hlength : lineStart ≤ (input.take headerEnd).length := by
    rw [List.length_take]
    omega
  refine ⟨more, ?_⟩
  rw [hmore, ← List.drop_append_of_le_length hlength, List.take_append_drop]

section Header

variable {input : ByteString} {headerEnd lineStart : ℕ}

theorem length_before_terminator (hend : find headerTerminator input = some headerEnd)
    (lineStart : ℕ) : ((input.take headerEnd).drop lineStart).length = headerEnd - lineStart := by
  have hfits := headerEnd_fits hend
  rw [List.length_drop, List.length_take]
  omega

/-- The last line, which the terminator ends. -/
theorem headerLines_last (hend : find headerTerminator input = some headerEnd) {line : ByteString}
    (hplain : find lineBreak line = none) (htext : (input.take headerEnd).drop lineStart = line)
    (length : Option ℕ) :
    headerLines input headerEnd lineStart length = headerLine line length := by
  have hlength := length_before_terminator hend lineStart
  rcases Nat.lt_or_ge lineStart headerEnd with hline | hline
  · obtain ⟨more, hdrop⟩ := drop_before_terminator hend hline.le
    rw [htext] at hdrop hlength
    have hle : lineStart + line.length ≤ headerEnd := by omega
    rw [headerLines_of_lt input hline, lineAt_of_line hplain hdrop hle,
      lineEnd_of_line hplain hdrop hle]
    have hnext : headerLines input headerEnd (lineStart + line.length + 2) = .ok :=
      funext (headerLines_of_le input (by omega))
    rw [hnext]
    exact bind_pure (headerLine line length)
  · -- behind the end of the header there is only the empty line
    obtain rfl : line = [] := by
      rw [← htext, ← List.length_eq_zero_iff, hlength]
      omega
    rw [headerLines_of_le input hline, headerLine_of_other rfl]

/-- A line with a line break of its own. -/
theorem headerLines_next (hend : find headerTerminator input = some headerEnd)
    {line rest : ByteString} (hplain : find lineBreak line = none)
    (htext : (input.take headerEnd).drop lineStart = line ++ (lineBreak ++ rest))
    (length : Option ℕ) :
    headerLines input headerEnd lineStart length =
      headerLine line length >>= headerLines input headerEnd (lineStart + line.length + 2) := by
  have hlength := length_before_terminator hend lineStart
  have hbreak : lineBreak.length = 2 := rfl
  rw [htext, List.length_append, List.length_append] at hlength
  obtain ⟨more, hdrop⟩ := drop_before_terminator hend (show lineStart ≤ headerEnd by omega)
  rw [htext, List.append_assoc, List.append_assoc] at hdrop
  rw [headerLines_of_lt input (by omega), lineAt_of_line hplain hdrop (by omega),
    lineEnd_of_line hplain hdrop (by omega)]
  rfl

end Header

/-- From the start of a line on, the loop reads the lines up to the end of the header. -/
theorem headerLines_eq_readLines {input : ByteString} {headerEnd : ℕ}
    (hend : find headerTerminator input = some headerEnd) {lines : List ByteString}
    {lineStart : ℕ} (hlines : IsLines lineBreak lines ((input.take headerEnd).drop lineStart))
    (length : Option ℕ) :
    headerLines input headerEnd lineStart length = readLines length lines := by
  induction lines generalizing lineStart length with
  | nil =>
    have hlength := length_before_terminator hend lineStart
    rw [← hlines.joined, List.intercalate_nil, List.length_nil] at hlength
    exact headerLines_of_le input (by omega) length
  | cons line lines ih =>
    have hplain := hlines.plain line List.mem_cons_self
    rw [readLines_cons]
    cases lines with
    | nil =>
      have htext := hlines.joined.symm.trans List.intercalate_singleton
      rw [headerLines_last hend hplain htext]
      exact (bind_pure _).symm
    | cons second rest =>
      have htext : (input.take headerEnd).drop lineStart =
          line ++ (lineBreak ++ lineBreak.intercalate (second :: rest)) := by
        rw [← hlines.joined, List.intercalate_cons_cons, List.append_assoc]
      have hrest : (input.take headerEnd).drop (lineStart + line.length + 2) =
          lineBreak.intercalate (second :: rest) := by
        rw [Nat.add_assoc, ← List.drop_drop, htext, ← List.append_assoc]
        exact List.drop_left' List.length_append
      rw [headerLines_next hend hplain htext]
      refine congrArg _ (funext fun next ↦ ih ⟨hrest.symm, fun other hother ↦ ?_⟩ next)
      exact hlines.plain other (List.mem_cons_of_mem line hother)

/-- The loop over the lines gives a length exactly if the header announces it. -/
theorem headerLines_eq_ok_iff {input : ByteString} {headerEnd : ℕ}
    (hend : find headerTerminator input = some headerEnd) (length : ℕ) :
    headerLines input headerEnd 0 none = .ok (some length) ↔
      HeaderAnnounces (lines lineBreak (input.take headerEnd)) length := by
  have hlines : IsLines lineBreak (lines lineBreak (input.take headerEnd))
      ((input.take headerEnd).drop 0) := isLines_lines (by decide) _
  rw [headerLines_eq_readLines hend hlines, readLines_eq_ok_iff]

end Gzscript.Lsp.ContentLength
