import Gzscript.Build.PairedQuotes

/-!
# What the scan of a file misses

The scan passes over comments and quotes by rules of its own, and the operands it returns are read
off the positions these leave (`codePositions`), in their order (`scan_eq_collect`). These are the
positions in front of which the quotes of the text pair up (`mem_sourceDependencies`). The rules are
those of the language but for one: there is none for a multiline string line. The scan keeps to the
tokens of a file as long as the quotes of each of these lines pair up (`subset_of_taken` for one
token, `builtin_mem_codePositions` for a file), and a call there is read as it is written
(`soleLiteral_eq_operand`). A line with a quote that it does not close takes the text behind it
along, up to the next quote of that kind.

The list is complete just where every call behind such a line is matched by a call of the same
operand in front of which the quotes pair up (`scan_complete_iff`). An apostrophe in a multiline
string hides the imports behind it (`apostropheSource_import_missed`).
-/

set_option autoImplicit false
set_option relaxedAutoImplicit false

namespace Gzscript.Build.ScanCompleteness

open SourceScan ZigTokens PairedQuotes

/-! ### The positions of the scan -/

/-- The rest of the text at each position that is code where only comments and quotes are passed
over. -/
def codePositions (text : List Char) : List (List Char) :=
  match text with
  | [] => []
  | c :: rest =>
    if c = '/' ∧ rest.head? = some '/' then codePositions (skipLine rest.tail)
    else if c = doubleQuote ∨ c = singleQuote then codePositions (skipQuoted c rest)
    else (c :: rest) :: codePositions rest
termination_by text.length
decreasing_by
  · exact Nat.lt_succ_of_le (Nat.le_trans (length_skipLine _) (List.tail_sublist rest).length_le)
  · exact Nat.lt_succ_of_le (length_skipQuoted c rest)
  · exact Nat.lt_succ_self _

/-- Whether the text begins with the name of a builtin that depends on a file, whether that one is
`@import`, and the text behind the name. -/
def builtinAt (text : List Char) : Option (Bool × List Char) :=
  if "@import".toList.isPrefixOf text then some (true, text.drop 7)
  else if "@embedFile".toList.isPrefixOf text then some (false, text.drop 10)
  else none

/-- The operand of the call the text begins with. -/
def callAt (text : List Char) : Option SourceDependency :=
  (builtinAt text).bind fun found ↦
    (readCall found.2).map fun read ↦ ⟨String.ofList read.1, found.1⟩

/-- The operands at some positions, unless one of the calls there cannot be read. -/
def collect : List (List Char) → Option (List SourceDependency)
  | [] => some []
  | text :: positions =>
    match builtinAt text with
    | none => collect positions
    | some found =>
      match readCall found.2 with
      | none => none
      | some (operand, _) =>
        (collect positions).map (⟨String.ofList operand, found.1⟩ :: ·)

/-- A character that neither opens a literal or a comment nor begins the name of a builtin. -/
def Plain (c : Char) : Prop := c ≠ '/' ∧ c ≠ doubleQuote ∧ c ≠ singleQuote ∧ c ≠ '@'

theorem codePositions_cons {c : Char} {rest : List Char}
    (hcomment : ¬(c = '/' ∧ rest.head? = some '/'))
    (hquote : ¬(c = doubleQuote ∨ c = singleQuote)) :
    codePositions (c :: rest) = (c :: rest) :: codePositions rest := by
  rw [codePositions, if_neg hcomment, if_neg hquote]

theorem not_comment_of_quote {c : Char} (rest : List Char)
    (hquote : c = doubleQuote ∨ c = singleQuote) : ¬(c = '/' ∧ rest.head? = some '/') := by
  rintro ⟨rfl, -⟩
  revert hquote
  decide

theorem codePositions_quote {c : Char} (rest : List Char)
    (hquote : c = doubleQuote ∨ c = singleQuote) :
    codePositions (c :: rest) = codePositions (skipQuoted c rest) := by
  rw [codePositions, if_neg (not_comment_of_quote rest hquote), if_pos hquote]

theorem codePositions_comment (rest : List Char) :
    codePositions ('/' :: '/' :: rest) = codePositions (skipLine rest) := by
  rw [codePositions, if_pos ⟨rfl, rfl⟩, List.tail_cons]

theorem builtinAt_cons {c : Char} (rest : List Char) (hat : c ≠ '@') :
    builtinAt (c :: rest) = none := by
  have himport : "@import".toList.isPrefixOf (c :: rest) = false := by
    rw [show "@import".toList = '@' :: "import".toList from rfl, List.isPrefixOf,
      beq_eq_false_iff_ne.mpr (Ne.symm hat), Bool.false_and]
  have hembed : "@embedFile".toList.isPrefixOf (c :: rest) = false := by
    rw [show "@embedFile".toList = '@' :: "embedFile".toList from rfl, List.isPrefixOf,
      beq_eq_false_iff_ne.mpr (Ne.symm hat), Bool.false_and]
  rw [builtinAt, himport, hembed]
  rfl

theorem collect_cons {c : Char} {rest : List Char} {positions : List (List Char)} (hat : c ≠ '@') :
    collect ((c :: rest) :: positions) = collect positions := by
  rw [collect, builtinAt_cons rest hat]

theorem collect_plain {c : Char} (rest : List Char) (hplain : Plain c) :
    collect (codePositions (c :: rest)) = collect (codePositions rest) := by
  obtain ⟨hslash, hdouble, hsingle, hat⟩ := hplain
  rw [codePositions_cons (fun h ↦ hslash h.1) (not_or.mpr ⟨hdouble, hsingle⟩), collect_cons hat]

theorem collect_plain_append (plain rest : List Char) (hplain : ∀ c ∈ plain, Plain c) :
    collect (codePositions (plain ++ rest)) = collect (codePositions rest) := by
  induction plain with
  | nil => rfl
  | cons c plain ih =>
    rw [List.cons_append, collect_plain _ (hplain c List.mem_cons_self)]
    exact ih fun d hd ↦ hplain d (List.mem_cons_of_mem _ hd)

theorem plain_of_isBlank {c : Char} (hblank : isBlank c = true) : Plain c := by
  simp only [isBlank, Bool.or_eq_true, beq_iff_eq] at hblank
  rcases hblank with ((rfl | rfl) | rfl) | rfl <;>
    exact ⟨by decide, by decide, by decide, by decide⟩

theorem collect_dropWhile_isBlank (text : List Char) :
    collect (codePositions (text.dropWhile isBlank)) = collect (codePositions text) := by
  have hblanks : ∀ c ∈ text.takeWhile isBlank, Plain c := fun c hc ↦
    plain_of_isBlank (List.mem_takeWhile_imp hc)
  conv_rhs => rw [← List.takeWhile_append_dropWhile (p := isBlank) (l := text)]
  exact (collect_plain_append _ _ hblanks).symm

/-! ### The operands are read off the positions -/

theorem skipQuoted_quote {quote : Char} (rest : List Char) (hquote : quote ≠ backslash) :
    skipQuoted quote (quote :: rest) = rest := by
  cases rest with
  | nil => rfl
  | cons next rest => rw [skipQuoted, if_neg hquote, if_pos rfl]

theorem skipQuoted_escape (quote next : Char) (rest : List Char) :
    skipQuoted quote (backslash :: next :: rest) = skipQuoted quote rest := by
  rw [skipQuoted, if_pos rfl]

theorem skipQuoted_other {quote c : Char} (rest : List Char) (hescape : c ≠ backslash)
    (hother : c ≠ quote) : skipQuoted quote (c :: rest) = skipQuoted quote rest := by
  cases rest with
  | nil => rfl
  | cons next rest => rw [skipQuoted, if_neg hescape, if_neg hother]

theorem skipQuoted_of_readOperand {text operand after : List Char}
    (h : readOperand text = some (operand, after)) : skipQuoted doubleQuote text = after := by
  induction text generalizing operand with
  | nil => cases h
  | cons c text ih =>
    rw [readOperand] at h
    split_ifs at h with hquote hescape
    · cases h
      subst hquote
      exact skipQuoted_quote _ (by decide)
    · obtain ⟨⟨tail, after'⟩, hread, heq⟩ := Option.map_eq_some_iff.mp h
      cases heq
      rw [skipQuoted_other text hescape hquote]
      exact ih hread

/-- A call that is read: the parenthesis and the operand, behind blanks. -/
theorem readCall_eq_some {text operand after : List Char}
    (h : readCall text = some (operand, after)) :
    ∃ inner behind, text.dropWhile isBlank = '(' :: inner ∧
      inner.dropWhile isBlank = doubleQuote :: behind ∧
      readOperand behind = some (operand, after) := by
  obtain ⟨between, inner, hbetween, hinner, hplain, rfl⟩ := readCall_eq_some_iff.mp h
  refine ⟨_, _, dropWhile_isBlank_eq hbetween (by decide),
    dropWhile_isBlank_eq hinner (by decide), ?_⟩
  exact readOperand_eq_some_iff.mpr ⟨hplain, rfl⟩

theorem collect_readCall {text operand after : List Char}
    (h : readCall text = some (operand, after)) :
    collect (codePositions text) = collect (codePositions after) := by
  obtain ⟨inner, behind, hopen, hquote, hread⟩ := readCall_eq_some h
  have hparen : Plain '(' := ⟨by decide, by decide, by decide, by decide⟩
  rw [← collect_dropWhile_isBlank text, hopen, collect_plain inner hparen,
    ← collect_dropWhile_isBlank inner, hquote, codePositions_quote behind (.inl rfl),
    skipQuoted_of_readOperand hread]

theorem plain_of_isAlpha {c : Char} (halpha : c.isAlpha = true) : Plain c := by
  refine ⟨?_, ?_, ?_, ?_⟩ <;>
    · rintro rfl
      revert halpha
      decide

theorem builtinAt_eq_some_iff {text behind : List Char} {isImport : Bool} :
    builtinAt text = some (isImport, behind) ↔ text = builtinName isImport ++ behind := by
  constructor
  · intro h
    unfold builtinAt at h
    split_ifs at h with himport hembed
    · obtain ⟨tail, rfl⟩ := List.isPrefixOf_iff_prefix.mp himport
      cases h
      rfl
    · obtain ⟨tail, rfl⟩ := List.isPrefixOf_iff_prefix.mp hembed
      cases h
      rfl
  · rintro rfl
    rcases isImport with _ | _
    · rfl
    · rfl

theorem builtinAt_eq_some {text behind : List Char} {isImport : Bool}
    (h : builtinAt text = some (isImport, behind)) :
    ∃ name, name.all Char.isAlpha = true ∧ text = '@' :: (name ++ behind) := by
  rw [builtinAt_eq_some_iff.mp h]
  rcases isImport with _ | _
  · exact ⟨"embedFile".toList, by decide, rfl⟩
  · exact ⟨"import".toList, by decide, rfl⟩

theorem length_builtinAt {text : List Char} {found : Bool × List Char}
    (h : builtinAt text = some found) : found.2.length < text.length := by
  obtain ⟨name, -, rfl⟩ := builtinAt_eq_some h
  simp only [List.length_cons, List.length_append]
  omega

/-- The round of the scan at a position of code. -/
theorem scan_cons {c : Char} {rest : List Char} (hcomment : ¬(c = '/' ∧ rest.head? = some '/'))
    (hquote : ¬(c = doubleQuote ∨ c = singleQuote)) :
    scan (c :: rest) =
      match builtinAt (c :: rest) with
      | none => scan rest
      | some found =>
        match readCall found.2 with
        | none => none
        | some (operand, after) =>
          (scan after).map (⟨String.ofList operand, found.1⟩ :: ·) := by
  rw [scan, if_neg hcomment, if_neg hquote, builtinAt]
  by_cases himport : "@import".toList.isPrefixOf (c :: rest) = true
  · have hbehind : (c :: rest).drop 7 = rest.drop 6 := rfl
    rw [if_pos himport, if_pos himport, hbehind]
    split
    next hread => simp only [hread]
    next hread => simp only [hread]
  · rw [if_neg himport, if_neg himport]
    by_cases hembed : "@embedFile".toList.isPrefixOf (c :: rest) = true
    · have hbehind : (c :: rest).drop 10 = rest.drop 9 := rfl
      rw [if_pos hembed, if_pos hembed, hbehind]
      split
      next hread => simp only [hread]
      next hread => simp only [hread]
    · rw [if_neg hembed, if_neg hembed]

theorem collect_codePositions_cons {c : Char} {rest behind : List Char} {isImport : Bool}
    (hbuiltin : builtinAt (c :: rest) = some (isImport, behind)) :
    collect (codePositions (c :: rest)) =
      match readCall behind with
      | none => none
      | some (operand, after) =>
        (collect (codePositions after)).map (⟨String.ofList operand, isImport⟩ :: ·) := by
  obtain ⟨name, hname, htext⟩ := builtinAt_eq_some hbuiltin
  obtain ⟨rfl, rfl⟩ := List.cons.inj htext
  have hplain : ∀ c ∈ name, Plain c := fun c hc ↦
    plain_of_isAlpha (List.all_eq_true.mp hname c hc)
  rw [codePositions_cons (fun h ↦ absurd h.1 (by decide)) (by decide), collect, hbuiltin]
  cases hread : readCall behind with
  | none => simp only [hread]
  | some read =>
    obtain ⟨operand, after⟩ := read
    simp only [hread]
    rw [collect_plain_append name behind hplain, collect_readCall hread]

theorem scan_eq_collect (text : List Char) : scan text = collect (codePositions text) := by
  induction hlength : text.length using Nat.strong_induction_on generalizing text with
  | _ length ih =>
  subst hlength
  cases text with
  | nil => rw [scan, codePositions, collect]
  | cons c rest =>
    by_cases hcomment : c = '/' ∧ rest.head? = some '/'
    · rw [scan, codePositions, if_pos hcomment, if_pos hcomment]
      exact ih _ (Nat.lt_succ_of_le (Nat.le_trans (length_skipLine _)
        (List.tail_sublist rest).length_le)) _ rfl
    by_cases hquote : c = doubleQuote ∨ c = singleQuote
    · rw [codePositions_quote rest hquote, scan, if_neg hcomment, if_pos hquote]
      exact ih _ (Nat.lt_succ_of_le (length_skipQuoted c rest)) _ rfl
    rw [scan_cons hcomment hquote]
    cases hbuiltin : builtinAt (c :: rest) with
    | none =>
      rw [codePositions_cons hcomment hquote, collect, hbuiltin]
      exact ih _ (Nat.lt_succ_self _) _ rfl
    | some found =>
      rw [collect_codePositions_cons hbuiltin]
      cases hread : readCall found.2 with
      | none => simp only [hread]
      | some read =>
        have hafter : read.2.length < (c :: rest).length :=
          Nat.lt_trans (length_readCall hread) (length_builtinAt hbuiltin)
        simp only [hread]
        rw [ih _ hafter _ rfl]

/-! ### The scan keeps to the tokens -/

/-- Where a literal is closed, the scan passes over as much of the text. -/
theorem skipQuoted_append {quote : Char} {text body behind : List Char} (rest : List Char)
    (hquote : quote ≠ backslash) (h : Quoted quote text body behind) :
    skipQuoted quote (text ++ rest) = behind ++ rest := by
  induction h with
  | closed =>
    rw [List.cons_append]
    exact skipQuoted_quote _ hquote
  | escaped _ ih =>
    rw [List.cons_append, List.cons_append, skipQuoted_escape]
    exact ih
  | plain hescape hother _ ih =>
    rw [List.cons_append, skipQuoted_other _ hescape hother]
    exact ih

theorem subset_codePositions_cons {c : Char} {rest : List Char}
    (hcomment : ¬(c = '/' ∧ rest.head? = some '/'))
    (hquote : ¬(c = doubleQuote ∨ c = singleQuote)) :
    codePositions rest ⊆ codePositions (c :: rest) := by
  rw [codePositions_cons hcomment hquote]
  exact List.subset_cons_self _ _

theorem Plain.subset {c : Char} (rest : List Char) (hplain : Plain c) :
    codePositions rest ⊆ codePositions (c :: rest) :=
  subset_codePositions_cons (fun h ↦ hplain.1 h.1) (not_or.mpr ⟨hplain.2.1, hplain.2.2.1⟩)

theorem subset_codePositions_append (plain rest : List Char) (hplain : ∀ c ∈ plain, Plain c) :
    codePositions rest ⊆ codePositions (plain ++ rest) := by
  induction plain with
  | nil => exact List.Subset.refl _
  | cons c plain ih =>
    have htail := ih fun d hd ↦ hplain d (List.mem_cons_of_mem _ hd)
    exact List.Subset.trans htail ((hplain c List.mem_cons_self).subset _)

theorem skipLine_append (front rest : List Char) (hfront : ∀ c ∈ front, c ≠ newline) :
    skipLine (front ++ newline :: rest) = rest := by
  induction front with
  | nil => rw [List.nil_append, skipLine, if_pos rfl]
  | cons c front ih =>
    rw [List.cons_append, skipLine, if_neg (hfront c List.mem_cons_self)]
    exact ih fun d hd ↦ hfront d (List.mem_cons_of_mem _ hd)

theorem ne_backslash {c : Char} (hquote : c = doubleQuote ∨ c = singleQuote) : c ≠ backslash := by
  rcases hquote with rfl | rfl <;> decide

/-- Where the quotes of a text pair up, the scan takes up again what follows it. -/
theorem Paired.subset {front : List Char} (hfront : Paired front) {rest : List Char}
    (hslash : front.getLast? = some '/' → rest.head? ≠ some '/') :
    codePositions rest ⊆ codePositions (front ++ rest) := by
  induction hfront with
  | nil => exact List.Subset.refl _
  | @comment line front hline _ ih =>
    have hskip : skipLine (line ++ newline :: (front ++ rest)) = front ++ rest :=
      skipLine_append line (front ++ rest) hline
    rw [List.cons_append, List.cons_append, List.append_assoc, List.cons_append,
      codePositions_comment, hskip]
    refine ih fun hlast ↦ hslash ?_
    rw [List.getLast?_cons, List.getLast?_cons, List.getLast?_append, List.getLast?_cons, hlast]
    rfl
  | @quoted quote literal body front hquote hliteral _ ih =>
    have hskip : skipQuoted quote (literal ++ (front ++ rest)) = front ++ rest :=
      skipQuoted_append _ (ne_backslash hquote) hliteral
    rw [List.cons_append, List.append_assoc, codePositions_quote _ hquote, hskip]
    refine ih fun hlast ↦ hslash ?_
    rw [List.getLast?_cons, List.getLast?_append, hlast]
    rfl
  | @plain c front hcomment hquote _ ih =>
    have htail : codePositions rest ⊆ codePositions (front ++ rest) :=
      ih fun hlast ↦ hslash (by rw [List.getLast?_cons, hlast]; rfl)
    refine List.Subset.trans htail (subset_codePositions_cons ?_ hquote)
    rintro ⟨rfl, hnext⟩
    cases front with
    | nil => exact hslash rfl hnext
    | cons d front => exact hcomment ⟨rfl, hnext⟩

theorem ne_newline_of_mem_line {text : List Char} {c : Char} (hc : c ∈ line text) : c ≠ newline :=
  of_decide_eq_true (List.mem_takeWhile_imp (p := fun c ↦ decide (c ≠ newline)) hc)

theorem skipLine_eq_nil_or (text : List Char) :
    skipLine text = [] ∨ text = line text ++ newline :: skipLine text := by
  induction text with
  | nil => exact .inl rfl
  | cons c text ih =>
    rw [skipLine]
    split_ifs with hbreak
    · subst hbreak
      exact .inr rfl
    · have hline : line (c :: text) = c :: line text :=
        List.takeWhile_cons_of_pos (decide_eq_true hbreak)
      rw [hline, List.cons_append]
      exact ih.imp_right (congrArg (c :: ·))

theorem subset_codePositions_skipLine {text : List Char}
    (hpaired : LinePaired (line text)) :
    codePositions (skipLine text) ⊆ codePositions text := by
  rcases skipLine_eq_nil_or text with hlast | htext
  · rw [hlast, codePositions]
    exact List.nil_subset _
  · have hsubset : codePositions (skipLine text) ⊆
        codePositions (line text ++ [newline] ++ skipLine text) := by
      refine Paired.subset hpaired fun hlast ↦ ?_
      rw [List.getLast?_concat] at hlast
      exact absurd (Option.some.inj hlast) (by decide)
    rwa [List.append_assoc, List.singleton_append, ← htext] at hsubset

theorem codePositions_literal {quote : Char} {rest text behind : List Char}
    (hquote : quote = doubleQuote ∨ quote = singleQuote)
    (hread : readQuoted quote rest = some (text, behind)) :
    codePositions (quote :: rest) = codePositions behind := by
  have hskip := skipQuoted_append [] (ne_backslash hquote) (quoted_of_readQuoted hread)
  rw [List.append_nil, List.append_nil] at hskip
  rw [codePositions_quote rest hquote, hskip]

theorem plain_of_isIdentifierPart {c : Char} (hpart : isIdentifierPart c = true) : Plain c := by
  refine ⟨?_, ?_, ?_, ?_⟩ <;>
    · rintro rfl
      revert hpart
      decide

theorem subset_codePositions_at (rest : List Char) :
    codePositions rest ⊆ codePositions ('@' :: rest) :=
  subset_codePositions_cons (fun h ↦ absurd h.1 (by decide)) (by decide)

/-- One token of the file takes the scan along, but for a line whose quotes do not pair up. -/
theorem subset_of_taken {c : Char} {rest behind : List Char} {token : Option Token}
    (htaken : Taken c rest token behind)
    (hpaired : ∀ line, token = some (.multilineLine line) → LinePaired line) :
    codePositions behind ⊆ codePositions (c :: rest) := by
  cases htaken with
  | blank hblank => exact (plain_of_isBlank hblank).subset _
  | comment =>
    rw [codePositions_comment]
    exact List.Subset.refl _
  | stringLiteral hread =>
    rw [codePositions_literal (.inl rfl) hread]
    exact List.Subset.refl _
  | charLiteral hread =>
    rw [codePositions_literal (.inr rfl) hread]
    exact List.Subset.refl _
  | @multilineLine text =>
    have hplain : Plain backslash := ⟨by decide, by decide, by decide, by decide⟩
    have hline := subset_codePositions_skipLine (hpaired _ rfl)
    exact List.Subset.trans hline (List.Subset.trans (hplain.subset text) (hplain.subset _))
  | @quotedIdentifier rest text behind hread =>
    have hat := subset_codePositions_at (doubleQuote :: rest)
    rwa [codePositions_literal (.inl rfl) hread] at hat
  | builtin hstart =>
    have hname : ∀ c ∈ rest.takeWhile isIdentifierPart, Plain c := fun c hc ↦
      plain_of_isIdentifierPart (List.mem_takeWhile_imp hc)
    have hsubset := subset_codePositions_append _ (rest.dropWhile isIdentifierPart) hname
    rw [List.takeWhile_append_dropWhile] at hsubset
    exact List.Subset.trans hsubset (subset_codePositions_at rest)
  | symbol hcomment hquote => exact subset_codePositions_cons hcomment hquote

/-- Every builtin of the file is at a position of the scan, unless the quotes of a line before it do
not pair up. -/
theorem builtin_mem_codePositions {text name : List Char} {before after : List Token}
    (htokens : tokens text = some (before ++ .builtin name :: after))
    (hpaired : ∀ line, .multilineLine line ∈ before → LinePaired line) :
    ∃ behind, '@' :: (name ++ behind) ∈ codePositions text ∧ tokens behind = some after := by
  induction text using tokens.induct generalizing before with
  | case1 =>
    rw [tokens] at htokens
    exact absurd (Option.some.inj htokens).symm (List.append_ne_nil_of_right_ne_nil _ (by simp))
  | case2 c rest hnext =>
    rw [tokens_eq_none hnext] at htokens
    cases htokens
  | case3 c rest token behind hnext ih =>
    have htaken := taken_of_next hnext
    rw [tokens_eq_map hnext] at htokens
    obtain ⟨found, hfound, heq⟩ := Option.map_eq_some_iff.mp htokens
    cases token with
    | none =>
      obtain ⟨rest', hmem, hrest⟩ := ih (hfound.trans (congrArg some heq)) hpaired
      have hsubset := subset_of_taken htaken (by simp)
      exact ⟨rest', hsubset hmem, hrest⟩
    | some token =>
      cases before with
      | nil =>
        obtain ⟨rfl, rfl⟩ := List.cons.inj heq
        cases htaken with
        | builtin =>
          refine ⟨_, ?_, hfound⟩
          rw [List.takeWhile_append_dropWhile,
            codePositions_cons (fun h ↦ absurd h.1 (by decide)) (by decide)]
          exact List.mem_cons_self
      | cons first before =>
        obtain ⟨rfl, htail⟩ := List.cons.inj heq
        obtain ⟨rest', hmem, hrest⟩ := ih (hfound.trans (congrArg some htail))
          fun line hline ↦ hpaired line (List.mem_cons_of_mem _ hline)
        have hsubset := subset_of_taken htaken fun line hline ↦
          hpaired line (List.mem_cons.mpr (.inl (Option.some.inj hline).symm))
        exact ⟨rest', hsubset hmem, hrest⟩

/-! ### Calls are read as the tokens have them -/

theorem tokens_dropWhile_isBlank (text : List Char) :
    tokens (text.dropWhile isBlank) = tokens text := by
  induction text with
  | nil => rfl
  | cons c text ih =>
    by_cases hblank : isBlank c = true
    · have hnext : next c text = some (none, text) := if_pos hblank
      rw [List.dropWhile_cons_of_pos hblank, ih, tokens_eq_map hnext, Option.toList_none]
      simp only [List.nil_append, Option.map_id']
    · rw [List.dropWhile_cons_of_neg hblank]

theorem Quoted.eq_operand {text operand after body behind : List Char}
    (hoperand : readOperand text = some (operand, after))
    (hbody : Quoted doubleQuote text body behind) : body = operand := by
  induction hbody generalizing operand with
  | closed =>
    rw [readOperand, if_pos rfl] at hoperand
    cases hoperand
    rfl
  | escaped =>
    rw [readOperand, if_neg (by decide), if_pos rfl] at hoperand
    cases hoperand
  | plain hescape hother _ ih =>
    rw [readOperand, if_neg hother, if_neg hescape] at hoperand
    obtain ⟨⟨operand', after'⟩, hread, heq⟩ := Option.map_eq_some_iff.mp hoperand
    cases heq
    rw [ih hread]

/-- The operand that the scan reads is the string literal among the tokens. -/
theorem soleLiteral_eq_operand {text operand behind literal : List Char} {after : List Token}
    (htokens : tokens text = some after) (hread : readCall text = some (operand, behind))
    (hliteral : soleLiteral after = some literal) : literal = operand := by
  obtain ⟨inner, quoted, hopen, hquote, hoperand⟩ := readCall_eq_some hread
  have hparen : next '(' inner = some (some (.symbol '('), inner) := rfl
  rw [← tokens_dropWhile_isBlank, hopen, tokens_eq_map hparen, ← tokens_dropWhile_isBlank inner,
    hquote] at htokens
  have hnext : next doubleQuote quoted = (readQuoted doubleQuote quoted).map fun read ↦
      (some (.stringLiteral read.1), read.2) := rfl
  cases hbody : readQuoted doubleQuote quoted with
  | none =>
    rw [hbody] at hnext
    rw [tokens_eq_none hnext] at htokens
    cases htokens
  | some read =>
    rw [hbody] at hnext
    rw [tokens_eq_map hnext, Option.map_map] at htokens
    obtain ⟨rest, -, rfl⟩ := Option.map_eq_some_iff.mp htokens
    have hclosed : (if closesCall rest then some read.1 else none) = some literal := hliteral
    split_ifs at hclosed
    cases hclosed
    exact Quoted.eq_operand hoperand (quoted_of_readQuoted hbody)

/-- A scan that does not give up has read the call at each of its positions. -/
theorem collect_eq_some {positions : List (List Char)} {dependencies : List SourceDependency}
    (hcollect : collect positions = some dependencies) :
    dependencies = positions.filterMap callAt ∧
      ∀ text ∈ positions, (builtinAt text).isSome → (callAt text).isSome := by
  induction positions generalizing dependencies with
  | nil =>
    cases hcollect
    exact ⟨rfl, fun text htext ↦ absurd htext List.not_mem_nil⟩
  | cons first positions ih =>
    rw [collect] at hcollect
    cases hfirst : builtinAt first with
    | none =>
      have hcall : callAt first = none := by rw [callAt, hfirst, Option.bind_none]
      simp only [hfirst] at hcollect
      obtain ⟨hlist, hread⟩ := ih hcollect
      refine ⟨by rw [List.filterMap_cons_none hcall, hlist], fun text htext hbuiltin ↦ ?_⟩
      rcases List.mem_cons.mp htext with rfl | hlater
      · rw [hfirst] at hbuiltin
        cases hbuiltin
      · exact hread text hlater hbuiltin
    | some found =>
      simp only [hfirst] at hcollect
      cases hoperand : readCall found.2 with
      | none =>
        simp only [hoperand] at hcollect
        cases hcollect
      | some read =>
        have hcall : callAt first = some ⟨String.ofList read.1, found.1⟩ := by
          rw [callAt, hfirst, Option.bind_some, hoperand, Option.map_some]
        simp only [hoperand] at hcollect
        obtain ⟨others, hothers, rfl⟩ := Option.map_eq_some_iff.mp hcollect
        obtain ⟨hlist, hread⟩ := ih hothers
        refine ⟨by rw [List.filterMap_cons_some hcall, hlist], fun text htext hbuiltin ↦ ?_⟩
        rcases List.mem_cons.mp htext with rfl | hlater
        · rw [hcall, Option.isSome_some]
        · exact hread text hlater hbuiltin

/-- A quote that the scan passes over is closed, unless the text ends with it. -/
theorem quoted_of_skipQuoted {quote : Char} {text : List Char}
    (hrest : skipQuoted quote text ≠ []) :
    ∃ body, Quoted quote text body (skipQuoted quote text) := by
  induction text using skipQuoted.induct quote with
  | case1 => exact absurd rfl hrest
  | case2 => exact absurd rfl hrest
  | case3 next rest ih =>
    rw [skipQuoted_escape] at hrest ⊢
    obtain ⟨body, hbody⟩ := ih hrest
    exact ⟨_, .escaped hbody⟩
  | case4 next rest hescape =>
    rw [skipQuoted_quote _ hescape]
    exact ⟨[], .closed⟩
  | case5 c next rest hescape hquote ih =>
    rw [skipQuoted_other _ hescape hquote] at hrest ⊢
    obtain ⟨body, hbody⟩ := ih hrest
    exact ⟨_, .plain hescape hquote hbody⟩

/-- In front of a position of the scan the quotes pair up. -/
theorem exists_paired_of_mem {text behind : List Char} (hmem : behind ∈ codePositions text) :
    ∃ front, text = front ++ behind ∧ Paired front := by
  induction text using codePositions.induct with
  | case1 =>
    rw [codePositions] at hmem
    cases hmem
  | case2 c rest hcomment ih =>
    rw [codePositions, if_pos hcomment] at hmem
    obtain ⟨front, hfront, hpaired⟩ := ih hmem
    obtain ⟨rfl, hslash⟩ := hcomment
    rcases skipLine_eq_nil_or rest.tail with hlast | hline
    · rw [hlast, codePositions] at hmem
      cases hmem
    · have hbreak : ∀ d ∈ line rest.tail, d ≠ newline := fun d hd ↦ ne_newline_of_mem_line hd
      refine ⟨'/' :: '/' :: (line rest.tail ++ newline :: front), ?_, .comment hbreak hpaired⟩
      rw [List.cons_append, List.cons_append, List.append_assoc, List.cons_append, ← hfront,
        ← hline, ← eq_cons_tail hslash]
  | case3 c rest hcomment hquote ih =>
    rw [codePositions_quote rest hquote] at hmem
    obtain ⟨front, hfront, hpaired⟩ := ih hmem
    have hrest : skipQuoted c rest ≠ [] := by
      intro hnil
      rw [hnil, codePositions] at hmem
      cases hmem
    obtain ⟨body, hbody⟩ := quoted_of_skipQuoted hrest
    obtain ⟨literal, htext, hliteral⟩ := Quoted.split hbody
    refine ⟨_, ?_, .quoted hquote hliteral hpaired⟩
    rw [List.cons_append, List.append_assoc, ← hfront, ← htext]
  | case4 c rest hcomment hquote ih =>
    rw [codePositions_cons hcomment hquote] at hmem
    rcases List.mem_cons.mp hmem with rfl | hmem
    · exact ⟨[], rfl, .nil⟩
    · obtain ⟨front, rfl, hpaired⟩ := ih hmem
      refine ⟨c :: front, rfl, .plain ?_ hquote hpaired⟩
      rintro ⟨rfl, hnext⟩
      obtain ⟨tail, rfl⟩ := List.head?_eq_some_iff.mp hnext
      exact hcomment ⟨rfl, rfl⟩

theorem mem_codePositions_iff {text behind : List Char} (hat : behind.head? = some '@') :
    behind ∈ codePositions text ↔ ∃ front, text = front ++ behind ∧ Paired front := by
  refine ⟨exists_paired_of_mem, ?_⟩
  rintro ⟨front, rfl, hpaired⟩
  obtain ⟨rest, rfl⟩ := List.head?_eq_some_iff.mp hat
  have hslash : ('@' :: rest).head? ≠ some '/' := fun h ↦
    absurd (Option.some.inj h) (by decide)
  refine Paired.subset hpaired (fun _ ↦ hslash) ?_
  rw [codePositions_cons (fun h ↦ absurd h.1 (by decide)) (by decide)]
  exact List.mem_cons_self

/-- A call is at the beginning of a text just where it is spelled there. -/
theorem callAt_eq_some_iff {text : List Char} {dependency : SourceDependency} :
    callAt text = some dependency ↔ Spells dependency text := by
  rw [callAt, Option.bind_eq_some_iff]
  constructor
  · rintro ⟨⟨isImport, behind⟩, hbuiltin, hmap⟩
    obtain ⟨⟨operand, rest⟩, hread, rfl⟩ := Option.map_eq_some_iff.mp hmap
    exact ⟨behind, operand, rest, builtinAt_eq_some_iff.mp hbuiltin,
      readCall_eq_some_iff.mp hread, rfl⟩
  · rintro ⟨behind, operand, rest, htext, hspelled, hpath⟩
    refine ⟨(dependency.isImport, behind), builtinAt_eq_some_iff.mpr htext, ?_⟩
    rw [readCall_eq_some_iff.mpr hspelled, Option.map_some, ← hpath]

/-- A call of this dependency is spelled in the text, with quotes in front of it that pair up. -/
def InFullView (text : List Char) (dependency : SourceDependency) : Prop :=
  ∃ front behind, text = front ++ behind ∧ Paired front ∧ Spells dependency behind

theorem mem_sourceDependencies {source : String} {dependencies : List SourceDependency}
    (hscan : sourceDependencies source = some dependencies) (dependency : SourceDependency) :
    dependency ∈ dependencies ↔ InFullView source.toList dependency := by
  rw [sourceDependencies, scan_eq_collect] at hscan
  rw [(collect_eq_some hscan).1, List.mem_filterMap]
  constructor
  · rintro ⟨behind, hmem, hcall⟩
    obtain ⟨front, htext, hpaired⟩ := exists_paired_of_mem hmem
    exact ⟨front, behind, htext, hpaired, callAt_eq_some_iff.mp hcall⟩
  · rintro ⟨front, behind, htext, hpaired, hspells⟩
    refine ⟨behind, (mem_codePositions_iff ?_).mpr ⟨front, htext, hpaired⟩,
      callAt_eq_some_iff.mpr hspells⟩
    obtain ⟨rest, operand, after, rfl, -⟩ := hspells
    rcases dependency with ⟨path, _ | _⟩
    · rfl
    · rfl

theorem builtinAt_of_literalCall {name : List Char} {after : List Token}
    {dependency : SourceDependency} (behind : List Char)
    (hcall : literalCall name after = some dependency) :
    ∃ literal, soleLiteral after = some literal ∧
      builtinAt ('@' :: (name ++ behind)) = some (dependency.isImport, behind) ∧
      dependency.path = String.ofList literal := by
  unfold literalCall at hcall
  split_ifs at hcall with himport hembed
  · obtain ⟨literal, hliteral, rfl⟩ := Option.map_eq_some_iff.mp hcall
    subst himport
    exact ⟨literal, hliteral, rfl, rfl⟩
  · obtain ⟨literal, hliteral, rfl⟩ := Option.map_eq_some_iff.mp hcall
    subst hembed
    exact ⟨literal, hliteral, rfl, rfl⟩

/-- A call at a position of the scan is read with the literal and the kind it has in the file. -/
theorem callAt_of_literalCall {name behind : List Char} {after : List Token}
    {dependency : SourceDependency} (htokens : tokens behind = some after)
    (hcall : literalCall name after = some dependency)
    (hread : (callAt ('@' :: (name ++ behind))).isSome) :
    callAt ('@' :: (name ++ behind)) = some dependency := by
  obtain ⟨literal, hliteral, hbuiltin, hpath⟩ := builtinAt_of_literalCall behind hcall
  rw [callAt, hbuiltin, Option.bind_some] at hread ⊢
  cases hoperand : readCall behind with
  | none =>
    rw [hoperand] at hread
    cases hread
  | some read =>
    obtain rfl := soleLiteral_eq_operand htokens hoperand hliteral
    rw [Option.map_some, ← hpath]

/-! ### What the scan misses -/

/-- A file depends on the operand of each call whose only argument is a string literal. -/
def Depends (found : List Token) (dependency : SourceDependency) : Prop :=
  ∃ before name after, found = before ++ .builtin name :: after ∧
    literalCall name after = some dependency

/-- The call stands behind a multiline string line whose quotes do not pair up. -/
def DependsBehindOpenLine (found : List Token) (dependency : SourceDependency) : Prop :=
  ∃ before name after, found = before ++ .builtin name :: after ∧
    literalCall name after = some dependency ∧
    ∃ line, .multilineLine line ∈ before ∧ ¬LinePaired line

/-- Every operand the file depends on is in the list. -/
def Complete (found : List Token) (dependencies : List SourceDependency) : Prop :=
  ∀ dependency, Depends found dependency → dependency ∈ dependencies

/-- A call is listed where the quotes of every line before it pair up. -/
theorem mem_of_linesPaired {source : String} {name : List Char} {before after : List Token}
    {dependency : SourceDependency} {dependencies : List SourceDependency}
    (htokens : tokens source.toList = some (before ++ .builtin name :: after))
    (hscan : sourceDependencies source = some dependencies)
    (hcall : literalCall name after = some dependency)
    (hpaired : ∀ line, .multilineLine line ∈ before → LinePaired line) :
    dependency ∈ dependencies := by
  obtain ⟨behind, hposition, hafter⟩ := builtin_mem_codePositions htokens hpaired
  obtain ⟨-, -, hbuiltin, -⟩ := builtinAt_of_literalCall behind hcall
  rw [sourceDependencies, scan_eq_collect] at hscan
  obtain ⟨hlist, hcalls⟩ := collect_eq_some hscan
  have hread := hcalls _ hposition (by rw [hbuiltin, Option.isSome_some])
  rw [hlist, List.mem_filterMap]
  exact ⟨_, hposition, callAt_of_literalCall hafter hcall hread⟩

/-- The list of a file has every operand exactly when each operand of a call behind a multiline
string line whose quotes do not pair up is spelled where all quotes before it do. So it has every
operand when the quotes of each multiline string line pair up. -/
theorem scan_complete_iff {source : String} {found : List Token}
    {dependencies : List SourceDependency} (htokens : tokens source.toList = some found)
    (hscan : sourceDependencies source = some dependencies) :
    (Complete found dependencies ↔
      ∀ dependency, DependsBehindOpenLine found dependency →
        InFullView source.toList dependency) ∧
      ((∀ line, .multilineLine line ∈ found → LinePaired line) →
        Complete found dependencies) := by
  refine ⟨⟨?_, ?_⟩, ?_⟩
  · rintro hcomplete dependency ⟨before, name, after, hfound, hcall, -⟩
    have hmem := hcomplete dependency ⟨before, name, after, hfound, hcall⟩
    exact (mem_sourceDependencies hscan dependency).mp hmem
  · rintro hopen dependency ⟨before, name, after, hfound, hcall⟩
    by_cases hline : ∃ line, .multilineLine line ∈ before ∧ ¬LinePaired line
    · exact (mem_sourceDependencies hscan dependency).mpr
        (hopen dependency ⟨before, name, after, hfound, hcall, hline⟩)
    · rw [hfound] at htokens
      exact mem_of_linesPaired htokens hscan hcall fun line hmem ↦
        not_not.mp fun hnot ↦ hline ⟨line, hmem, hnot⟩
  · rintro hpaired dependency ⟨before, name, after, hfound, hcall⟩
    rw [hfound] at htokens
    refine mem_of_linesPaired htokens hscan hcall fun line hmem ↦ hpaired line ?_
    rw [hfound]
    exact List.mem_append_left _ hmem

/-- A multiline string line with an apostrophe, and an import behind it. -/
def apostropheSource : String :=
  "const help =\n    \\\\it's the player\n;\nconst player = @import(\"player.zig\");\n"

def apostropheTokens : List Token := (tokens apostropheSource.toList).getD []

theorem tokens_apostropheSource : tokens apostropheSource.toList = some apostropheTokens := by
  decide +kernel

theorem sourceDependencies_apostropheSource : sourceDependencies apostropheSource = some [] := by
  decide +kernel

theorem scan_complete_iff_apostropheSource :
    (Complete apostropheTokens [] ↔
      ∀ dependency, DependsBehindOpenLine apostropheTokens dependency →
        InFullView apostropheSource.toList dependency) ∧
      ((∀ line, .multilineLine line ∈ apostropheTokens → LinePaired line) →
        Complete apostropheTokens []) :=
  scan_complete_iff tokens_apostropheSource sourceDependencies_apostropheSource

theorem apostropheSource_import_missed :
    ∃ found dependencies, tokens apostropheSource.toList = some found ∧
      sourceDependencies apostropheSource = some dependencies ∧ ¬Complete found dependencies := by
  refine ⟨_, _, tokens_apostropheSource, sourceDependencies_apostropheSource, ?_⟩
  intro hcomplete
  have hread : apostropheTokens =
        apostropheTokens.take 24 ++ .builtin "import".toList :: apostropheTokens.drop 25 ∧
      literalCall "import".toList (apostropheTokens.drop 25) = some ⟨"player.zig", true⟩ := by
    decide +kernel
  have hmem := hcomplete ⟨"player.zig", true⟩ ⟨_, _, _, hread.1, hread.2⟩
  cases hmem

end Gzscript.Build.ScanCompleteness
