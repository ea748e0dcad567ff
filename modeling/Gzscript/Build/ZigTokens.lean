import Gzscript.Build.SourceScan

/-!
# The tokens of a Zig file

`tokens` is the lexical rule of the language the scanned files are written in. A comment runs to the
end of its line, and so does a multiline string line behind its two backslashes; a string, a
character and a quoted identifier end at the quote that opened them, on the line they began, and a
backslash in them takes the character behind it along. The characters of identifiers, numbers and
operators are a token each, since none of them opens anything. A text with an unfinished literal, a
lone backslash or a lone `@` has no tokens.

`literalCall` reads off the tokens behind a builtin whether its only argument is a string literal.
-/

set_option autoImplicit false
set_option relaxedAutoImplicit false

namespace Gzscript.Build.ZigTokens

open SourceScan

inductive Token where
  | builtin (name : List Char)
  | stringLiteral (text : List Char)
  | charLiteral (text : List Char)
  | multilineLine (line : List Char)
  | quotedIdentifier (text : List Char)
  | symbol (c : Char)
  deriving DecidableEq

def isIdentifierStart (c : Char) : Bool := c.isAlpha || c == '_'

def isIdentifierPart (c : Char) : Bool := c.isAlphanum || c == '_'

/-- What precedes the next line break. -/
def line (text : List Char) : List Char := text.takeWhile (· ≠ newline)

/-- The characters of a literal up to the quote that closes it, and what follows. -/
def readQuoted (quote : Char) : List Char → Option (List Char × List Char)
  | [] => none
  | [c] => if c = quote then some ([], []) else none
  | c :: next :: rest =>
    if c = newline then none
    else if c = backslash then
      if next = newline then none
      else (readQuoted quote rest).map fun read ↦ (c :: next :: read.1, read.2)
    else if c = quote then some ([], next :: rest)
    else (readQuoted quote (next :: rest)).map fun read ↦ (c :: read.1, read.2)

/-- The characters of a literal, those an escape takes along among them, and what follows. -/
inductive Quoted (quote : Char) : List Char → List Char → List Char → Prop
  | closed {rest : List Char} : Quoted quote (quote :: rest) [] rest
  | escaped {c : Char} {rest body behind : List Char} (hrest : Quoted quote rest body behind) :
      Quoted quote (backslash :: c :: rest) (backslash :: c :: body) behind
  | plain {c : Char} {rest body behind : List Char} (hescape : c ≠ backslash) (hother : c ≠ quote)
      (hrest : Quoted quote rest body behind) : Quoted quote (c :: rest) (c :: body) behind

theorem quoted_of_readQuoted {quote : Char} {text body behind : List Char}
    (h : readQuoted quote text = some (body, behind)) : Quoted quote text body behind := by
  induction text using readQuoted.induct quote generalizing body with
  | case1 => cases h
  | case2 =>
    rw [readQuoted, if_pos rfl] at h
    cases h
    exact .closed
  | case3 c hother =>
    rw [readQuoted, if_neg hother] at h
    cases h
  | case4 next text =>
    rw [readQuoted, if_pos rfl] at h
    cases h
  | case5 text hescape =>
    rw [readQuoted, if_neg hescape, if_pos rfl, if_pos rfl] at h
    cases h
  | case6 next text hescape hnext ih =>
    rw [readQuoted, if_neg hescape, if_pos rfl, if_neg hnext] at h
    obtain ⟨⟨tail, behind'⟩, hread, heq⟩ := Option.map_eq_some_iff.mp h
    cases heq
    exact .escaped (ih hread)
  | case7 next text hbreak hescape =>
    rw [readQuoted, if_neg hbreak, if_neg hescape, if_pos rfl] at h
    cases h
    exact .closed
  | case8 c next text hbreak hescape hother ih =>
    rw [readQuoted, if_neg hbreak, if_neg hescape, if_neg hother] at h
    obtain ⟨⟨tail, behind'⟩, hread, heq⟩ := Option.map_eq_some_iff.mp h
    cases heq
    exact .plain hescape hother (ih hread)

theorem Quoted.exists_front {quote : Char} {text body behind : List Char}
    (h : Quoted quote text body behind) : ∃ c front, text = c :: (front ++ behind) := by
  induction h with
  | closed => exact ⟨quote, [], rfl⟩
  | @escaped next _ _ _ _ ih =>
    obtain ⟨d, front, rfl⟩ := ih
    exact ⟨backslash, next :: d :: front, rfl⟩
  | @plain c _ _ _ _ _ _ ih =>
    obtain ⟨d, front, rfl⟩ := ih
    exact ⟨c, d :: front, rfl⟩

theorem length_readQuoted {quote : Char} {text body behind : List Char}
    (h : readQuoted quote text = some (body, behind)) : behind.length < text.length := by
  obtain ⟨c, front, rfl⟩ := (quoted_of_readQuoted h).exists_front
  rw [List.length_cons, List.length_append]
  exact Nat.lt_succ_of_le (Nat.le_add_left _ _)

/-- What stands at a character, if it is a token at all, and the text behind it. -/
def next (c : Char) (rest : List Char) : Option (Option Token × List Char) :=
  if isBlank c then some (none, rest)
  else if c = '/' ∧ rest.head? = some '/' then some (none, skipLine rest.tail)
  else if c = doubleQuote then
    (readQuoted c rest).map fun read ↦ (some (.stringLiteral read.1), read.2)
  else if c = singleQuote then
    (readQuoted c rest).map fun read ↦ (some (.charLiteral read.1), read.2)
  else if c = backslash then
    if rest.head? = some backslash then
      some (some (.multilineLine (line rest.tail)), skipLine rest.tail)
    else
      none
  else if c = '@' then
    if rest.head? = some doubleQuote then
      (readQuoted doubleQuote rest.tail).map fun read ↦
        (some (.quotedIdentifier read.1), read.2)
    else if rest.head?.any isIdentifierStart then
      some (some (.builtin (rest.takeWhile isIdentifierPart)), rest.dropWhile isIdentifierPart)
    else
      none
  else
    some (some (.symbol c), rest)

/-- The ways of taking a token, or of passing over a blank or a comment. -/
inductive Taken : Char → List Char → Option Token → List Char → Prop
  | blank {c : Char} {rest : List Char} (hblank : isBlank c = true) : Taken c rest none rest
  | comment {rest : List Char} : Taken '/' ('/' :: rest) none (skipLine rest)
  | stringLiteral {rest text behind : List Char}
      (hread : readQuoted doubleQuote rest = some (text, behind)) :
      Taken doubleQuote rest (some (.stringLiteral text)) behind
  | charLiteral {rest text behind : List Char}
      (hread : readQuoted singleQuote rest = some (text, behind)) :
      Taken singleQuote rest (some (.charLiteral text)) behind
  | multilineLine {text : List Char} :
      Taken backslash (backslash :: text) (some (.multilineLine (line text))) (skipLine text)
  | quotedIdentifier {rest text behind : List Char}
      (hread : readQuoted doubleQuote rest = some (text, behind)) :
      Taken '@' (doubleQuote :: rest) (some (.quotedIdentifier text)) behind
  | builtin {rest : List Char} (hstart : rest.head?.any isIdentifierStart = true) :
      Taken '@' rest (some (.builtin (rest.takeWhile isIdentifierPart)))
        (rest.dropWhile isIdentifierPart)
  | symbol {c : Char} {rest : List Char} (hcomment : ¬(c = '/' ∧ rest.head? = some '/'))
      (hquote : ¬(c = doubleQuote ∨ c = singleQuote)) :
      Taken c rest (some (.symbol c)) rest

theorem eq_cons_tail {rest : List Char} {c : Char} (h : rest.head? = some c) :
    rest = c :: rest.tail := by
  obtain ⟨tail, rfl⟩ := List.head?_eq_some_iff.mp h
  rfl

theorem taken_of_next {c : Char} {rest behind : List Char} {token : Option Token}
    (h : next c rest = some (token, behind)) : Taken c rest token behind := by
  unfold next at h
  split_ifs at h with hblank hcomment hdouble hsingle hbackslash hline hat hquoted hstart
  · cases h
    exact .blank hblank
  · cases h
    obtain ⟨rfl, hslash⟩ := hcomment
    rw [eq_cons_tail hslash]
    exact .comment
  · obtain ⟨read, hread, heq⟩ := Option.map_eq_some_iff.mp h
    cases heq
    subst hdouble
    exact .stringLiteral hread
  · obtain ⟨read, hread, heq⟩ := Option.map_eq_some_iff.mp h
    cases heq
    subst hsingle
    exact .charLiteral hread
  · cases h
    subst hbackslash
    rw [eq_cons_tail hline]
    exact .multilineLine
  · obtain ⟨read, hread, heq⟩ := Option.map_eq_some_iff.mp h
    cases heq
    subst hat
    rw [eq_cons_tail hquoted]
    exact .quotedIdentifier hread
  · cases h
    subst hat
    exact .builtin hstart
  · cases h
    exact .symbol hcomment (not_or.mpr ⟨hdouble, hsingle⟩)

theorem Taken.length_le {c : Char} {rest behind : List Char} {token : Option Token}
    (h : Taken c rest token behind) : behind.length ≤ rest.length := by
  cases h with
  | blank => exact Nat.le_refl _
  | comment => exact Nat.le_succ_of_le (length_skipLine _)
  | stringLiteral hread => exact Nat.le_of_lt (length_readQuoted hread)
  | charLiteral hread => exact Nat.le_of_lt (length_readQuoted hread)
  | multilineLine => exact Nat.le_succ_of_le (length_skipLine _)
  | quotedIdentifier hread => exact Nat.le_succ_of_le (Nat.le_of_lt (length_readQuoted hread))
  | builtin => exact (List.dropWhile_suffix _).length_le
  | symbol => exact Nat.le_refl _

/-- The tokens of a text. -/
def tokens (text : List Char) : Option (List Token) :=
  match text with
  | [] => some []
  | c :: rest =>
    match _hnext : next c rest with
    | none => none
    | some (token, behind) => (tokens behind).map (token.toList ++ ·)
termination_by text.length
decreasing_by exact Nat.lt_succ_of_le (taken_of_next _hnext).length_le

theorem tokens_eq_none {c : Char} {rest : List Char} (hnext : next c rest = none) :
    tokens (c :: rest) = none := by
  rw [tokens]
  split
  next => rfl
  next hother => cases hnext.symm.trans hother

theorem tokens_eq_map {c : Char} {rest behind : List Char} {token : Option Token}
    (hnext : next c rest = some (token, behind)) :
    tokens (c :: rest) = (tokens behind).map (token.toList ++ ·) := by
  rw [tokens]
  split
  next hother => cases hnext.symm.trans hother
  next hother =>
    cases hnext.symm.trans hother
    rfl

/-! ### Calls with a string literal -/

/-- The text of a multiline string line. A carriage return belongs to the line break. -/
def lineText (line : List Char) : List Char :=
  if line.getLast? = some (Char.ofNat 13) then line.dropLast else line

/-- The multiline string lines in front of the tokens, and the tokens behind them. -/
def readLines : List Token → List (List Char) × List Token
  | .multilineLine line :: rest => (lineText line :: (readLines rest).1, (readLines rest).2)
  | rest => ([], rest)

/-- The text of the string literal in front of the tokens, and the tokens behind it. -/
def readLiteral (found : List Token) : Option (List Char × List Token) :=
  match found with
  | .stringLiteral text :: rest => some (text, rest)
  | .multilineLine _ :: _ =>
    some ([newline].intercalate (readLines found).1, (readLines found).2)
  | _ => none

/-- The parenthesis that closes a call may follow a comma. -/
def closesCall : List Token → Bool
  | .symbol c :: rest =>
    c == ')' || c == ',' && rest.head? == some (.symbol ')')
  | _ => false

/-- The only argument of the call in front of the tokens, if that is a string literal. -/
def soleLiteral : List Token → Option (List Char)
  | .symbol c :: rest =>
    if c = '(' then
      (readLiteral rest).bind fun read ↦ if closesCall read.2 then some read.1 else none
    else
      none
  | _ => none

/-- What a builtin with a string literal for its only argument depends on. -/
def literalCall (name : List Char) (after : List Token) : Option SourceDependency :=
  if name = "import".toList then
    (soleLiteral after).map fun text ↦ ⟨String.ofList text, true⟩
  else if name = "embedFile".toList then
    (soleLiteral after).map fun text ↦ ⟨String.ofList text, false⟩
  else
    none

end Gzscript.Build.ZigTokens
