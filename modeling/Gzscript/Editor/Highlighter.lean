import Gzscript.Library.Painting
import Mathlib.Data.List.TakeWhile

/-!
# Highlighting a line of Zig

The editor paints a line of a script by a dictionary from columns to colours. `highlight` is the
loop that fills the dictionary: it looks at the character of a column, scans to the end of what
starts there, and colours the region up to the end. The scanners work with columns of the whole
line, and the one of quoted text may stop behind the last column, at an escape that is not finished.

What the line should look like is said by `tokens`, which splits it into words, numbers, strings,
comments and single symbols, and by the colour of each kind of token. The main result is that the
dictionary shows exactly these colours (`highlight_shows_tokens`).
-/

set_option autoImplicit false
set_option relaxedAutoImplicit false

namespace Gzscript.Editor.Highlighter

open Library.Painting

variable {Color : Type*}

/-! ### The source -/

def keywords : List String :=
  ["addrspace", "align", "allowzero", "and",
    "anyframe", "anytype", "asm", "async",
    "await", "callconv", "comptime", "const",
    "defer", "enum", "errdefer", "error",
    "export", "extern", "fn", "inline",
    "linksection", "noalias", "noinline", "nosuspend",
    "opaque", "or", "orelse", "packed", "pub",
    "resume", "struct", "suspend", "test",
    "threadlocal", "union", "unreachable",
    "usingnamespace", "var", "volatile"]

def controlFlow : List String :=
  ["break", "catch", "continue", "else", "for",
    "if", "return", "switch", "try", "while"]

def types : List String :=
  ["anyerror", "anyopaque", "bool", "c_char",
    "c_int", "c_long", "c_longdouble", "c_longlong",
    "c_short", "c_uint", "c_ulong", "c_ulonglong",
    "c_ushort", "comptime_float", "comptime_int", "f16",
    "f32", "f64", "f128", "i8", "i16",
    "i32", "i64", "isize", "noreturn", "type",
    "u8", "u16", "u32", "u64", "usize",
    "void"]

def values : List String :=
  ["false", "null", "true", "undefined"]

/-- The colours of the editor's settings. -/
structure Theme (Color : Type*) where
  keyword : Color
  controlFlow : Color
  type : Color
  comment : Color
  docComment : Color
  string : Color
  number : Color
  function : Color
  symbol : Color
  text : Color

def isDigit (character : Char) : Bool :=
  decide ('0' ≤ character) && decide (character ≤ '9')

def isIdentifierStart (character : Char) : Bool :=
  character == '_' || decide ('a' ≤ character) && decide (character ≤ 'z') ||
    decide ('A' ≤ character) && decide (character ≤ 'Z')

def isIdentifierCharacter (character : Char) : Bool :=
  isIdentifierStart character || isDigit character

def isBlank (character : Char) : Bool :=
  character == ' ' || character == '\t' || character == '\r'

/-- The loop over the characters of an identifier. -/
def scanIdentifier (text : List Char) (i : ℕ) : ℕ :=
  if h : i < text.length then
    if isIdentifierCharacter text[i] then scanIdentifier text (i + 1) else i
  else i
termination_by text.length - i

/-- The loop over what follows the opening quote. -/
def scanQuotedFrom (text : List Char) (quote : Char) (i : ℕ) : ℕ :=
  if h : i < text.length then
    if text[i] = '\\' then scanQuotedFrom text quote (i + 2)
    else if text[i] = quote then i + 1
    else scanQuotedFrom text quote (i + 1)
  else i
termination_by text.length - i

def scanQuoted (text : List Char) (start : ℕ) (quote : Char) : ℕ :=
  scanQuotedFrom text quote (start + 1)

/-- A sign belongs to a number behind the letter of an exponent. -/
def isExponent (character : Option Char) : Bool :=
  match character with
  | some character => character.toLower == 'e' || character.toLower == 'p'
  | none => false

/-- The loop over what follows the first digit. -/
def scanNumberFrom (text : List Char) (i : ℕ) : ℕ :=
  if h : i < text.length then
    if isIdentifierCharacter text[i] || text[i] == '.' then scanNumberFrom text (i + 1)
    else if (text[i] == '+' || text[i] == '-') && isExponent text[i - 1]? then
      scanNumberFrom text (i + 1)
    else i
  else i
termination_by text.length - i

def scanNumber (text : List Char) (start : ℕ) : ℕ :=
  scanNumberFrom text (start + 1)

/-- A comment of three slashes, but not of four, and one for the file. -/
def isDocComment (text : List Char) : Bool :=
  (text.take 3 == ['/', '/', '/'] || text.take 3 == ['/', '/', '!']) &&
    text.take 4 != ['/', '/', '/', '/']

/-- A round of the loop at a column: the dictionary, and the column of the next round unless the
function returns. -/
def round (theme : Theme Color) (text : List Char) (result : List (ℕ × Color)) (i : ℕ)
    (character : Char) : List (ℕ × Color) × Option ℕ :=
  let setRegion (stop : ℕ) (color : Color) : List (ℕ × Color) × Option ℕ :=
    (paintRegion result i stop color theme.text text.length, some stop)
  if isBlank character then (result, some (i + 1))
  else if character = '/' ∧ text[i + 1]? = some '/' then
    let color := if isDocComment (text.drop i) then theme.docComment else theme.comment
    (assign result i color, none)
  else if character = '\\' ∧ text[i + 1]? = some '\\' then (assign result i theme.string, none)
  else if character = '"' ∨ character = '\'' then
    setRegion (scanQuoted text i character) theme.string
  else if character = '@' then setRegion (scanIdentifier text (i + 1)) theme.function
  else if isDigit character then setRegion (scanNumber text i) theme.number
  else if isIdentifierStart character then
    let stop := scanIdentifier text (i + 1)
    let word := String.ofList ((text.drop i).take (stop - i))
    if controlFlow.contains word then setRegion stop theme.controlFlow
    else if keywords.contains word || values.contains word then setRegion stop theme.keyword
    else if types.contains word then setRegion stop theme.type
    else (result, some stop)
  else
    let result := assign result i theme.symbol
    (if i + 1 < text.length then assign result (i + 1) theme.text else result, some (i + 1))

/-! ### Where a round ends -/

theorem le_scanIdentifier (text : List Char) (i : ℕ) : i ≤ scanIdentifier text i := by
  fun_induction scanIdentifier text i with
  | case1 i h hcharacter ih => exact (Nat.le_succ i).trans ih
  | case2 => exact Nat.le_refl _
  | case3 => exact Nat.le_refl _

theorem le_scanQuotedFrom (text : List Char) (quote : Char) (i : ℕ) :
    i ≤ scanQuotedFrom text quote i := by
  fun_induction scanQuotedFrom text quote i with
  | case1 i h hescape ih => exact (Nat.le_add_right i 2).trans ih
  | case2 => exact Nat.le_succ _
  | case3 i h hescape hquote ih => exact (Nat.le_succ i).trans ih
  | case4 => exact Nat.le_refl _

theorem le_scanNumberFrom (text : List Char) (i : ℕ) : i ≤ scanNumberFrom text i := by
  fun_induction scanNumberFrom text i with
  | case1 i h hcharacter ih => exact (Nat.le_succ i).trans ih
  | case2 i h hcharacter hsign ih => exact (Nat.le_succ i).trans ih
  | case3 => exact Nat.le_refl _
  | case4 => exact Nat.le_refl _

theorem lt_of_round {theme : Theme Color} {text : List Char} {result : List (ℕ × Color)} {i : ℕ}
    {character : Char} {next : ℕ} (hnext : (round theme text result i character).2 = some next) :
    i < next := by
  have hidentifier := le_scanIdentifier text (i + 1)
  have hquoted := le_scanQuotedFrom text character (i + 1)
  have hnumber := le_scanNumberFrom text (i + 1)
  unfold round scanQuoted scanNumber at hnext
  grind

/-- The loop over the columns of the line. -/
def highlightFrom (theme : Theme Color) (text : List Char) (result : List (ℕ × Color)) (i : ℕ) :
    List (ℕ × Color) :=
  if h : i < text.length then
    match hnext : (round theme text result i text[i]).2 with
    | some next => highlightFrom theme text (round theme text result i text[i]).1 next
    | none => (round theme text result i text[i]).1
  else result
termination_by text.length - i
decreasing_by
  have := lt_of_round hnext
  omega

def highlight (theme : Theme Color) (text : List Char) : List (ℕ × Color) :=
  highlightFrom theme text [] 0

/-! ### The tokens of a line -/

/-- What a piece of a line is. -/
inductive Kind
  | space
  | docComment
  | comment
  | stringLine
  | quoted
  | builtin
  | number
  | controlFlow
  | keyword
  | type
  | name
  | symbol

structure Token where
  kind : Kind
  text : List Char

def Theme.color (theme : Theme Color) : Kind → Color
  | .space | .name => theme.text
  | .docComment => theme.docComment
  | .comment => theme.comment
  | .stringLine | .quoted => theme.string
  | .builtin => theme.function
  | .number => theme.number
  | .controlFlow => theme.controlFlow
  | .keyword => theme.keyword
  | .type => theme.type
  | .symbol => theme.symbol

/-- What follows an opening quote, up to the closing one. An escape takes the next character with
it, whatever that is. -/
def quotedTail (quote : Char) : List Char → List Char
  | [] => []
  | ['\\'] => ['\\']
  | '\\' :: escaped :: rest => '\\' :: escaped :: quotedTail quote rest
  | character :: rest =>
    if character = quote then [character] else character :: quotedTail quote rest

/-- What belongs to a number behind one of its characters. -/
def numberTail (previous : Char) : List Char → List Char
  | [] => []
  | character :: rest =>
    if isIdentifierCharacter character || character == '.' ||
        (character == '+' || character == '-') && isExponent (some previous) then
      character :: numberTail character rest
    else []

def wordKind (word : List Char) : Kind :=
  if controlFlow.contains (String.ofList word) then .controlFlow
  else if keywords.contains (String.ofList word) || values.contains (String.ofList word) then
    .keyword
  else if types.contains (String.ofList word) then .type
  else .name

/-- The kind of the first token, and what belongs to it behind its first character. -/
def spell (character : Char) (rest : List Char) : Kind × List Char :=
  if isBlank character then (.space, [])
  else if character = '/' ∧ rest.head? = some '/' then
    (if isDocComment (character :: rest) then .docComment else .comment, rest)
  else if character = '\\' ∧ rest.head? = some '\\' then (.stringLine, rest)
  else if character = '"' ∨ character = '\'' then (.quoted, quotedTail character rest)
  else if character = '@' then (.builtin, rest.takeWhile isIdentifierCharacter)
  else if isDigit character then (.number, numberTail character rest)
  else if isIdentifierStart character then
    let tail := rest.takeWhile isIdentifierCharacter
    (wordKind (character :: tail), tail)
  else (.symbol, [])

/-- The tokens a line is split into. -/
def tokens : List Char → List Token
  | [] => []
  | character :: rest =>
    ⟨(spell character rest).1, character :: (spell character rest).2⟩ ::
      tokens (rest.drop (spell character rest).2.length)
termination_by line => line.length
decreasing_by
  rw [List.length_drop, List.length_cons]
  omega

/-- The colours of the line, column by column. -/
def colors (theme : Theme Color) (line : List Char) : List Color :=
  (tokens line).flatMap fun token ↦ List.replicate token.text.length (theme.color token.kind)

/-! ### The scanners find the tokens -/

theorem scanIdentifier_eq (text : List Char) (i : ℕ) :
    scanIdentifier text i = i + ((text.drop i).takeWhile isIdentifierCharacter).length := by
  fun_induction scanIdentifier text i with
  | case1 i h hcharacter ih =>
    rw [ih, List.drop_eq_getElem_cons h, List.takeWhile_cons_of_pos hcharacter, List.length_cons]
    omega
  | case2 i h hcharacter =>
    rw [List.drop_eq_getElem_cons h, List.takeWhile_cons_of_neg hcharacter]
    rfl
  | case3 i h =>
    rw [List.drop_of_length_le (Nat.le_of_not_lt h)]
    rfl

theorem quotedTail_escape (quote escaped : Char) (rest : List Char) :
    quotedTail quote ('\\' :: escaped :: rest) = '\\' :: escaped :: quotedTail quote rest := by
  rw [quotedTail]

theorem quotedTail_cons {character : Char} (hcharacter : character ≠ '\\') (quote : Char)
    (rest : List Char) :
    quotedTail quote (character :: rest) =
      if character = quote then [character] else character :: quotedTail quote rest := by
  rw [quotedTail]
  all_goals simp [hcharacter]

/-- The scanner may stop behind the line, at an escape that is not finished. -/
theorem min_scanQuotedFrom (text : List Char) (quote : Char) (i : ℕ) (hi : i ≤ text.length) :
    min (scanQuotedFrom text quote i) text.length =
      i + (quotedTail quote (text.drop i)).length := by
  fun_induction scanQuotedFrom text quote i with
  | case1 i h hescape ih =>
    have hbehind := le_scanQuotedFrom text quote (i + 2)
    rw [List.drop_eq_getElem_cons h, hescape]
    by_cases hnext : i + 1 < text.length
    · have hdrop : text.drop (i + 1 + 1) = text.drop (i + 2) := rfl
      rw [List.drop_eq_getElem_cons hnext, quotedTail_escape, hdrop, ih hnext, List.length_cons,
        List.length_cons]
      omega
    · rw [List.drop_of_length_le (Nat.le_of_not_lt hnext), quotedTail, List.length_singleton]
      omega
  | case2 i h hescape hquote =>
    rw [List.drop_eq_getElem_cons h, quotedTail_cons hescape, if_pos hquote,
      List.length_singleton]
    omega
  | case3 i h hescape hquote ih =>
    rw [ih h, List.drop_eq_getElem_cons h, quotedTail_cons hescape, if_neg hquote,
      List.length_cons]
    omega
  | case4 i h =>
    rw [List.drop_of_length_le (Nat.le_of_not_lt h), quotedTail, List.length_nil]
    omega

theorem numberTail_cons (previous character : Char) (rest : List Char) :
    numberTail previous (character :: rest) =
      if isIdentifierCharacter character || character == '.' ||
          (character == '+' || character == '-') && isExponent (some previous) then
        character :: numberTail character rest
      else [] := by
  rw [numberTail]

theorem scanNumberFrom_eq (text : List Char) (i : ℕ) (previous : Char)
    (hprevious : text[i - 1]? = some previous) :
    scanNumberFrom text i = i + (numberTail previous (text.drop i)).length := by
  fun_induction scanNumberFrom text i generalizing previous with
  | case1 i h hcharacter ih =>
    rw [ih text[i] (List.getElem?_eq_getElem h), List.drop_eq_getElem_cons h, numberTail_cons,
      hcharacter, Bool.true_or, if_pos rfl, List.length_cons]
    omega
  | case2 i h hcharacter hsign ih =>
    rw [hprevious] at hsign
    rw [ih text[i] (List.getElem?_eq_getElem h), List.drop_eq_getElem_cons h, numberTail_cons,
      hsign, Bool.or_true, if_pos rfl, List.length_cons]
    omega
  | case3 i h hcharacter hsign =>
    rw [hprevious] at hsign
    rw [List.drop_eq_getElem_cons h, numberTail_cons, if_neg, List.length_nil, Nat.add_zero]
    rw [Bool.or_eq_true, not_or]
    exact ⟨hcharacter, hsign⟩
  | case4 i h =>
    rw [List.drop_of_length_le (Nat.le_of_not_lt h), numberTail, List.length_nil, Nat.add_zero]

theorem numberTail_isPrefix (previous : Char) (rest : List Char) :
    numberTail previous rest <+: rest := by
  induction rest generalizing previous with
  | nil => exact List.prefix_rfl
  | cons character rest ih =>
    rw [numberTail_cons]
    split
    · exact List.cons_prefix_cons.mpr ⟨rfl, ih character⟩
    · exact List.nil_prefix

/-- Where the scanner of an identifier stops, the characters up to there are the identifier. -/
theorem take_scanIdentifier {text : List Char} {i : ℕ} (h : i < text.length) :
    (text.drop i).take (scanIdentifier text (i + 1) - i) =
      text[i] :: (text.drop (i + 1)).takeWhile isIdentifierCharacter := by
  rw [scanIdentifier_eq, List.drop_eq_getElem_cons h]
  have hlength : i + 1 + ((text.drop (i + 1)).takeWhile isIdentifierCharacter).length - i =
      ((text.drop (i + 1)).takeWhile isIdentifierCharacter).length + 1 := by omega
  rw [hlength, List.take_succ_cons]
  congr 1
  exact (List.prefix_iff_eq_take.mp (List.takeWhile_prefix _)).symm

/-! ### A round paints a token -/

/-- The painter has given the columns of a token the colour of its kind, and is behind the token. -/
structure Paid (theme : Theme Color) (text : List Char) (result : List (ℕ × Color)) (i : ℕ)
    (token : Kind × List Char) (round : List (ℕ × Color) × Option ℕ) : Prop where
  position : At round.1 theme.text text.length (round.2.getD text.length)
  paints : Paints result round.1 theme.text i
    (List.replicate (token.2.length + 1) (theme.color token.1))
  behind : min (round.2.getD text.length) text.length = i + (token.2.length + 1)

variable {theme : Theme Color} {text : List Char} {result : List (ℕ × Color)} {i : ℕ}

theorem paid_region (h : At result theme.text text.length i) (hi : i < text.length) {stop : ℕ}
    {kind : Kind} {tail : List Char}
    (hstop : min stop text.length = i + (tail.length + 1)) :
    Paid theme text result i (kind, tail)
      (paintRegion result i stop (theme.color kind) theme.text text.length, some stop) := by
  have hle : i + (tail.length + 1) ≤ stop := hstop ▸ Nat.min_le_left _ _
  obtain ⟨hat, hpaints⟩ := h.region hi hle (by omega) (theme.color kind)
  exact ⟨hat, hpaints, hstop⟩

theorem paid_rest (h : At result theme.text text.length i) (hi : i < text.length) (kind : Kind) :
    Paid theme text result i (kind, text.drop (i + 1))
      (assign result i (theme.color kind), none) := by
  obtain ⟨hat, hpaints⟩ := h.rest hi (theme.color kind) ((text.drop (i + 1)).length + 1)
  refine ⟨hat, hpaints, ?_⟩
  show min text.length text.length = _
  rw [List.length_drop]
  omega

theorem paid_skip (h : At result theme.text text.length i) {stop : ℕ}
    {kind : Kind} (hkind : theme.color kind = theme.text) {tail : List Char}
    (hstop : stop = i + (tail.length + 1)) (hlength : stop ≤ text.length) :
    Paid theme text result i (kind, tail) (result, some stop) := by
  subst hstop
  obtain ⟨hat, hpaints⟩ := h.skip hlength
  refine ⟨hat, ?_, Nat.min_eq_left hlength⟩
  show Paints result result theme.text i (List.replicate (tail.length + 1) (theme.color kind))
  rw [hkind]
  exact hpaints

theorem min_scanIdentifier (hi : i < text.length) :
    min (scanIdentifier text (i + 1)) text.length =
      i + (((text.drop (i + 1)).takeWhile isIdentifierCharacter).length + 1) := by
  have hle : ((text.drop (i + 1)).takeWhile isIdentifierCharacter).length ≤
      (text.drop (i + 1)).length := (List.takeWhile_prefix _).length_le
  rw [List.length_drop] at hle
  rw [scanIdentifier_eq]
  omega

/-- A word that is in none of the tables is left as it is. -/
theorem paid_word (h : At result theme.text text.length i) (hi : i < text.length) :
    let tail := (text.drop (i + 1)).takeWhile isIdentifierCharacter
    let stop := scanIdentifier text (i + 1)
    let word := String.ofList ((text.drop i).take (stop - i))
    let setRegion (stop : ℕ) (color : Color) : List (ℕ × Color) × Option ℕ :=
      (paintRegion result i stop color theme.text text.length, some stop)
    Paid theme text result i (wordKind (text[i] :: tail), tail)
      (if controlFlow.contains word then setRegion stop theme.controlFlow
      else if keywords.contains word || values.contains word then setRegion stop theme.keyword
      else if types.contains word then setRegion stop theme.type
      else (result, some stop)) := by
  intro tail stop word setRegion
  have hstop : min stop text.length = i + (tail.length + 1) := min_scanIdentifier hi
  have hword : word = String.ofList (text[i] :: tail) :=
    congrArg String.ofList (take_scanIdentifier hi)
  unfold wordKind
  rw [← hword]
  split
  · exact paid_region h hi hstop
  split
  · exact paid_region h hi hstop
  split
  · exact paid_region h hi hstop
  · have heq : stop = i + 1 + tail.length := scanIdentifier_eq text (i + 1)
    exact paid_skip h rfl (by omega) (by omega)

/-- A round paints the token that starts in its column. -/
theorem paid_round (h : At result theme.text text.length i) (hi : i < text.length) :
    Paid theme text result i (spell text[i] (text.drop (i + 1)))
      (round theme text result i text[i]) := by
  have hhead : (text.drop (i + 1)).head? = text[i + 1]? := List.head?_drop
  have hdrop : text.drop i = text[i] :: text.drop (i + 1) := List.drop_eq_getElem_cons hi
  have hidentifier := min_scanIdentifier hi
  have hnumber : min (scanNumber text i) text.length =
      i + ((numberTail text[i] (text.drop (i + 1))).length + 1) := by
    have hle := (numberTail_isPrefix text[i] (text.drop (i + 1))).length_le
    rw [List.length_drop] at hle
    rw [scanNumber, scanNumberFrom_eq text (i + 1) text[i] (List.getElem?_eq_getElem hi)]
    omega
  have hquoted : min (scanQuoted text i text[i]) text.length =
      i + ((quotedTail text[i] (text.drop (i + 1))).length + 1) := by
    rw [scanQuoted, min_scanQuotedFrom text text[i] (i + 1) hi]
    omega
  unfold round spell
  rw [hhead]
  by_cases hblank : isBlank text[i] = true
  · rw [if_pos hblank, if_pos hblank]
    exact paid_skip h rfl rfl hi
  rw [if_neg hblank, if_neg hblank]
  by_cases hcomment : text[i] = '/' ∧ text[i + 1]? = some '/'
  · rw [if_pos hcomment, if_pos hcomment, hdrop]
    split
    · exact paid_rest h hi .docComment
    · exact paid_rest h hi .comment
  rw [if_neg hcomment, if_neg hcomment]
  by_cases hstring : text[i] = '\\' ∧ text[i + 1]? = some '\\'
  · rw [if_pos hstring, if_pos hstring]
    exact paid_rest h hi .stringLine
  rw [if_neg hstring, if_neg hstring]
  by_cases hquote : text[i] = '"' ∨ text[i] = '\''
  · rw [if_pos hquote, if_pos hquote]
    exact paid_region h hi hquoted
  rw [if_neg hquote, if_neg hquote]
  by_cases hbuiltin : text[i] = '@'
  · rw [if_pos hbuiltin, if_pos hbuiltin]
    exact paid_region h hi hidentifier
  rw [if_neg hbuiltin, if_neg hbuiltin]
  by_cases hdigit : isDigit text[i] = true
  · rw [if_pos hdigit, if_pos hdigit]
    exact paid_region h hi hnumber
  rw [if_neg hdigit, if_neg hdigit]
  by_cases hstart : isIdentifierStart text[i] = true
  · rw [if_pos hstart, if_pos hstart]
    exact paid_word h hi
  rw [if_neg hstart, if_neg hstart]
  exact paid_region h hi (by rw [List.length_nil]; omega)

/-! ### The line -/

theorem tokens_cons (character : Char) (rest : List Char) :
    tokens (character :: rest) =
      ⟨(spell character rest).1, character :: (spell character rest).2⟩ ::
        tokens (rest.drop (spell character rest).2.length) := by
  rw [tokens]

theorem colors_nil (theme : Theme Color) : colors theme [] = [] := by
  rw [colors, tokens, List.flatMap_nil]

theorem colors_cons (theme : Theme Color) (character : Char) (rest : List Char) :
    colors theme (character :: rest) =
      List.replicate ((spell character rest).2.length + 1)
          (theme.color (spell character rest).1) ++
        colors theme (rest.drop (spell character rest).2.length) := by
  rw [colors, tokens_cons, List.flatMap_cons, List.length_cons, colors]

theorem drop_min_length (text : List Char) (next : ℕ) :
    text.drop (min next text.length) = text.drop next := by
  by_cases hnext : next ≤ text.length
  · rw [Nat.min_eq_left hnext]
  · have hle : text.length ≤ next := Nat.le_of_not_le hnext
    rw [Nat.min_eq_right hle, List.drop_length, List.drop_of_length_le hle]

theorem Paid.drop_eq {token : Kind × List Char} {round : List (ℕ × Color) × Option ℕ}
    (h : Paid theme text result i token round) :
    (text.drop (i + 1)).drop token.2.length = text.drop (round.2.getD text.length) := by
  rw [List.drop_drop, ← drop_min_length text (round.2.getD text.length), h.behind]
  congr 1
  omega

/-- The loop paints the tokens of what is left of the line. -/
theorem paints_highlightFrom (h : At result theme.text text.length i) :
    (∃ column, At (highlightFrom theme text result i) theme.text text.length column) ∧
      Paints result (highlightFrom theme text result i) theme.text i
        (colors theme (text.drop i)) := by
  fun_induction highlightFrom theme text result i with
  | case1 result i hi next hnext ih =>
    have hround := paid_round h hi
    have hposition := hround.position
    have hbehind := hround.behind
    rw [hnext, Option.getD_some] at hposition hbehind
    obtain ⟨hat, hrest⟩ := ih hposition
    refine ⟨hat, ?_⟩
    rw [List.drop_eq_getElem_cons hi, colors_cons, hround.drop_eq, hnext, Option.getD_some]
    refine hround.paints.append ?_
    rw [List.length_replicate]
    by_cases hlength : next ≤ text.length
    · rw [Nat.min_eq_left hlength] at hbehind
      rw [← hbehind]
      exact hrest
    · rw [List.drop_of_length_le (Nat.le_of_not_le hlength), colors_nil] at hrest ⊢
      exact ⟨fun column hcolumn ↦ hrest.kept column (by omega), (paints_nil _ _ _).colored⟩
  | case2 result i hi hnext =>
    have hround := paid_round h hi
    have hposition := hround.position
    rw [hnext, Option.getD_none] at hposition
    refine ⟨⟨text.length, hposition⟩, ?_⟩
    rw [List.drop_eq_getElem_cons hi, colors_cons, hround.drop_eq, hnext, Option.getD_none,
      List.drop_length, colors_nil, List.append_nil]
    exact hround.paints
  | case3 result i hi =>
    refine ⟨⟨i, h⟩, ?_⟩
    rw [List.drop_of_length_le (Nat.le_of_not_lt hi), colors_nil]
    exact paints_nil _ _ _

/-! ### The tokens are the line -/

theorem quotedTail_prefix (quote : Char) (rest : List Char) :
    quotedTail quote rest <+: rest := by
  fun_induction quotedTail quote rest with
  | case1 => exact List.prefix_rfl
  | case2 => exact List.prefix_rfl
  | case3 escaped rest ih =>
    exact List.cons_prefix_cons.mpr ⟨rfl, List.cons_prefix_cons.mpr ⟨rfl, ih⟩⟩
  | case4 rest => exact List.cons_prefix_cons.mpr ⟨rfl, List.nil_prefix⟩
  | case5 character rest hlast hescape hquote ih => exact List.cons_prefix_cons.mpr ⟨rfl, ih⟩

theorem spell_isPrefix (character : Char) (rest : List Char) :
    (spell character rest).2 <+: rest := by
  have htake := List.takeWhile_prefix isIdentifierCharacter (l := rest)
  unfold spell
  split
  · exact List.nil_prefix
  split
  · exact List.prefix_rfl
  split
  · exact List.prefix_rfl
  split
  · exact quotedTail_prefix _ _
  split
  · exact htake
  split
  · exact numberTail_isPrefix _ _
  split
  · exact htake
  · exact List.nil_prefix

theorem text_tokens (line : List Char) : (tokens line).flatMap Token.text = line := by
  fun_induction tokens line with
  | case1 => rfl
  | case2 character rest ih =>
    rw [List.flatMap_cons, ih, List.cons_append]
    congr 1
    exact (List.prefix_iff_eq_append.mp (spell_isPrefix character rest))

theorem length_colors (theme : Theme Color) (line : List Char) :
    (colors theme line).length = line.length := by
  have htext := congrArg List.length (text_tokens line)
  rw [List.length_flatMap] at htext
  rw [colors, List.length_flatMap, ← htext]
  simp only [List.length_replicate]

/-- The dictionary of a line has the line's columns in order, each once, and what it shows is the
line's tokens in the colours of their kinds. -/
theorem highlight_shows_tokens (theme : Theme Color) (line : List Char) :
    ((highlight theme line).map Prod.fst).Pairwise (· < ·) ∧
      (∀ entry ∈ highlight theme line, entry.1 < line.length) ∧
      (List.range line.length).map (shown (highlight theme line) theme.text) =
        (tokens line).flatMap
          (fun token ↦ List.replicate token.text.length (theme.color token.kind)) ∧
      (tokens line).flatMap Token.text = line := by
  obtain ⟨⟨column, hat⟩, hpaints⟩ := paints_highlightFrom (at_nil theme.text line.length)
  have hcolors := hpaints.colors_eq
  rw [List.drop_zero, length_colors] at hcolors
  exact ⟨hat.ordered, hat.inside, hcolors, text_tokens line⟩

end Gzscript.Editor.Highlighter
