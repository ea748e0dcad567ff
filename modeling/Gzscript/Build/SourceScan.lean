import Mathlib.Data.List.Basic
import Mathlib.Order.Basic
import Mathlib.Tactic.Common

/-!
# The operands of a source file

`sourceDependencies` reads the operands of `@import` and `@embedFile` off the text of a Zig file, in
their order. Comments, strings and character literals are passed over; a call whose operand is not a
plain string makes it give up. The text is scanned as a list of characters, and each round takes at
least one of them (`length_skipLine`, `length_skipQuoted`, `length_readCall`).
-/

set_option autoImplicit false
set_option relaxedAutoImplicit false

namespace Gzscript.Build.SourceScan

/-- An operand as it is written, and whether it belongs to an `@import`. -/
structure SourceDependency where
  path : String
  isImport : Bool
  deriving DecidableEq

def newline : Char := Char.ofNat 10

def doubleQuote : Char := Char.ofNat 34

def singleQuote : Char := Char.ofNat 39

def backslash : Char := Char.ofNat 92

def isBlank (c : Char) : Bool :=
  c == Char.ofNat 32 || c == Char.ofNat 9 || c == Char.ofNat 13 || c == newline

/-- What follows the next line break. -/
def skipLine : List Char → List Char
  | [] => []
  | c :: rest => if c = newline then rest else skipLine rest

/-- What follows the quote that closes a literal. -/
def skipQuoted (quote : Char) : List Char → List Char
  | [] => []
  | [_] => []
  | c :: next :: rest =>
    if c = backslash then skipQuoted quote rest
    else if c = quote then next :: rest
    else skipQuoted quote (next :: rest)

/-- The characters up to the closing quote, and what follows it. An escape is refused. -/
def readOperand : List Char → Option (List Char × List Char)
  | [] => none
  | c :: rest =>
    if c = doubleQuote then some ([], rest)
    else if c = backslash then none
    else (readOperand rest).map fun read ↦ (c :: read.1, read.2)

/-- The operand of a call, from the character that follows the name of the builtin. -/
def readCall (text : List Char) : Option (List Char × List Char) :=
  match text.dropWhile isBlank with
  | [] => none
  | c :: rest =>
    if c = '(' then
      match rest.dropWhile isBlank with
      | [] => none
      | c :: rest => if c = doubleQuote then readOperand rest else none
    else
      none

theorem length_skipLine (text : List Char) : (skipLine text).length ≤ text.length := by
  induction text with
  | nil => exact Nat.le_refl _
  | cons c rest ih =>
    rw [skipLine]
    split
    · exact Nat.le_succ _
    · exact Nat.le_succ_of_le ih

theorem length_skipQuoted (quote : Char) (text : List Char) :
    (skipQuoted quote text).length ≤ text.length := by
  induction text using skipQuoted.induct quote with
  | case1 => exact Nat.le_refl _
  | case2 => exact Nat.zero_le _
  | case3 next rest ih =>
    rw [skipQuoted, if_pos rfl]
    simp only [List.length_cons]
    omega
  | case4 next rest hescape =>
    rw [skipQuoted, if_neg hescape, if_pos rfl]
    exact Nat.le_succ _
  | case5 c next rest hescape hquote ih =>
    rw [skipQuoted, if_neg hescape, if_neg hquote]
    exact Nat.le_succ_of_le ih

theorem length_readOperand {text operand rest : List Char}
    (h : readOperand text = some (operand, rest)) : rest.length < text.length := by
  induction text generalizing operand with
  | nil => cases h
  | cons c text ih =>
    rw [readOperand] at h
    split at h
    · cases h
      exact Nat.lt_succ_self _
    · split at h
      · cases h
      · obtain ⟨⟨tail, rest'⟩, hread, heq⟩ := Option.map_eq_some_iff.mp h
        cases heq
        exact Nat.lt_succ_of_lt (ih hread)

theorem length_readCall {text operand rest : List Char}
    (h : readCall text = some (operand, rest)) : rest.length < text.length := by
  have hblanks (text : List Char) : (text.dropWhile isBlank).length ≤ text.length :=
    (List.dropWhile_suffix _).length_le
  rw [readCall] at h
  split at h
  · cases h
  next c afterOpen hopen =>
    have houter := hblanks text
    rw [hopen, List.length_cons] at houter
    split at h
    · split at h
      · cases h
      next c afterQuote hquote =>
        have hinner := hblanks afterOpen
        rw [hquote, List.length_cons] at hinner
        split at h
        · have hread := length_readOperand h
          omega
        · cases h
    · cases h

/-- The operands from a position on. -/
def scan (text : List Char) : Option (List SourceDependency) :=
  match text with
  | [] => some []
  | c :: rest =>
    if c = '/' ∧ rest.head? = some '/' then
      scan (skipLine rest.tail)
    else if c = doubleQuote ∨ c = singleQuote then
      scan (skipQuoted c rest)
    else if "@import".toList.isPrefixOf (c :: rest) then
      match _hcall : readCall (rest.drop 6) with
      | none => none
      | some (operand, after) => (scan after).map (⟨String.ofList operand, true⟩ :: ·)
    else if "@embedFile".toList.isPrefixOf (c :: rest) then
      match _hcall : readCall (rest.drop 9) with
      | none => none
      | some (operand, after) => (scan after).map (⟨String.ofList operand, false⟩ :: ·)
    else
      scan rest
termination_by text.length
decreasing_by
  · have hline := length_skipLine rest.tail
    rw [List.length_tail] at hline
    rw [List.length_cons]
    omega
  · exact Nat.lt_succ_of_le (length_skipQuoted c rest)
  · have hlength := length_readCall _hcall
    rw [List.length_drop] at hlength
    rw [List.length_cons]
    omega
  · have hlength := length_readCall _hcall
    rw [List.length_drop] at hlength
    rw [List.length_cons]
    omega
  · exact Nat.lt_succ_self _

/-- `source_dependencies`: the operands of a file, or nothing where it gives up. -/
def sourceDependencies (source : String) : Option (List SourceDependency) := scan source.toList

end Gzscript.Build.SourceScan
