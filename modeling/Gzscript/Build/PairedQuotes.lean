import Gzscript.Build.ZigTokens
import Mathlib.Data.List.TakeWhile

/-!
# Quotes that pair up

The condition under which the scan of a file is in step with its tokens is one on the text alone:
the quotes in front of a call pair up, comments aside (`Paired`), and the call is spelled with a
plain string (`Spells`). Neither mentions the scan; that it reads a call just where one is spelled
is `readCall_eq_some_iff`.
-/

set_option autoImplicit false
set_option relaxedAutoImplicit false

namespace Gzscript.Build.PairedQuotes

open SourceScan ZigTokens

/-- The quotes of a text pair up, those in comments aside. -/
inductive Paired : List Char → Prop
  | nil : Paired []
  | comment {line rest : List Char} (hline : ∀ c ∈ line, c ≠ newline) (hrest : Paired rest) :
      Paired ('/' :: '/' :: (line ++ newline :: rest))
  | quoted {quote : Char} {literal body rest : List Char}
      (hquote : quote = doubleQuote ∨ quote = singleQuote)
      (hliteral : Quoted quote literal body []) (hrest : Paired rest) :
      Paired (quote :: (literal ++ rest))
  | plain {c : Char} {rest : List Char} (hcomment : ¬(c = '/' ∧ rest.head? = some '/'))
      (hquote : ¬(c = doubleQuote ∨ c = singleQuote)) (hrest : Paired rest) : Paired (c :: rest)

/-- The quotes of a multiline string line pair up before the line ends. -/
def LinePaired (line : List Char) : Prop := Paired (line ++ [newline])

/-- The name of the builtin that a dependency comes from. -/
def builtinName (isImport : Bool) : List Char :=
  if isImport then "@import".toList else "@embedFile".toList

/-- The operand of a call, in parentheses and quotes that blanks may precede. -/
def SpelledCall (text operand rest : List Char) : Prop :=
  ∃ between inner, (∀ c ∈ between, isBlank c = true) ∧ (∀ c ∈ inner, isBlank c = true) ∧
    (∀ c ∈ operand, c ≠ doubleQuote ∧ c ≠ backslash) ∧
    text = between ++ '(' :: (inner ++ doubleQuote :: (operand ++ doubleQuote :: rest))

/-- The text begins with a call that has a plain string for its operand. -/
def Spells (dependency : SourceDependency) (text : List Char) : Prop :=
  ∃ behind operand rest, text = builtinName dependency.isImport ++ behind ∧
    SpelledCall behind operand rest ∧ dependency.path = String.ofList operand

/-! ### Literals -/

/-- A literal is the same whatever follows it. -/
theorem Quoted.split {quote : Char} {text body behind : List Char}
    (h : Quoted quote text body behind) :
    ∃ literal, text = literal ++ behind ∧ Quoted quote literal body [] := by
  induction h with
  | closed => exact ⟨[quote], rfl, .closed⟩
  | escaped _ ih =>
    obtain ⟨literal, rfl, hliteral⟩ := ih
    exact ⟨_ :: _ :: literal, rfl, .escaped hliteral⟩
  | plain hescape hother _ ih =>
    obtain ⟨literal, rfl, hliteral⟩ := ih
    exact ⟨_ :: literal, rfl, .plain hescape hother hliteral⟩

/-! ### Calls -/

theorem readOperand_eq_some_iff {text operand rest : List Char} :
    readOperand text = some (operand, rest) ↔
      (∀ c ∈ operand, c ≠ doubleQuote ∧ c ≠ backslash) ∧
        text = operand ++ doubleQuote :: rest := by
  constructor
  · intro h
    induction text generalizing operand with
    | nil => cases h
    | cons c text ih =>
      rw [readOperand] at h
      split_ifs at h with hquote hescape
      · cases h
        exact ⟨List.forall_mem_nil _, by rw [hquote]; rfl⟩
      · obtain ⟨⟨tail, rest'⟩, hread, heq⟩ := Option.map_eq_some_iff.mp h
        cases heq
        obtain ⟨hplain, rfl⟩ := ih hread
        exact ⟨List.forall_mem_cons.mpr ⟨⟨hquote, hescape⟩, hplain⟩, rfl⟩
  · rintro ⟨hplain, rfl⟩
    induction operand with
    | nil => rw [List.nil_append, readOperand, if_pos rfl]
    | cons c operand ih =>
      obtain ⟨⟨hquote, hescape⟩, hplain⟩ := List.forall_mem_cons.mp hplain
      rw [List.cons_append, readOperand, if_neg hquote, if_neg hescape, ih hplain, Option.map_some]

theorem dropWhile_isBlank_eq {blanks rest : List Char} {c : Char}
    (hblanks : ∀ d ∈ blanks, isBlank d = true) (hc : isBlank c = false) :
    (blanks ++ c :: rest).dropWhile isBlank = c :: rest := by
  rw [List.dropWhile_append_of_pos hblanks, List.dropWhile_cons_of_neg]
  rw [hc]
  exact Bool.false_ne_true

/-- A call is read where it is spelled. -/
theorem readCall_eq_some_iff {text operand rest : List Char} :
    readCall text = some (operand, rest) ↔ SpelledCall text operand rest := by
  constructor
  · intro h
    rw [readCall] at h
    split at h
    · cases h
    next c inner hopen =>
      split_ifs at h with hparen
      subst hparen
      split at h
      · cases h
      next c behind hquote =>
        split_ifs at h with hdouble
        subst hdouble
        obtain ⟨hplain, rfl⟩ := readOperand_eq_some_iff.mp h
        refine ⟨text.takeWhile isBlank, inner.takeWhile isBlank, fun c hc ↦ ?_, fun c hc ↦ ?_,
          hplain, ?_⟩
        · exact List.mem_takeWhile_imp hc
        · exact List.mem_takeWhile_imp hc
        · rw [← hquote, List.takeWhile_append_dropWhile, ← hopen,
            List.takeWhile_append_dropWhile]
  · rintro ⟨between, inner, hbetween, hinner, hplain, rfl⟩
    rw [readCall, dropWhile_isBlank_eq hbetween (by decide)]
    simp only [if_true]
    rw [dropWhile_isBlank_eq hinner (by decide)]
    simp only [if_true]
    exact readOperand_eq_some_iff.mpr ⟨hplain, rfl⟩

end Gzscript.Build.PairedQuotes
