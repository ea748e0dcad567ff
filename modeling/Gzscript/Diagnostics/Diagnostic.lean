import Gzscript.Library.Bytes
import Gzscript.Library.Sorting
import Mathlib.Data.Prod.Lex

/-!
# The diagnostic model

A `GzDiagnostic` belongs to a document, spans a range of zero-based positions and has a severity,
an origin, a message and a code. Two diagnostics are equal when all of these are (the source's
`operator==` compares every field). `gzDiagnosticLess` is the display order: it looks at every
field except the end of the range and the equality of two diagnostics it cannot order is not
implied. `gzDiagnosticLess_strictWeakOrder` makes it a comparison the library sorts accept.
-/

set_option autoImplicit false
set_option relaxedAutoImplicit false

namespace Gzscript.Diagnostics.Diagnostic

open Library.Bytes Library.Sorting

inductive GzDiagnosticSeverity
  | error | warning | information | hint
  deriving DecidableEq, Repr

inductive GzDiagnosticSource
  | zls | zigCompiler | gzScript
  deriving DecidableEq, Repr

/-- The value of the enumerator, which `std::map` orders sources by. -/
def GzDiagnosticSource.ordinal : GzDiagnosticSource → ℕ
  | .zls => 0
  | .zigCompiler => 1
  | .gzScript => 2

/-- The sources in enumerator order. -/
def GzDiagnosticSource.all : List GzDiagnosticSource := [.zls, .zigCompiler, .gzScript]

theorem GzDiagnosticSource.mem_all (source : GzDiagnosticSource) : source ∈ all := by
  cases source <;> decide

/-- A zero-based source position. -/
structure GzSourcePosition where
  line : UInt32 := 0
  column : UInt32 := 0
  deriving DecidableEq, Repr

/-- An end-exclusive range. -/
structure GzSourceRange where
  start : GzSourcePosition := {}
  stop : GzSourcePosition := {}
  deriving DecidableEq, Repr

structure GzDiagnosticOrigin where
  kind : GzDiagnosticSource := .gzScript
  name : ByteString := []
  deriving DecidableEq, Repr

structure GzDiagnostic where
  documentPath : ByteString := []
  range : GzSourceRange := {}
  severity : GzDiagnosticSeverity := .error
  origin : GzDiagnosticOrigin := {}
  message : ByteString := []
  code : ByteString := []
  deriving DecidableEq, Repr

structure GzDiagnosticSnapshot where
  documentPath : ByteString := []
  generation : UInt64 := 0
  diagnostics : List GzDiagnostic := []
  deriving DecidableEq, Repr

def positionLess (lhs rhs : GzSourcePosition) : Bool :=
  if lhs.line ≠ rhs.line then decide (lhs.line < rhs.line) else decide (lhs.column < rhs.column)

def gzDiagnosticSeverityRank : GzDiagnosticSeverity → ℕ
  | .error => 0
  | .warning => 1
  | .information => 2
  | .hint => 3

def gzDiagnosticSourceName : GzDiagnosticSource → ByteString
  | .zls => ascii "zls"
  | .zigCompiler => ascii "zig"
  | .gzScript => ascii "gzscript"

/-- The order of diagnostics: start position, severity rank, origin kind, message, code, origin
name, document. -/
def gzDiagnosticLess (lhs rhs : GzDiagnostic) : Bool :=
  if lhs.range.start ≠ rhs.range.start then positionLess lhs.range.start rhs.range.start
  else if gzDiagnosticSeverityRank lhs.severity ≠ gzDiagnosticSeverityRank rhs.severity then
    decide (gzDiagnosticSeverityRank lhs.severity < gzDiagnosticSeverityRank rhs.severity)
  else if lhs.origin.kind ≠ rhs.origin.kind then
    decide (lhs.origin.kind.ordinal < rhs.origin.kind.ordinal)
  else if lhs.message ≠ rhs.message then less lhs.message rhs.message
  else if lhs.code ≠ rhs.code then less lhs.code rhs.code
  else if lhs.origin.name ≠ rhs.origin.name then less lhs.origin.name rhs.origin.name
  else less lhs.documentPath rhs.documentPath

/-! ### The order is a comparison of keys -/

theorem ordinal_injective : Function.Injective GzDiagnosticSource.ordinal := by
  intro first second h
  cases first <;> cases second <;> first | rfl | exact absurd h (by decide)

/-- The key the order compares: line, column, rank, kind, message, code, name, document. -/
def sortKey (diagnostic : GzDiagnostic) :
    ℕ ×ₗ ℕ ×ₗ ℕ ×ₗ ℕ ×ₗ List ℕ ×ₗ List ℕ ×ₗ List ℕ ×ₗ List ℕ :=
  toLex (diagnostic.range.start.line.toNat, toLex (diagnostic.range.start.column.toNat,
    toLex (gzDiagnosticSeverityRank diagnostic.severity, toLex (diagnostic.origin.kind.ordinal,
      toLex (rank diagnostic.message, toLex (rank diagnostic.code,
        toLex (rank diagnostic.origin.name, rank diagnostic.documentPath)))))))

theorem positionLess_iff (lhs rhs : GzSourcePosition) :
    positionLess lhs rhs = true ↔ lhs.line.toNat < rhs.line.toNat ∨
      lhs.line.toNat = rhs.line.toNat ∧ lhs.column.toNat < rhs.column.toNat := by
  unfold positionLess
  by_cases hline : lhs.line = rhs.line
  · simp [hline, UInt32.lt_iff_toNat_lt]
  · have hne : lhs.line.toNat ≠ rhs.line.toNat := fun h ↦ hline (UInt32.toNat_inj.mp h)
    simp [hline, hne, UInt32.lt_iff_toNat_lt]

theorem start_eq_iff (lhs rhs : GzSourcePosition) :
    lhs = rhs ↔ lhs.line.toNat = rhs.line.toNat ∧ lhs.column.toNat = rhs.column.toNat := by
  cases lhs; cases rhs
  simp [UInt32.toNat_inj]

theorem gzDiagnosticLess_iff (lhs rhs : GzDiagnostic) :
    gzDiagnosticLess lhs rhs = true ↔ sortKey lhs < sortKey rhs := by
  have hmessage := rank_injective.eq_iff (a := lhs.message) (b := rhs.message)
  have hcode := rank_injective.eq_iff (a := lhs.code) (b := rhs.code)
  have hname := rank_injective.eq_iff (a := lhs.origin.name) (b := rhs.origin.name)
  have hkind := ordinal_injective.eq_iff (a := lhs.origin.kind) (b := rhs.origin.kind)
  simp only [sortKey, Prod.Lex.toLex_lt_toLex, hmessage, hcode, hname, hkind]
  unfold gzDiagnosticLess
  split_ifs with hstart hrank hkind' hmessage' hcode' hname' <;>
    simp_all [positionLess_iff, less_iff, start_eq_iff]
  all_goals omega

/-- The diagnostic order is a strict weak order. -/
theorem gzDiagnosticLess_strictWeakOrder : StrictWeakOrder gzDiagnosticLess :=
  StrictWeakOrder.ofKey sortKey gzDiagnosticLess_iff

/-- One result `std::sort` may return, for runs on fixed inputs. -/
def referenceSort : SortAlgorithm gzDiagnosticLess :=
  SortAlgorithm.insertion gzDiagnosticLess_strictWeakOrder

end Gzscript.Diagnostics.Diagnostic
