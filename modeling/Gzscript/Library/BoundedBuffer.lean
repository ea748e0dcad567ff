import Mathlib.Algebra.Order.Group.Nat
import Mathlib.Data.List.Basic

/-!
# Bounded buffers

A buffer keeps the first elements of what it is given, up to a limit, and remembers whether it has
left anything out. What it holds depends on the elements alone and not on the pieces in which they
come (`append_append`, `foldl_append`).
-/

set_option autoImplicit false
set_option relaxedAutoImplicit false

namespace Gzscript.Library.BoundedBuffer

variable {α : Type*}

@[ext] structure Buffer (α : Type*) where
  kept : List α
  dropped : Bool

def empty : Buffer α := ⟨[], false⟩

/-- As much of a piece as there is room for. -/
def append (limit : ℕ) (buffer : Buffer α) (piece : List α) : Buffer α where
  kept := buffer.kept ++ piece.take (limit - buffer.kept.length)
  dropped := buffer.dropped || decide (limit - buffer.kept.length < piece.length)

/-- Elements that are not counted against the limit. -/
def extend (buffer : Buffer α) (elements : List α) : Buffer α :=
  { buffer with kept := buffer.kept ++ elements }

variable (limit : ℕ)

@[simp] theorem append_nil (buffer : Buffer α) : append limit buffer [] = buffer := by
  simp [append]

@[simp] theorem extend_nil (buffer : Buffer α) : extend buffer [] = buffer := by
  simp [extend]

theorem append_empty (piece : List α) :
    append limit empty piece = ⟨piece.take limit, decide (limit < piece.length)⟩ := by
  simp [append, empty]

/-- Two pieces, one after the other, are one piece. -/
theorem append_append (buffer : Buffer α) (first second : List α) :
    append limit (append limit buffer first) second = append limit buffer (first ++ second) := by
  have hroom : limit - (buffer.kept.length + min (limit - buffer.kept.length) first.length) =
      limit - buffer.kept.length - first.length := by omega
  ext1
  · simp only [append, List.length_append, List.length_take, hroom, List.take_append,
      List.append_assoc]
  · have hlength : (limit - buffer.kept.length < first.length ∨
        limit - buffer.kept.length - first.length < second.length) ↔
        limit - buffer.kept.length < first.length + second.length := by omega
    simp only [append, List.length_append, List.length_take, hroom, Bool.or_assoc,
      ← Bool.decide_or, hlength]

/-- The buffer does not show in which pieces its elements came. -/
theorem foldl_append (buffer : Buffer α) (pieces : List (List α)) :
    pieces.foldl (append limit) buffer = append limit buffer pieces.flatten := by
  induction pieces generalizing buffer with
  | nil => simp
  | cons piece pieces ih => rw [List.foldl_cons, ih, append_append, List.flatten_cons]

theorem length_kept_append (buffer : Buffer α) (piece : List α) :
    (append limit buffer piece).kept.length ≤ max buffer.kept.length limit := by
  simp only [append, List.length_append, List.length_take]
  omega

end Gzscript.Library.BoundedBuffer
