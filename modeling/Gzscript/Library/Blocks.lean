import Mathlib.Data.Nat.Basic
import Mathlib.Logic.Function.Basic

/-!
# Memory in blocks

A memory is what its blocks in use contain, and a slice is a part of a block: it can be read as long
as the block is in use. Taking a new block into use changes nothing that can be read, and giving a
block back changes the slices that share it and no other (`read_free`, `read_free_of_shares`).

An owned copy is a slice that is a whole block. `replace` makes a new copy and gives the previous
one back, in this order, so that a text may be replaced by a part of itself; what could be read
before is still there afterwards exactly if it was no part of the previous copy
(`Replaced.kept_iff`).
-/

set_option autoImplicit false
set_option relaxedAutoImplicit false

namespace Gzscript.Library.Blocks

variable {α : Type*}

/-- What the blocks in use contain. -/
abbrev Memory (α : Type*) := ℕ → Option (List α)

structure Slice where
  block : ℕ
  start : ℕ
  length : ℕ
  deriving DecidableEq

/-- What a slice reads, if it can be read. An empty slice refers to no block. -/
def read (memory : Memory α) (slice : Slice) : Option (List α) :=
  if slice.length = 0 then some []
  else
    match memory slice.block with
    | none => none
    | some contents =>
      if slice.start + slice.length ≤ contents.length then
        some ((contents.drop slice.start).take slice.length)
      else none

/-- A slice has a part of the block that another one has. -/
def Shares (slice other : Slice) : Prop :=
  slice.length ≠ 0 ∧ other.length ≠ 0 ∧ slice.block = other.block

instance (slice other : Slice) : Decidable (Shares slice other) :=
  inferInstanceAs (Decidable (_ ∧ _))

theorem Shares.symm {slice other : Slice} (hshares : Shares slice other) : Shares other slice :=
  ⟨hshares.2.1, hshares.1, hshares.2.2.symm⟩

/-- A slice is a block in use, or empty. -/
def IsBlock (memory : Memory α) (slice : Slice) : Prop :=
  slice.length ≠ 0 → slice.start = 0 ∧
    (memory slice.block).map List.length = some slice.length

/-! ### Taking blocks and giving them back -/

/-- An allocator finds a block of a length that is not in use, or fails. -/
abbrev Allocator (α : Type*) :=
  (memory : Memory α) → ℕ → Option { block : ℕ // memory block = none }

/-- A copy of some contents in a new block. No block is taken for empty contents. -/
def dupe (allocator : Allocator α) (memory : Memory α) : List α → Option (Slice × Memory α)
  | [] => some (⟨0, 0, 0⟩, memory)
  | element :: contents =>
    match allocator memory (contents.length + 1) with
    | none => none
    | some block =>
      some (⟨block.1, 0, contents.length + 1⟩,
        Function.update memory block.1 (some (element :: contents)))

def free (memory : Memory α) (slice : Slice) : Memory α :=
  if slice.length = 0 then memory else Function.update memory slice.block none

/-- Makes a copy and then gives the previous one back, if there is one. -/
def replace (allocator : Allocator α) (memory : Memory α) (previous : Option Slice)
    (contents : List α) : Option (Slice × Memory α) :=
  match dupe allocator memory contents with
  | none => none
  | some (copy, grown) =>
    match previous with
    | none => some (copy, grown)
    | some slice => some (copy, free grown slice)

/-! ### What can be read -/

theorem read_congr {memory other : Memory α} {slice : Slice}
    (hsame : slice.length ≠ 0 → other slice.block = memory slice.block) :
    read other slice = read memory slice := by
  unfold read
  by_cases hempty : slice.length = 0
  · rw [if_pos hempty, if_pos hempty]
  · rw [if_neg hempty, if_neg hempty, hsame hempty]

theorem block_of_read {memory : Memory α} {slice : Slice} {contents : List α}
    (hread : read memory slice = some contents) (hlength : slice.length ≠ 0) :
    memory slice.block ≠ none := by
  intro hnone
  rw [read, if_neg hlength, hnone] at hread
  cases hread

theorem IsBlock.block {memory : Memory α} {slice : Slice} (hblock : IsBlock memory slice)
    (hlength : slice.length ≠ 0) : memory slice.block ≠ none := by
  intro hnone
  have hcontents := (hblock hlength).2
  rw [hnone] at hcontents
  cases hcontents

theorem free_of_not_shares {memory : Memory α} {slice other : Slice}
    (hshares : ¬ Shares slice other) (hlength : slice.length ≠ 0) :
    free memory other slice.block = memory slice.block := by
  unfold free
  split_ifs with hempty
  · rfl
  · exact Function.update_of_ne (fun hsame ↦ hshares ⟨hlength, hempty, hsame⟩) _ _

theorem read_free {memory : Memory α} {slice other : Slice} (hshares : ¬ Shares slice other) :
    read (free memory other) slice = read memory slice :=
  read_congr (free_of_not_shares hshares)

theorem read_free_of_shares {memory : Memory α} {slice other : Slice}
    (hshares : Shares slice other) : read (free memory other) slice = none := by
  have hnone : free memory other slice.block = none := by
    rw [free, if_neg hshares.2.1, hshares.2.2]
    exact Function.update_self _ _ _
  rw [read, if_neg hshares.1, hnone]

theorem IsBlock.free {memory : Memory α} {slice other : Slice} (hblock : IsBlock memory slice)
    (hshares : ¬ Shares slice other) : IsBlock (free memory other) slice := by
  intro hlength
  rw [free_of_not_shares hshares hlength]
  exact hblock hlength

/-! ### Copies -/

/-- A copy of some contents has been made in a memory, and it grew to another. -/
structure Duped (memory : Memory α) (contents : List α) (copy : Slice) (grown : Memory α) :
    Prop where
  read : read grown copy = some contents
  isBlock : IsBlock grown copy
  fresh : copy.length ≠ 0 → memory copy.block = none
  same : ∀ block, memory block ≠ none → grown block = memory block

theorem duped_dupe {allocator : Allocator α} {memory grown : Memory α} {contents : List α}
    {copy : Slice} (hdupe : dupe allocator memory contents = some (copy, grown)) :
    Duped memory contents copy grown := by
  cases contents with
  | nil =>
    obtain ⟨rfl, rfl⟩ := Prod.mk.inj (Option.some.inj hdupe)
    exact ⟨rfl, absurd rfl, absurd rfl, fun _ _ ↦ rfl⟩
  | cons element contents =>
    rw [dupe] at hdupe
    split at hdupe
    · cases hdupe
    next block hallocated =>
      obtain ⟨rfl, rfl⟩ := Prod.mk.inj (Option.some.inj hdupe)
      have hself := Function.update_self block.1 (some (element :: contents)) memory
      refine ⟨?_, fun _ ↦ ⟨rfl, ?_⟩, fun _ ↦ block.2, fun other hother ↦ ?_⟩
      · simp [Blocks.read]
      · rw [hself]
        rfl
      · have hne : other ≠ block.1 := fun hsame ↦ hother (hsame ▸ block.2)
        exact Function.update_of_ne hne _ _

/-- A copy replaced the previous one. -/
structure Replaced (memory : Memory α) (previous : Option Slice) (contents : List α)
    (copy : Slice) (after : Memory α) : Prop where
  read : read after copy = some contents
  isBlock : IsBlock after copy
  fresh : copy.length ≠ 0 → memory copy.block = none
  kept : ∀ slice, (∀ owned ∈ previous, ¬ Shares slice owned) → slice.length ≠ 0 →
    memory slice.block ≠ none → after slice.block = memory slice.block
  lost : ∀ slice, ∀ owned ∈ previous, Shares slice owned → Blocks.read after slice = none

theorem replaced_replace {allocator : Allocator α} {memory after : Memory α}
    {previous : Option Slice} {contents : List α} {copy : Slice}
    (howned : ∀ owned ∈ previous, IsBlock memory owned)
    (hreplace : replace allocator memory previous contents = some (copy, after)) :
    Replaced memory previous contents copy after := by
  rw [replace] at hreplace
  split at hreplace
  · cases hreplace
  next made grown hdupe =>
    have hduped := duped_dupe hdupe
    cases previous with
    | none =>
      obtain ⟨rfl, rfl⟩ := Prod.mk.inj (Option.some.inj hreplace)
      refine ⟨hduped.read, hduped.isBlock, hduped.fresh, ?_, ?_⟩
      · exact fun slice _ _ hused ↦ hduped.same slice.block hused
      · intro slice owned hmem
        cases hmem
    | some owned =>
      obtain ⟨rfl, rfl⟩ := Prod.mk.inj (Option.some.inj hreplace)
      -- The previous copy was in use when the new one was made.
      have hapart : ¬ Shares made owned := fun hshares ↦
        (howned owned rfl).block hshares.2.1 (hshares.2.2 ▸ hduped.fresh hshares.1)
      refine ⟨?_, hduped.isBlock.free hapart, hduped.fresh, ?_, ?_⟩
      · rw [read_free hapart, hduped.read]
      · intro slice hshares hlength hused
        rw [free_of_not_shares (hshares owned rfl) hlength]
        exact hduped.same slice.block hused
      · intro slice other hmem hshares
        obtain rfl := Option.some.inj hmem
        exact read_free_of_shares hshares

namespace Replaced

variable {memory after : Memory α} {previous : Option Slice} {contents : List α} {copy : Slice}

/-- What could be read is kept, unless it is part of the previous copy. -/
theorem kept_iff (hreplaced : Replaced memory previous contents copy after) {slice : Slice}
    {text : List α} (hread : Blocks.read memory slice = some text) :
    Blocks.read after slice = some text ↔ ∀ owned ∈ previous, ¬ Shares slice owned := by
  constructor
  · intro hkept owned hmem hshares
    rw [hreplaced.lost slice owned hmem hshares] at hkept
    cases hkept
  · intro hshares
    rw [← hread]
    refine read_congr fun hlength ↦ ?_
    exact hreplaced.kept slice hshares hlength (block_of_read hread hlength)

theorem isBlock_of_isBlock (hreplaced : Replaced memory previous contents copy after)
    {slice : Slice} (hblock : IsBlock memory slice)
    (hshares : ∀ owned ∈ previous, ¬ Shares slice owned) : IsBlock after slice := by
  intro hlength
  rw [hreplaced.kept slice hshares hlength (hblock.block hlength)]
  exact hblock hlength

/-- The copy has a block of its own. -/
theorem not_shares (hreplaced : Replaced memory previous contents copy after) {slice : Slice}
    (hblock : IsBlock memory slice) : ¬ Shares slice copy := by
  intro hshares
  exact hblock.block hshares.1 (hshares.2.2 ▸ hreplaced.fresh hshares.2.1)

end Replaced

end Gzscript.Library.Blocks
