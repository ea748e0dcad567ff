import Gzscript.Diagnostics.Generations

/-!
# The store refines a log of accepted writes

The log of a run lists its calls with their results, latest first. Two readings of the log are the
abstract store: `latestAccepted`, the normalised batch of the latest applied replacement of a source
of a document that nothing has cleared or removed since, and `advancesSinceRegistered`, the number
of advances since the document was last registered. `logged_exec` is the simulation: after every run
in which no generation counter wraps, the nested maps of the store hold exactly what the two
readings of the log say. `snapshotSource_refines_log` states it of what a consumer sees.
-/

set_option autoImplicit false
set_option relaxedAutoImplicit false

namespace Gzscript.Diagnostics.WriteLog

open Library.Bytes Library.Sorting Library.Transition Diagnostics.Path Diagnostic Store
  GzDiagnosticStore Effect
open Generations

variable (stdSort : SortAlgorithm gzDiagnosticLess)

/-- The calls of a run with their results, latest first. -/
abbrev Log := List (StoreOp × StoreResult)

/-- One call of the store next to its log. -/
def loggedStep (state : GzDiagnosticStore × Log) (op : StoreOp) : GzDiagnosticStore × Log :=
  (step stdSort state.1 op, (op, result stdSort state.1 op) :: state.2)

/-- The log of a run from the empty store. -/
def logOf (ops : List StoreOp) : Log := (exec (loggedStep stdSort) ({}, []) ops).2

/-! ### The abstract store -/

/-- The normalised batch of the latest applied replacement of `source` in the document under `key`
that no later call cleared or removed; empty if there is none. -/
def latestAccepted (key : ByteString) (source : GzDiagnosticSource) : Log → List GzDiagnostic
  | [] => []
  | (.replace update, .update .applied) :: older =>
    if gzNormalizeDocumentPath update.documentPath = key ∧ update.source = source then
      normalizeBatch stdSort update.diagnostics key
    else latestAccepted key source older
  | (.clearSource path cleared, _) :: older =>
    if gzNormalizeDocumentPath path = key ∧ cleared = source then []
    else latestAccepted key source older
  | (.clearDocument path, _) :: older =>
    if gzNormalizeDocumentPath path = key then [] else latestAccepted key source older
  | (.clearAllFromSource cleared _, _) :: older =>
    if cleared = source then [] else latestAccepted key source older
  | (.removeDocument path, _) :: older =>
    if gzNormalizeDocumentPath path = key then [] else latestAccepted key source older
  | _ :: older => latestAccepted key source older

/-- The number of advances of the document under `key` since it was last registered; absent while
it is not registered. -/
def advancesSinceRegistered (key : ByteString) : Log → Option ℕ
  | [] => none
  | (.openDocument path, _) :: older =>
    if gzNormalizeDocumentPath path = key then
      some ((advancesSinceRegistered key older).getD 0)
    else advancesSinceRegistered key older
  | (.advanceGeneration path, _) :: older =>
    if gzNormalizeDocumentPath path = key then
      (advancesSinceRegistered key older).map (· + 1)
    else advancesSinceRegistered key older
  | (.removeDocument path, _) :: older =>
    if gzNormalizeDocumentPath path = key then none else advancesSinceRegistered key older
  | _ :: older => advancesSinceRegistered key older

/-- The generation a consumer is shown for a document with that history. -/
def shownGeneration : Option ℕ → ℕ
  | none => 0
  | some advances => 1 + advances

/-! ### The simulation -/

/-- The store holds what the log says. -/
structure Refines (store : GzDiagnosticStore) (log : Log) : Prop where
  diagnostics : ∀ key source, stored store key source = latestAccepted stdSort key source log
  generations : ∀ key, (generationAt store key).map UInt64.toNat =
    (advancesSinceRegistered key log).map (1 + ·)

/-- A document is in the store exactly if it is registered in the log, with the generation that the
log says. -/
theorem Refines.registered_cases {store : GzDiagnosticStore} {log : Log}
    (h : Refines stdSort store log) (key : ByteString) :
    (store.documents.lookup key = none ∧ advancesSinceRegistered key log = none) ∨
      ∃ state advances, store.documents.lookup key = some state ∧
        advancesSinceRegistered key log = some advances ∧
          state.generation.toNat = 1 + advances := by
  have hgenerations := h.generations key
  rw [generationAt] at hgenerations
  cases hlookup : store.documents.lookup key with
  | none =>
    rw [hlookup] at hgenerations
    exact .inl ⟨rfl, Option.map_eq_none_iff.mp hgenerations.symm⟩
  | some state =>
    rw [hlookup] at hgenerations
    obtain ⟨advances, hadvances, hsum⟩ := Option.map_eq_some_iff.mp hgenerations.symm
    exact .inr ⟨state, advances, rfl, hadvances, hsum.symm⟩

/-- A replacement that is not applied changes no document and no queue entry. -/
theorem sameContents_of_rejected (store : GzDiagnosticStore) (update : GzDiagnosticUpdate)
    (hrejected : ¬ Applies stdSort store update) :
    SameContents store (step stdSort store (.replace update)) := by
  cases hlookup : store.documents.lookup (gzNormalizeDocumentPath update.documentPath) with
  | none => exact (replace_unknown stdSort store update hlookup).2
  | some state =>
    refine (replace_outdated stdSort store update state hlookup fun hgeneration ↦ ?_).2
    refine hrejected ((applies_iff stdSort store update).mpr ?_)
    rw [generationAt, hlookup, Option.map_some, hgeneration]

/-- A replacement that is not applied is not read. -/
theorem latestAccepted_of_rejected (key : ByteString) (source : GzDiagnosticSource)
    (update : GzDiagnosticUpdate) {outcome : StoreResult} (h : outcome ≠ .update .applied)
    (log : Log) :
    latestAccepted stdSort key source ((.replace update, outcome) :: log) =
      latestAccepted stdSort key source log := by
  cases outcome with
  | update status =>
    cases status with
    | applied => exact absurd rfl h
    | _ => rfl
  | _ => rfl

theorem latestAccepted_replace {store : GzDiagnosticStore} {log : Log}
    (hrefines : Refines stdSort store log) (update : GzDiagnosticUpdate) (key : ByteString)
    (source : GzDiagnosticSource) :
    stored (step stdSort store (.replace update)) key source =
      latestAccepted stdSort key source
        ((.replace update, result stdSort store (.replace update)) :: log) := by
  have hbefore := hrefines.diagnostics key source
  by_cases happlies : Applies stdSort store update
  · have hgeneration := (applies_iff stdSort store update).mp happlies
    rw [stored_step, documentEffect, happlies, latestAccepted, ← hbefore]
    by_cases hkey : gzNormalizeDocumentPath update.documentPath = key
    · subst hkey
      obtain ⟨state, hlookup, hstate⟩ := Option.map_eq_some_iff.mp hgeneration
      rw [if_pos rfl, hlookup, Option.map_some, Option.map_some, Option.getD_some,
        stored_replaceState, stored_tracked hlookup]
      simp [hstate]
    · simp only [hkey, if_false, false_and, stored]
  · rw [latestAccepted_of_rejected stdSort key source update happlies, ← hbefore, stored, stored,
      (sameContents_of_rejected stdSort store update happlies).1]

theorem latestAccepted_loggedStep {store : GzDiagnosticStore} {log : Log}
    (hrefines : Refines stdSort store log) (op : StoreOp) (key : ByteString)
    (source : GzDiagnosticSource) :
    stored (step stdSort store op) key source =
      latestAccepted stdSort key source ((op, result stdSort store op) :: log) := by
  have hbefore := hrefines.diagnostics key source
  cases op with
  | replace update => exact latestAccepted_replace stdSort hrefines update key source
  | openDocument path =>
    rw [stored_step]
    simp only [documentEffect, latestAccepted, ← hbefore]
    split_ifs
    · rw [Option.map_some, Option.getD_some, stored_openState, stored]
    · rw [stored]
  | advanceGeneration path =>
    rw [stored_step]
    simp only [documentEffect, latestAccepted, ← hbefore, stored]
    split_ifs <;> cases store.documents.lookup key <;> rfl
  | closeDocument path =>
    rw [stored_step]
    simp only [documentEffect, latestAccepted, ← hbefore, stored]
    split_ifs <;> cases store.documents.lookup key <;> rfl
  | clearSource path cleared =>
    rw [stored_step]
    simp only [documentEffect, latestAccepted, ← hbefore, stored]
    cases store.documents.lookup key with
    | none => simp
    | some state => split_ifs <;> simp_all [stored_clearSourceState]
  | clearDocument path =>
    rw [stored_step]
    simp only [documentEffect, latestAccepted, ← hbefore, stored]
    cases store.documents.lookup key with
    | none => simp
    | some state => split_ifs <;> simp [stored_clearState]
  | clearAllFromSource cleared order =>
    rw [stored_step]
    simp only [documentEffect, latestAccepted, ← hbefore, stored]
    cases store.documents.lookup key with
    | none => simp
    | some state => simp [stored_clearSourceState]
  | removeDocument path =>
    rw [stored_step]
    simp only [documentEffect, latestAccepted, ← hbefore, stored]
    split_ifs <;> rfl
  | currentGeneration path => exact hbefore
  | snapshot path => exact hbefore
  | snapshotSource path other => exact hbefore
  | takeChangedDocuments => exact hbefore

theorem advancesSinceRegistered_loggedStep {store : GzDiagnosticStore} {log : Log}
    (hrefines : Refines stdSort store log) (op : StoreOp) (hwraps : ∀ key, ¬ Wraps store op key)
    (outcome : StoreResult) (key : ByteString) :
    (generationAt (step stdSort store op) key).map UInt64.toNat =
      (advancesSinceRegistered key ((op, outcome) :: log)).map (1 + ·) := by
  have hbefore := hrefines.generations key
  rw [generationAt] at hbefore ⊢
  rw [lookup_step]
  cases op with
  | openDocument path =>
    simp only [documentEffect, advancesSinceRegistered]
    split_ifs
    · obtain ⟨hlookup, hadvances⟩ | ⟨state, advances, hlookup, hadvances, hstate⟩ :=
        hrefines.registered_cases stdSort key
      · rw [hlookup, hadvances]
        rfl
      · have hne : state.generation ≠ 0 := by
          intro hzero
          rw [hzero, UInt64.toNat_zero] at hstate
          omega
        rw [hlookup, hadvances]
        simp [openState, hne, hstate]
    · exact hbefore
  | advanceGeneration path =>
    simp only [documentEffect, advancesSinceRegistered]
    split_ifs with hkey
    · obtain ⟨hlookup, hadvances⟩ | ⟨state, advances, hlookup, hadvances, hstate⟩ :=
        hrefines.registered_cases stdSort key
      · rw [hlookup, hadvances]
        rfl
      · have hmax : state.generation ≠ .ofNat (2 ^ 64 - 1) := by
          intro hmax
          have htracked : Tracked store key := by
            rw [Tracked, hlookup]
            rfl
          refine hwraps key ⟨⟨⟨path, rfl, hkey⟩, htracked⟩, ?_⟩
          rw [generationAt, hlookup, Option.map_some, hmax]
        rw [hlookup, hadvances]
        simp only [Option.map_some]
        rw [toNat_succ hmax, hstate, Nat.add_assoc]
    · exact hbefore
  | removeDocument path =>
    simp only [documentEffect, advancesSinceRegistered]
    split_ifs
    · rfl
    · exact hbefore
  | _ =>
    rw [documentEffect_generation]
    · exact hbefore
    all_goals simp

/-- After every run in which no generation counter wraps, the store holds what its log says. -/
theorem logged_exec (ops : List StoreOp)
    (hwraps : Along (step stdSort) (fun store op ↦ ∀ key, ¬ Wraps store op key) {} ops) :
    Refines stdSort (exec (step stdSort) {} ops) (logOf stdSort ops) := by
  have hboth : ∀ (ops : List StoreOp) (state : GzDiagnosticStore × Log),
      Along (step stdSort) (fun store op ↦ ∀ key, ¬ Wraps store op key) state.1 ops →
        Refines stdSort state.1 state.2 →
          Refines stdSort (exec (step stdSort) state.1 ops)
            (exec (loggedStep stdSort) state ops).2 := by
    intro ops
    induction ops with
    | nil => exact fun _ _ hrefines ↦ hrefines
    | cons op ops ih =>
      intro state halong hrefines
      exact ih (loggedStep stdSort state op) halong.2
        { diagnostics := latestAccepted_loggedStep stdSort hrefines op
          generations := advancesSinceRegistered_loggedStep stdSort hrefines op halong.1 _ }
  exact hboth ops ({}, []) hwraps
    { diagnostics := fun _ _ ↦ rfl
      generations := fun _ ↦ rfl }

theorem snapshotSource_eq (store : GzDiagnosticStore) (path : ByteString)
    (source : GzDiagnosticSource) :
    (store.snapshotSource path source).diagnostics =
        stored store (gzNormalizeDocumentPath path) source ∧
      (store.snapshotSource path source).generation =
        (generationAt store (gzNormalizeDocumentPath path)).getD 0 := by
  simp only [GzDiagnosticStore.snapshotSource, stored, generationAt]
  cases store.documents.lookup (gzNormalizeDocumentPath path) with
  | none => exact ⟨rfl, rfl⟩
  | some state => exact ⟨rfl, rfl⟩

/-- In every run in which no generation counter wraps: the snapshot of a source of a document shows
the latest accepted batch that nothing cleared since, and the number of advances since the document
was last registered plus one; and a replacement that is rejected changes no document and no queue
entry. -/
theorem snapshotSource_refines_log (ops : List StoreOp)
    (hwraps : Along (step stdSort) (fun store op ↦ ∀ key, ¬ Wraps store op key) {} ops)
    (path : ByteString) (source : GzDiagnosticSource) :
    ((exec (step stdSort) {} ops).snapshotSource path source).diagnostics =
        latestAccepted stdSort (gzNormalizeDocumentPath path) source (logOf stdSort ops) ∧
      ((exec (step stdSort) {} ops).snapshotSource path source).generation.toNat =
        shownGeneration
          (advancesSinceRegistered (gzNormalizeDocumentPath path) (logOf stdSort ops)) ∧
      ∀ update, result stdSort (exec (step stdSort) {} ops) (.replace update) ≠ .update .applied →
        SameContents (exec (step stdSort) {} ops)
          (step stdSort (exec (step stdSort) {} ops) (.replace update)) := by
  have hrefines := logged_exec stdSort ops hwraps
  obtain ⟨hdiagnostics, hgeneration⟩ := snapshotSource_eq (exec (step stdSort) {} ops) path source
  refine ⟨hdiagnostics.trans (hrefines.diagnostics _ source), ?_,
    fun update hrejected ↦ sameContents_of_rejected stdSort _ update hrejected⟩
  rw [hgeneration, generationAt]
  obtain ⟨hlookup, hadvances⟩ | ⟨state, advances, hlookup, hadvances, hstate⟩ :=
    hrefines.registered_cases stdSort (gzNormalizeDocumentPath path)
  · rw [hlookup, hadvances]
    rfl
  · rw [hlookup, hadvances]
    exact hstate

/-- A document advanced once is shown with generation 2, whatever the spelling of its path. -/
theorem snapshotSource_refines_log_sample :
    ((exec (step referenceSort) {} [.openDocument (ascii "/game/a.zig"), .replace sampleUpdate,
        .advanceGeneration (ascii "/game//a.zig")]).snapshotSource (ascii "/game/./a.zig")
          .gzScript).generation.toNat = 2 := by
  have h := (snapshotSource_refines_log referenceSort [.openDocument (ascii "/game/a.zig"),
    .replace sampleUpdate, .advanceGeneration (ascii "/game//a.zig")] ?_
    (ascii "/game/./a.zig") .gzScript).2.1
  · rw [h]
    decide +kernel
  · refine ⟨?_, ?_, ?_, trivial⟩
    · rintro key ⟨⟨⟨path, hop, -⟩, -⟩, -⟩
      cases hop
    · rintro key ⟨⟨⟨path, hop, -⟩, -⟩, -⟩
      cases hop
    · rintro key ⟨⟨⟨path, hop, hkey⟩, -⟩, hmax⟩
      cases hop
      subst hkey
      revert hmax
      decide +kernel

end Gzscript.Diagnostics.WriteLog
