import Gzscript.Diagnostics.ChangeQueue
import Gzscript.Diagnostics.Generations
import Gzscript.Library.AdjacentDuplicates

/-!
# What the order of a batch decides

A replacement stores its batch sorted by `gzDiagnosticLess` with equal neighbours merged. The order
ignores the end of a range and the equality does not, so the order ties exactly the diagnostics that
agree but for the end of their range (`tied_iff`). Two properties of the stored batch depend on
these ties, and for both the exact condition on the batch is an equivalence over every result
`std::sort` may return: that each distinct diagnostic is stored once (`eachStoredOnce_iff`), and
that a producer which submits the same diagnostics in another order changes nothing
(`resubmission_noop_iff`).
-/

set_option autoImplicit false
set_option relaxedAutoImplicit false

namespace Gzscript.Diagnostics.BatchOrder

open Library.Bytes Library.Sorting Library.Transition Library.AdjacentDuplicates Diagnostics.Path
  Diagnostic Store GzDiagnosticStore Effect ChangeQueue Generations

/-! ### The diagnostics the order ties -/

/-- Two different diagnostics that agree in everything but the end of their range. -/
def DifferInEnd (first second : GzDiagnostic) : Prop :=
  first ≠ second ∧
    { first with range := { first.range with stop := second.range.stop } } = second

instance (first second : GzDiagnostic) : Decidable (DifferInEnd first second) :=
  inferInstanceAs (Decidable (_ ∧ _))

theorem tied_iff_sortKey (first second : GzDiagnostic) :
    Tied gzDiagnosticLess first second ↔ sortKey first = sortKey second := by
  rw [Tied, ← Bool.not_eq_true, ← Bool.not_eq_true, gzDiagnosticLess_iff, gzDiagnosticLess_iff,
    not_lt, not_lt]
  exact ⟨fun h ↦ le_antisymm h.2 h.1, fun h ↦ ⟨h.ge, h.le⟩⟩

theorem gzDiagnosticSeverityRank_injective : Function.Injective gzDiagnosticSeverityRank := by
  intro first second h
  cases first <;> cases second <;> first | rfl | exact absurd h (by decide)

/-- The order ties two diagnostics exactly if they agree but for the end of their range. -/
theorem tied_iff (first second : GzDiagnostic) : Tied gzDiagnosticLess first second ↔
    { first with range := { first.range with stop := second.range.stop } } = second := by
  rw [tied_iff_sortKey]
  constructor
  · intro hkey
    simp only [sortKey, EmbeddingLike.apply_eq_iff_eq, Prod.mk.injEq] at hkey
    obtain ⟨hline, hcolumn, hseverity, hkind, hmessage, hcode, hname, hdocument⟩ := hkey
    have hstart : first.range.start = second.range.start :=
      (start_eq_iff _ _).mpr ⟨hline, hcolumn⟩
    have hkind' := ordinal_injective hkind
    have hname' := rank_injective hname
    have horigin : first.origin = second.origin := by
      cases hleft : first.origin
      cases hright : second.origin
      simp_all
    have hseverity' := gzDiagnosticSeverityRank_injective hseverity
    have hmessage' := rank_injective hmessage
    have hcode' := rank_injective hcode
    have hdocument' := rank_injective hdocument
    cases first
    cases second
    simp_all
  · intro heq
    rw [← heq]
    rfl

theorem differInEnd_iff (first second : GzDiagnostic) :
    DifferInEnd first second ↔ first ≠ second ∧ Tied gzDiagnosticLess first second := by
  rw [DifferInEnd, tied_iff]

/-! ### Each distinct diagnostic is stored once -/

/-- A batch as it is sorted. -/
def rewritten (key : ByteString) (diagnostics : List GzDiagnostic) : List GzDiagnostic :=
  diagnostics.map (normalizeDiagnostic key)

/-- A list holds each distinct diagnostic of another one exactly once. -/
def HoldsEachOnce (contents diagnostics : List GzDiagnostic) : Prop :=
  ∀ diagnostic ∈ diagnostics, contents.count diagnostic = 1

/-- No rewritten diagnostic that occurs more than once has a counterpart in the batch that differs
from it in the end of the range only. -/
def EndsUnambiguous (key : ByteString) (diagnostics : List GzDiagnostic) : Prop :=
  ∀ first ∈ rewritten key diagnostics, ∀ second ∈ rewritten key diagnostics,
    DifferInEnd first second → (rewritten key diagnostics).count first = 1

theorem noTiedRepeat_rewritten_iff (key : ByteString) (diagnostics : List GzDiagnostic) :
    NoTiedRepeat gzDiagnosticLess (rewritten key diagnostics) ↔
      EndsUnambiguous key diagnostics := by
  simp only [NoTiedRepeat, EndsUnambiguous, differInEnd_iff, and_imp]

/-- The merge only drops, so holding each diagnostic once is having no duplicate. -/
theorem holdsEachOnce_normalizeBatch_iff (stdSort : SortAlgorithm gzDiagnosticLess)
    (diagnostics : List GzDiagnostic) (key : ByteString) :
    HoldsEachOnce (normalizeBatch stdSort diagnostics key) (rewritten key diagnostics) ↔
      (normalizeBatch stdSort diagnostics key).Nodup := by
  have hmem : ∀ diagnostic, diagnostic ∈ normalizeBatch stdSort diagnostics key ↔
      diagnostic ∈ rewritten key diagnostics := fun diagnostic ↦ by
    rw [normalizeBatch, mem_destutter]
    exact (stdSort.perm _).mem_iff
  constructor
  · intro honce
    refine List.nodup_iff_count_le_one.mpr fun diagnostic ↦ ?_
    by_cases hin : diagnostic ∈ rewritten key diagnostics
    · exact (honce diagnostic hin).le
    · rw [List.count_eq_zero_of_not_mem fun h ↦ hin ((hmem diagnostic).mp h)]
      exact Nat.zero_le 1
  · intro hnodup diagnostic hin
    exact List.count_eq_one_of_mem hnodup ((hmem diagnostic).mpr hin)

theorem stored_replace_applied (stdSort : SortAlgorithm gzDiagnosticLess)
    (store : GzDiagnosticStore) (update : GzDiagnosticUpdate)
    (happlied : Applies stdSort store update) :
    stored (step stdSort store (.replace update)) (gzNormalizeDocumentPath update.documentPath)
        update.source =
      normalizeBatch stdSort update.diagnostics
        (gzNormalizeDocumentPath update.documentPath) := by
  have hgeneration := (applies_iff stdSort store update).mp happlied
  rw [generationAt] at hgeneration
  obtain ⟨state, hlookup, hcurrent⟩ := Option.map_eq_some_iff.mp hgeneration
  rw [stored_step, documentEffect, if_pos rfl, hlookup, Option.map_some, Option.map_some,
    Option.getD_some, stored_replaceState, if_pos ⟨hcurrent.symm, rfl⟩]

/-- An applied replacement stores each distinct diagnostic of its rewritten batch exactly once,
whatever `std::sort` returns, if and only if no diagnostic that occurs more than once in the batch
has a counterpart that differs in the end of the range only. -/
theorem eachStoredOnce_iff (store : GzDiagnosticStore) (update : GzDiagnosticUpdate)
    (happlied : ∀ stdSort, Applies stdSort store update) :
    (∀ stdSort, HoldsEachOnce
        (stored (step stdSort store (.replace update))
          (gzNormalizeDocumentPath update.documentPath) update.source)
        (rewritten (gzNormalizeDocumentPath update.documentPath) update.diagnostics)) ↔
      EndsUnambiguous (gzNormalizeDocumentPath update.documentPath) update.diagnostics := by
  rw [← noTiedRepeat_rewritten_iff, ← forall_nodup_iff gzDiagnosticLess_strictWeakOrder]
  refine forall_congr' fun stdSort ↦ ?_
  rw [stored_replace_applied stdSort store update (happlied stdSort)]
  exact holdsEachOnce_normalizeBatch_iff stdSort update.diagnostics _

/-! ### The same diagnostics in another order -/

/-- The call reads the store or drains the queue of changed documents. -/
def Quiet : StoreOp → Prop
  | .currentGeneration _ | .snapshot _ | .snapshotSource _ _ | .takeChangedDocuments => True
  | _ => False

/-- A replacement that is applied as a no-op: no document is marked changed, no snapshot differs. -/
structure AppliedAsNoop (stdSort : SortAlgorithm gzDiagnosticLess) (store : GzDiagnosticStore)
    (update : GzDiagnosticUpdate) : Prop where
  applied : Applies stdSort store update
  counted : (step stdSort store (.replace update)).stats.updatesNoop = store.stats.updatesNoop + 1
  changedOrder : (step stdSort store (.replace update)).changedOrder = store.changedOrder
  changedSet : (step stdSort store (.replace update)).changedSet = store.changedSet
  snapshots : ∀ path, (step stdSort store (.replace update)).snapshot path = store.snapshot path

theorem quiet_documents (stdSort : SortAlgorithm gzDiagnosticLess) (store : GzDiagnosticStore)
    {ops : List StoreOp} (hquiet : ∀ op ∈ ops, Quiet op) :
    (exec (step stdSort) store ops).documents = store.documents := by
  refine exec_relation (step stdSort) (fun _ op ↦ Quiet op)
    (fun before after ↦ after.documents = before.documents) (fun _ ↦ rfl)
    (fun _ _ _ hfirst hlast ↦ hlast.trans hfirst) (fun state op hop ↦ ?_) ?_
  · cases op <;> first | exact hop.elim | rfl
  · exact (along_iff_split _ _ _ _).mpr fun before op after heq ↦ hquiet op (by simp [heq])

theorem snapshot_congr {before after : GzDiagnosticStore}
    (h : ∀ key, after.documents.lookup key = before.documents.lookup key) (path : ByteString) :
    after.snapshot path = before.snapshot path := by
  simp only [GzDiagnosticStore.snapshot, h]

theorem updatesNoop_replace (stdSort : SortAlgorithm gzDiagnosticLess) (store : GzDiagnosticStore)
    (update : GzDiagnosticUpdate) (state : DocumentState)
    (hlookup : store.documents.lookup (gzNormalizeDocumentPath update.documentPath) = some state)
    (hgeneration : update.generation = state.generation) :
    (step stdSort store (.replace update)).stats.updatesNoop = store.stats.updatesNoop + 1 ↔
      DocumentState.stored state update.source = normalizeBatch stdSort update.diagnostics
        (gzNormalizeDocumentPath update.documentPath) := by
  have hirrefl : ¬ state.generation < state.generation := UInt64.lt_irrefl _
  simp only [step, call, Prod.map_snd, id, GzDiagnosticStore.replace, countNormalized, hlookup,
    hgeneration, hirrefl, if_false, DocumentState.stored]
  split_ifs with hsame
  · exact iff_of_true rfl hsame
  · refine iff_of_false (fun hcount ↦ ?_) hsame
    have hmarked : ∀ (marked : GzDiagnosticStore) (key : ByteString),
        (marked.markChangedLocked key).stats = marked.stats := fun marked key ↦ by
      unfold markChangedLocked
      split_ifs <;> rfl
    rw [hmarked] at hcount
    exact absurd hcount (by simp)

theorem replaceState_idem (batch : List GzDiagnostic) {first second : GzDiagnosticUpdate}
    (hsource : second.source = first.source) (state : DocumentState)
    (hfirst : first.generation = state.generation) :
    replaceState batch second (replaceState batch first state) =
      replaceState batch first state := by
  unfold replaceState
  simp [hfirst, hsource]

/-- A second batch is a no-op exactly if it is stored in the same form as the first one. -/
theorem appliedAsNoop_iff (stdSort : SortAlgorithm gzDiagnosticLess) (store : GzDiagnosticStore)
    {first second : GzDiagnosticUpdate} {between : List StoreOp}
    (hquiet : ∀ op ∈ between, Quiet op)
    (hdocument : gzNormalizeDocumentPath second.documentPath =
      gzNormalizeDocumentPath first.documentPath)
    (hsource : second.source = first.source) (hgeneration : second.generation = first.generation)
    (hcurrent : generationAt store (gzNormalizeDocumentPath first.documentPath) =
      some first.generation) :
    AppliedAsNoop stdSort
        (exec (step stdSort) (step stdSort store (.replace first)) between) second ↔
      normalizeBatch stdSort first.diagnostics (gzNormalizeDocumentPath first.documentPath) =
        normalizeBatch stdSort second.diagnostics
          (gzNormalizeDocumentPath first.documentPath) := by
  obtain ⟨state, hlookup, hstate⟩ := Option.map_eq_some_iff.mp hcurrent
  generalize hmiddle :
    exec (step stdSort) (step stdSort store (.replace first)) between = middle
  have hdocuments : middle.documents = (step stdSort store (.replace first)).documents := by
    rw [← hmiddle]
    exact quiet_documents stdSort _ hquiet
  have hheld : middle.documents.lookup (gzNormalizeDocumentPath first.documentPath) =
      some (replaceState (normalizeBatch stdSort first.diagnostics
        (gzNormalizeDocumentPath first.documentPath)) first state) := by
    rw [hdocuments, lookup_step, documentEffect, if_pos rfl, hlookup, Option.map_some]
  have hheldGeneration : second.generation = (replaceState (normalizeBatch stdSort
      first.diagnostics (gzNormalizeDocumentPath first.documentPath)) first state).generation := by
    rw [replaceState_generation, hgeneration, hstate]
  have hstored : DocumentState.stored (replaceState (normalizeBatch stdSort first.diagnostics
      (gzNormalizeDocumentPath first.documentPath)) first state) second.source =
        normalizeBatch stdSort first.diagnostics
          (gzNormalizeDocumentPath first.documentPath) := by
    rw [stored_replaceState, if_pos ⟨hstate.symm, hsource.symm⟩]
  have hcount := updatesNoop_replace stdSort middle second _ (hdocument ▸ hheld) hheldGeneration
  rw [hstored, hdocument] at hcount
  constructor
  · intro hnoop
    exact hcount.mp hnoop.counted
  · intro hsame
    obtain ⟨happlied, -, horder, hset⟩ :=
      replace_current stdSort middle second _ (hdocument ▸ hheld) hheldGeneration
    rw [hstored, hdocument, if_pos hsame] at horder hset
    refine ⟨?_, hcount.mpr hsame, horder, hset, snapshot_congr fun key ↦ ?_⟩
    · exact congrArg StoreResult.update happlied
    · rw [lookup_step, documentEffect, hdocument]
      split_ifs with hkey
      · rw [← hkey, hheld, Option.map_some, ← hsame,
          replaceState_idem _ hsource state hstate.symm]
      · rfl

/-- No two rewritten diagnostics of a batch differ in the end of their range only. -/
def EndsDetermined (key : ByteString) (diagnostics : List GzDiagnostic) : Prop :=
  ∀ first ∈ rewritten key diagnostics, ∀ second ∈ rewritten key diagnostics,
    ¬ DifferInEnd first second

theorem noTies_rewritten_iff (key : ByteString) (diagnostics : List GzDiagnostic) :
    NoTies gzDiagnosticLess (rewritten key diagnostics) ↔ EndsDetermined key diagnostics := by
  simp only [NoTies, EndsDetermined, differInEnd_iff, not_and', ne_eq, not_not]

/-- A producer submits two batches at the current generation of a document, one a permutation of
the other, with nothing but reads and drains in between. The second is applied as a no-op, whatever
`std::sort` returns, if and only if the rewritten batches are the same list or no two different
rewritten diagnostics agree in everything but the end of their range. -/
theorem resubmission_noop_iff (store : GzDiagnosticStore) (first second : GzDiagnosticUpdate)
    (between : List StoreOp) (hquiet : ∀ op ∈ between, Quiet op)
    (hdocument : gzNormalizeDocumentPath second.documentPath =
      gzNormalizeDocumentPath first.documentPath)
    (hsource : second.source = first.source) (hgeneration : second.generation = first.generation)
    (hcurrent : generationAt store (gzNormalizeDocumentPath first.documentPath) =
      some first.generation)
    (hperm : first.diagnostics.Perm second.diagnostics) :
    (∀ stdSort, AppliedAsNoop stdSort
        (exec (step stdSort) (step stdSort store (.replace first)) between) second) ↔
      rewritten (gzNormalizeDocumentPath first.documentPath) first.diagnostics =
          rewritten (gzNormalizeDocumentPath first.documentPath) second.diagnostics ∨
        EndsDetermined (gzNormalizeDocumentPath first.documentPath) first.diagnostics := by
  have hrewritten : (rewritten (gzNormalizeDocumentPath first.documentPath)
      first.diagnostics).Perm (rewritten (gzNormalizeDocumentPath first.documentPath)
        second.diagnostics) := hperm.map _
  rw [← noTies_rewritten_iff, ← forall_canonical_iff gzDiagnosticLess_strictWeakOrder hrewritten]
  refine forall_congr' fun stdSort ↦ ?_
  exact appliedAsNoop_iff stdSort store hquiet hdocument hsource hgeneration hcurrent

/-! ### Runs on fixed batches -/

/-- One error at the start of a document that ends after a number of columns. -/
def errorUpTo (column : UInt32) : GzDiagnostic where
  range := { stop := { column := column } }
  message := ascii "a"

/-- A batch for the first generation of `/game/a.zig`. -/
def batchUpdate (diagnostics : List GzDiagnostic) : GzDiagnosticUpdate where
  documentPath := ascii "/game/a.zig"
  generation := 1
  diagnostics := diagnostics

/-- The store that has registered the document `/game/a.zig`. -/
def registered : GzDiagnosticStore := (GzDiagnosticStore.openDocument {} (ascii "/game/a.zig")).2

theorem registered_generationAt (diagnostics : List GzDiagnostic) :
    generationAt registered (gzNormalizeDocumentPath (batchUpdate diagnostics).documentPath) =
      some (batchUpdate diagnostics).generation := by
  change generationAt registered (gzNormalizeDocumentPath (ascii "/game/a.zig")) = some 1
  decide +kernel

/-- Three copies of one diagnostic are stored once. -/
theorem eachStoredOnce_copies :
    HoldsEachOnce
      (stored (step referenceSort registered
          (.replace (batchUpdate [errorUpTo 1, errorUpTo 1, errorUpTo 1])))
        (gzNormalizeDocumentPath (ascii "/game/a.zig")) .gzScript)
      (rewritten (gzNormalizeDocumentPath (ascii "/game/a.zig"))
        [errorUpTo 1, errorUpTo 1, errorUpTo 1]) := by
  refine (eachStoredOnce_iff registered (batchUpdate [errorUpTo 1, errorUpTo 1, errorUpTo 1])
    fun stdSort ↦ (applies_iff _ _ _).mpr (registered_generationAt _)).mpr ?_ referenceSort
  intro first hfirst second hsecond hdiffer
  simp only [rewritten, batchUpdate, List.map_cons, List.map_nil, List.mem_cons,
    List.not_mem_nil, or_false, or_self] at hfirst hsecond
  exact absurd (hfirst.trans hsecond.symm) hdiffer.1

/-- A batch with a second error of another length between two copies of one error: a stable sort
stores the copies apart. -/
theorem copies_stored_apart :
    Applies referenceSort registered (batchUpdate [errorUpTo 1, errorUpTo 2, errorUpTo 1]) ∧
      ¬ HoldsEachOnce
        (stored (step referenceSort registered
            (.replace (batchUpdate [errorUpTo 1, errorUpTo 2, errorUpTo 1])))
          (gzNormalizeDocumentPath (ascii "/game/a.zig")) .gzScript)
        (rewritten (gzNormalizeDocumentPath (ascii "/game/a.zig"))
          [errorUpTo 1, errorUpTo 2, errorUpTo 1]) := by
  refine ⟨(applies_iff _ _ _).mpr (registered_generationAt _), fun honce ↦ ?_⟩
  refine absurd (honce (normalizeDiagnostic (ascii "/game/a.zig") (errorUpTo 1)) ?_) ?_
  · decide +kernel
  · decide +kernel

/-- Errors at two positions are resubmitted in the other order after a drain. -/
theorem resubmission_noop_positions :
    AppliedAsNoop referenceSort
      (exec (step referenceSort) (step referenceSort registered
          (.replace (batchUpdate [errorUpTo 0, { message := ascii "b" }])))
        [.takeChangedDocuments])
      (batchUpdate [{ message := ascii "b" }, errorUpTo 0]) := by
  refine (resubmission_noop_iff registered (batchUpdate [errorUpTo 0, { message := ascii "b" }])
    (batchUpdate [{ message := ascii "b" }, errorUpTo 0]) [.takeChangedDocuments] ?_ rfl rfl rfl
    (registered_generationAt _) (List.Perm.swap _ _ _)).mpr (Or.inr ?_) referenceSort
  · rintro op (_ | ⟨_, hop⟩)
    · trivial
    · exact absurd hop List.not_mem_nil
  · unfold EndsDetermined
    decide +kernel

/-- Two errors that differ in length are resubmitted in the other order: a stable sort keeps the
order of the batch, so the document is marked changed again. -/
theorem resubmission_marks_changed :
    [errorUpTo 1, errorUpTo 2].Perm [errorUpTo 2, errorUpTo 1] ∧
      ¬ AppliedAsNoop referenceSort
        (exec (step referenceSort) (step referenceSort registered
            (.replace (batchUpdate [errorUpTo 1, errorUpTo 2])))
          [.takeChangedDocuments])
        (batchUpdate [errorUpTo 2, errorUpTo 1]) := by
  refine ⟨List.Perm.swap _ _ _, fun hnoop ↦ ?_⟩
  exact absurd hnoop.changedOrder (by decide +kernel)

end Gzscript.Diagnostics.BatchOrder
