import Gzscript.Diagnostics.Effect

/-!
# Snapshots merge the sources of a document

A snapshot has the diagnostics of every source of a document, merged by a stable sort. `SortedMerge`
says what that leaves: nothing is lost or added, the list is sorted by the display order, and where
this order does not tell two diagnostics of different sources apart, they stand in the order of the
sources. Which source a diagnostic was stored under need not be the kind of its origin, so the
order of the sources is stated for a list that carries them along.

The order itself is a strict weak order (`gzDiagnosticLess_strictWeakOrder`).
`snapshot_sortedMerge` has both, for the snapshots that a store has at any point of a run.
-/

set_option autoImplicit false
set_option relaxedAutoImplicit false

namespace Gzscript.Diagnostics.SnapshotMerge

open Library.Bytes Library.Sorting Library.Transition Diagnostics.Path Diagnostic Store
  GzDiagnosticStore Effect

/-- What a source has stored for the document of a path. -/
def storedUnder (store : GzDiagnosticStore) (path : ByteString) (source : GzDiagnosticSource) :
    List GzDiagnostic :=
  stored store (gzNormalizeDocumentPath path) source

/-- The lists of the sources one after the other, each diagnostic with its source. -/
def tagged (lists : GzDiagnosticSource → List GzDiagnostic) :
    List (GzDiagnosticSource × GzDiagnostic) :=
  GzDiagnosticSource.all.flatMap fun source ↦ (lists source).map (source, ·)

/-- A sorted list of the diagnostics of all sources, equivalent ones in the order of the sources. -/
structure SortedMerge (lists : GzDiagnosticSource → List GzDiagnostic)
    (merged : List GzDiagnostic) : Prop where
  perm : merged.Perm (GzDiagnosticSource.all.flatMap lists)
  sorted : SortedBy gzDiagnosticLess merged
  bySource : ∃ entries : List (GzDiagnosticSource × GzDiagnostic),
    entries.map Prod.snd = merged ∧ entries.Perm (tagged lists) ∧
      entries.Pairwise fun first second ↦
        Equivalent gzDiagnosticLess first.2 second.2 → first.1.ordinal ≤ second.1.ordinal

theorem map_tagged (lists : GzDiagnosticSource → List GzDiagnostic) :
    (tagged lists).map Prod.snd = GzDiagnosticSource.all.flatMap lists := by
  simp [tagged, List.map_flatMap]

/-- Before the sort the sources follow one another. -/
theorem tagged_ordered (lists : GzDiagnosticSource → List GzDiagnostic) :
    (tagged lists).Pairwise fun first second ↦ first.1.ordinal ≤ second.1.ordinal := by
  have hsource : ∀ source, ∀ entry ∈ (lists source).map (source, ·), entry.1 = source := by
    intro source entry hentry
    obtain ⟨diagnostic, -, rfl⟩ := List.mem_map.mp hentry
    rfl
  refine List.pairwise_flatMap.mpr ⟨fun source _ ↦ ?_, ?_⟩
  · refine List.pairwise_of_forall_mem_list fun first hfirst second hsecond ↦ ?_
    rw [hsource source first hfirst, hsource source second hsecond]
  · have hall : GzDiagnosticSource.all.Pairwise fun first second ↦
        first.ordinal ≤ second.ordinal := by decide
    refine hall.imp fun {first second} hle entry hentry other hother ↦ ?_
    rw [hsource first entry hentry, hsource second other hother]
    exact hle

theorem sortedMerge_stableSort (lists : GzDiagnosticSource → List GzDiagnostic) :
    SortedMerge lists
      (stableSort gzDiagnosticLess (GzDiagnosticSource.all.flatMap lists)) where
  perm := stableSort_perm _ _
  sorted := stableSort_sorted gzDiagnosticLess_strictWeakOrder _
  bySource := by
    refine ⟨stableSort (fun first second ↦ gzDiagnosticLess first.2 second.2) (tagged lists),
      ?_, stableSort_perm _ _, ?_⟩
    · rw [map_stableSort gzDiagnosticLess Prod.snd, map_tagged]
    · exact stableSort_keeps (tagged_ordered lists)

theorem snapshot_diagnostics (store : GzDiagnosticStore) (path : ByteString) :
    (store.snapshot path).diagnostics = stableSort gzDiagnosticLess
      (GzDiagnosticSource.all.flatMap (storedUnder store path)) := by
  unfold GzDiagnosticStore.snapshot storedUnder stored
  dsimp only
  cases store.documents.lookup (gzNormalizeDocumentPath path) with
  | none => rfl
  | some state => rfl

/-- The display order is a strict weak order, and every snapshot of a run is a sorted merge of what
the sources have stored. -/
theorem snapshot_sortedMerge (stdSort : SortAlgorithm gzDiagnosticLess) :
    ((∀ diagnostic, gzDiagnosticLess diagnostic diagnostic = false) ∧
      (∀ first second third, gzDiagnosticLess first second = true →
        gzDiagnosticLess second third = true → gzDiagnosticLess first third = true) ∧
      ∀ first second third, Equivalent gzDiagnosticLess first second →
        Equivalent gzDiagnosticLess second third → Equivalent gzDiagnosticLess first third) ∧
    ∀ (ops : List StoreOp) (path : ByteString),
      SortedMerge (storedUnder (exec (step stdSort) {} ops) path)
        ((exec (step stdSort) {} ops).snapshot path).diagnostics := by
  have hless := gzDiagnosticLess_strictWeakOrder
  refine ⟨⟨hless.irrefl, fun _ _ _ ↦ hless.trans, fun _ _ _ ↦ .trans hless⟩, ?_⟩
  intro ops path
  rw [snapshot_diagnostics]
  exact sortedMerge_stableSort _

end Gzscript.Diagnostics.SnapshotMerge
