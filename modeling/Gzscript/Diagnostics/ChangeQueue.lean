import Gzscript.Diagnostics.Effect

/-!
# The change queue loses no change of a document that stays registered

`take_changed_documents` drains the keys of the documents whose diagnostics changed. The queue and
its deduplicating set hold the same keys, each once, in every store a run reaches
(`queueConsistent_exec`). `Announces` is what every call but the draining one and the removal of
the document does: a queued key stays queued, and either no source of the document changes or its
key is queued (`announces_step`). It composes along a run (`announces_exec`), so a document that is
not removed in between is drained exactly once if its snapshot differs from an earlier one taken
since the last drain (`changed_snapshot_taken_once`).

Removal is not announced. `remove_document` forgets the queue entry with the document, and a
document registered anew starts without diagnostics and without an entry:
`reregistration_unannounced` is a run in which a document is tracked at two consecutive drains, has
lost its diagnostics between them, and is missing from the second.
-/

set_option autoImplicit false
set_option relaxedAutoImplicit false

namespace Gzscript.Diagnostics.ChangeQueue

open Library.Bytes Library.Sorting Library.Transition Diagnostics.Path Diagnostic Store
  GzDiagnosticStore Effect

/-- The call removes the document under a key. -/
def Removes (op : StoreOp) (key : ByteString) : Prop :=
  ∃ path, op = .removeDocument path ∧ gzNormalizeDocumentPath path = key

/-! ### The queue and its set -/

/-- The queue has no duplicates and the same keys as the set. -/
def QueueConsistent (store : GzDiagnosticStore) : Prop :=
  store.changedOrder.Nodup ∧ ∀ key, key ∈ store.changedOrder ↔ key ∈ store.changedSet

theorem queueConsistent_congr {before after : GzDiagnosticStore}
    (horder : after.changedOrder = before.changedOrder)
    (hset : after.changedSet = before.changedSet) (h : QueueConsistent before) :
    QueueConsistent after := by
  unfold QueueConsistent
  rw [horder, hset]
  exact h

theorem queueConsistent_markChangedLocked {store : GzDiagnosticStore} (h : QueueConsistent store)
    (key : ByteString) : QueueConsistent (store.markChangedLocked key) := by
  unfold markChangedLocked
  split_ifs with hmem
  · exact h
  · have hnot : key ∉ store.changedOrder := fun hin ↦ hmem ((h.2 key).mp hin)
    refine ⟨List.nodup_append.mpr ⟨h.1, List.nodup_singleton key, ?_⟩, fun other ↦ ?_⟩
    · intro first hfirst second hsecond heq
      rw [List.mem_singleton] at hsecond
      exact hnot (hsecond ▸ heq ▸ hfirst)
    · simp [h.2 other, or_comm]

theorem queueConsistent_clearStored (source : GzDiagnosticSource) {store : GzDiagnosticStore}
    (h : QueueConsistent store) (key : ByteString) :
    QueueConsistent (clearStored source store key) := by
  unfold clearStored
  split
  · exact h
  · split
    · exact h
    · exact h
    · refine queueConsistent_markChangedLocked ?_ key
      exact queueConsistent_congr rfl rfl h

variable (stdSort : SortAlgorithm gzDiagnosticLess)

theorem queueConsistent_replace {store : GzDiagnosticStore} (h : QueueConsistent store)
    (update : GzDiagnosticUpdate) : QueueConsistent (store.replace stdSort update).2 := by
  cases hlookup : store.documents.lookup (gzNormalizeDocumentPath update.documentPath) with
  | none =>
    obtain ⟨-, -, horder, hset⟩ := replace_unknown stdSort store update hlookup
    exact queueConsistent_congr horder hset h
  | some state =>
    by_cases hgeneration : update.generation = state.generation
    · obtain ⟨-, -, horder, hset⟩ := replace_current stdSort store update state hlookup hgeneration
      split_ifs at horder hset with hsame
      · exact queueConsistent_congr horder hset h
      · exact queueConsistent_congr horder hset (queueConsistent_markChangedLocked h _)
    · obtain ⟨-, -, horder, hset⟩ := replace_outdated stdSort store update state hlookup hgeneration
      exact queueConsistent_congr horder hset h

/-- Every call keeps the queue and its set consistent. -/
theorem queueConsistent_step (store : GzDiagnosticStore) (op : StoreOp)
    (h : QueueConsistent store) : QueueConsistent (step stdSort store op) := by
  cases op with
  | openDocument path => exact queueConsistent_congr rfl rfl h
  | advanceGeneration path =>
    simp only [step, call, advanceGeneration]
    split <;> exact queueConsistent_congr rfl rfl h
  | closeDocument path =>
    simp only [step, call, closeDocument]
    split <;> exact queueConsistent_congr rfl rfl h
  | replace update => exact queueConsistent_replace stdSort h update
  | clearSource path source => exact queueConsistent_clearStored source h _
  | clearDocument path =>
    simp only [step, call, GzDiagnosticStore.clearDocument]
    split
    · exact h
    · split_ifs
      · refine queueConsistent_markChangedLocked ?_ _
        exact queueConsistent_congr rfl rfl h
      · exact queueConsistent_congr rfl rfl h
  | clearAllFromSource source order =>
    exact exec_invariant (clearStored source) QueueConsistent
      (fun state key hstate ↦ queueConsistent_clearStored source hstate key) h
      (store.visited order)
  | removeDocument path =>
    refine ⟨h.1.filter _, fun key ↦ ?_⟩
    simp [step, call, GzDiagnosticStore.removeDocument, h.2 key, and_comm]
  | takeChangedDocuments =>
    exact ⟨List.nodup_nil, fun key ↦ by simp [step, call, takeChangedDocuments]⟩
  | currentGeneration path => exact h
  | snapshot path => exact h
  | snapshotSource path source => exact h

/-- The queue and its set are consistent in every store a run from the empty one reaches. -/
theorem queueConsistent_exec (ops : List StoreOp) :
    QueueConsistent (exec (step stdSort) {} ops) :=
  exec_invariant (step stdSort) QueueConsistent (queueConsistent_step stdSort)
    ⟨List.nodup_nil, fun key ↦ by simp⟩ ops

/-! ### Changes are announced -/

/-- A queued key stays queued, and a key some source of which changes is queued. -/
def Announces (key : ByteString) (before after : GzDiagnosticStore) : Prop :=
  (key ∈ before.changedSet → key ∈ after.changedSet) ∧
    ((∀ source, stored after key source = stored before key source) ∨ key ∈ after.changedSet)

theorem Announces.refl (key : ByteString) (store : GzDiagnosticStore) :
    Announces key store store :=
  ⟨id, Or.inl fun _ ↦ rfl⟩

theorem Announces.trans (key : ByteString) (first middle last : GzDiagnosticStore)
    (hfirst : Announces key first middle) (hlast : Announces key middle last) :
    Announces key first last := by
  refine ⟨hlast.1 ∘ hfirst.1, ?_⟩
  rcases hlast.2 with hsame | hmem
  · rcases hfirst.2 with hsame' | hmem'
    · exact Or.inl fun source ↦ (hsame source).trans (hsame' source)
    · exact Or.inr (hlast.1 hmem')
  · exact Or.inr hmem

theorem announces_of_lookup {key : ByteString} {before after : GzDiagnosticStore}
    (hset : after.changedSet = before.changedSet)
    (hstored : ∀ source, stored after key source = stored before key source) :
    Announces key before after :=
  ⟨fun h ↦ hset ▸ h, Or.inl hstored⟩

theorem announces_clearStored (source : GzDiagnosticSource) (store : GzDiagnosticStore)
    (key other : ByteString) : Announces key store (clearStored source store other) := by
  by_cases hkey : other = key
  · subst hkey
    unfold clearStored
    split
    · exact Announces.refl other store
    · split
      · exact Announces.refl other store
      · exact Announces.refl other store
      · exact ⟨fun _ ↦ (mem_markChangedLocked _ _ _).mpr (Or.inl rfl),
          Or.inr ((mem_markChangedLocked _ _ _).mpr (Or.inl rfl))⟩
  · refine ⟨fun hmem ↦ ?_, Or.inl fun source' ↦ by
      rw [stored, lookup_clearStored, if_neg hkey, stored]⟩
    unfold clearStored
    split
    · exact hmem
    · split
      · exact hmem
      · exact hmem
      · exact (mem_markChangedLocked _ _ _).mpr (Or.inr hmem)

theorem announces_replace (store : GzDiagnosticStore) (update : GzDiagnosticUpdate)
    (key : ByteString) : Announces key store (store.replace stdSort update).2 := by
  cases hlookup : store.documents.lookup (gzNormalizeDocumentPath update.documentPath) with
  | none =>
    obtain ⟨-, hdocuments, -, hset⟩ := replace_unknown stdSort store update hlookup
    exact announces_of_lookup hset fun source ↦ by rw [stored, hdocuments, stored]
  | some state =>
    by_cases hgeneration : update.generation = state.generation
    · obtain ⟨-, hdocuments, -, hset⟩ :=
        replace_current stdSort store update state hlookup hgeneration
      split_ifs at hset with hsame
      · refine announces_of_lookup hset fun source ↦ ?_
        rw [stored, hdocuments, stored, lookup_insert]
        split_ifs with hkey
        · rw [← hkey, hlookup]
          by_cases hsource : source = update.source
          · subst hsource
            simp [DocumentState.stored, ← hsame]
          · simp [DocumentState.stored, Function.update_of_ne hsource]
        · rfl
      · refine ⟨fun hmem ↦ hset ▸ (mem_markChangedLocked _ _ _).mpr (Or.inr hmem), ?_⟩
        by_cases hkey : gzNormalizeDocumentPath update.documentPath = key
        · exact Or.inr (hset ▸ (mem_markChangedLocked _ _ _).mpr (Or.inl hkey.symm))
        · refine Or.inl fun source ↦ ?_
          rw [stored, hdocuments, stored, lookup_insert, if_neg hkey]
    · obtain ⟨-, hdocuments, -, hset⟩ :=
        replace_outdated stdSort store update state hlookup hgeneration
      exact announces_of_lookup hset fun source ↦ by rw [stored, hdocuments, stored]

theorem announces_clearDocument (store : GzDiagnosticStore) (path key : ByteString) :
    Announces key store (store.clearDocument path) := by
  simp only [GzDiagnosticStore.clearDocument]
  cases hlookup : store.documents.lookup (gzNormalizeDocumentPath path) with
  | none => exact Announces.refl key store
  | some state =>
    by_cases hany : (GzDiagnosticSource.all.any fun source ↦
        (state.bySource source).getD [] ≠ []) = true
    · simp only [hany, if_true]
      refine ⟨fun hmem ↦ (mem_markChangedLocked _ _ _).mpr (Or.inr hmem), ?_⟩
      by_cases hkey : gzNormalizeDocumentPath path = key
      · exact Or.inr ((mem_markChangedLocked _ _ _).mpr (Or.inl hkey.symm))
      · exact Or.inl fun source ↦ by simp [stored, lookup_insert, hkey]
    · rw [Bool.not_eq_true] at hany
      simp only [hany, Bool.false_eq_true, if_false]
      refine announces_of_lookup rfl fun source ↦ ?_
      have hempty : (state.bySource source).getD [] = [] := by
        have hall := List.any_eq_false.mp hany source source.mem_all
        simpa using hall
      by_cases hkey : gzNormalizeDocumentPath path = key
      · subst hkey
        rw [stored_tracked hlookup, stored, lookup_insert, if_pos rfl, Option.map_some,
          Option.getD_some, DocumentState.stored, DocumentState.stored, hempty]
        cases hentry : state.bySource source <;> simp [hentry, clearEntry]
      · simp [stored, lookup_insert, hkey]

/-- Every call but draining the queue and removing the document announces its changes. -/
theorem announces_step (store : GzDiagnosticStore) (op : StoreOp) (key : ByteString)
    (htake : op ≠ .takeChangedDocuments) (hremoves : ¬ Removes op key) :
    Announces key store (step stdSort store op) := by
  cases op with
  | openDocument path =>
    refine announces_of_lookup rfl fun source ↦ ?_
    rw [stored, lookup_step, stored, documentEffect]
    split_ifs
    · rw [Option.map_some, Option.getD_some, stored_openState]
    · rfl
  | advanceGeneration path =>
    refine announces_of_lookup ?_ fun source ↦ ?_
    · simp only [step, call, advanceGeneration]
      split <;> rfl
    · rw [stored, lookup_step, stored, documentEffect]
      split_ifs <;> cases store.documents.lookup key <;> rfl
  | closeDocument path =>
    refine announces_of_lookup ?_ fun source ↦ ?_
    · simp only [step, call, closeDocument]
      split <;> rfl
    · rw [stored, lookup_step, stored, documentEffect]
      split_ifs <;> cases store.documents.lookup key <;> rfl
  | replace update => exact announces_replace stdSort store update key
  | clearSource path source => exact announces_clearStored source store key _
  | clearDocument path => exact announces_clearDocument store path key
  | clearAllFromSource source order =>
    refine exec_relation (clearStored source) (fun _ _ ↦ True) (Announces key)
      (Announces.refl key) (Announces.trans key)
      (fun state other _ ↦ announces_clearStored source state key other) ?_
    exact (along_iff_split _ _ _ _).mpr fun _ _ _ _ ↦ trivial
  | removeDocument path =>
    have hkey : gzNormalizeDocumentPath path ≠ key := fun h ↦ hremoves ⟨path, rfl, h⟩
    refine ⟨fun hmem ↦ Finset.mem_erase.mpr ⟨hkey.symm, hmem⟩, Or.inl fun source ↦ ?_⟩
    rw [stored, lookup_step, stored, documentEffect, if_neg hkey]
  | takeChangedDocuments => exact absurd rfl htake
  | currentGeneration path => exact Announces.refl key store
  | snapshot path => exact Announces.refl key store
  | snapshotSource path source => exact Announces.refl key store

/-- A run without a drain and without a removal of the document announces its changes. -/
theorem announces_exec (store : GzDiagnosticStore) (ops : List StoreOp) (key : ByteString)
    (hquiet : ∀ op ∈ ops, op ≠ .takeChangedDocuments ∧ ¬ Removes op key) :
    Announces key store (exec (step stdSort) store ops) := by
  refine exec_relation (step stdSort)
    (fun _ op ↦ op ≠ .takeChangedDocuments ∧ ¬ Removes op key) (Announces key)
    (Announces.refl key) (Announces.trans key)
    (fun state op hop ↦ announces_step stdSort state op key hop.1 hop.2) ?_
  exact (along_iff_split _ _ _ _).mpr fun before op after heq ↦ hquiet op (by simp [heq])

theorem snapshot_diagnostics (store : GzDiagnosticStore) (path : ByteString) :
    (store.snapshot path).diagnostics = stableSort gzDiagnosticLess
      (GzDiagnosticSource.all.flatMap (stored store (gzNormalizeDocumentPath path))) := by
  simp only [GzDiagnosticStore.snapshot]
  cases hlookup : store.documents.lookup (gzNormalizeDocumentPath path) with
  | none =>
    rw [stored_untracked hlookup]
    rfl
  | some state =>
    rw [stored_tracked hlookup]
    rfl

/-! ### Consecutive drains -/

/-- In every run, between two consecutive drains: if the snapshot a document has at some moment
after the first differs from the one it has at the second, and the document is not removed from
that moment on, the second drain returns its key exactly once. The first drain itself is such a
moment, and so is the last registration of a document that was removed. -/
theorem changed_snapshot_taken_once (before early late : List StoreOp) (path : ByteString)
    (hdrains : ∀ op ∈ early ++ late, op ≠ .takeChangedDocuments)
    (hkept : ∀ op ∈ late, ¬ Removes op (gzNormalizeDocumentPath path))
    (hdiffer :
      ((exec (step stdSort) {} (before ++ .takeChangedDocuments :: early)).snapshot
          path).diagnostics ≠
        ((exec (step stdSort) {}
          (before ++ .takeChangedDocuments :: (early ++ late))).snapshot path).diagnostics) :
    (exec (step stdSort) {}
        (before ++ .takeChangedDocuments :: (early ++ late))).takeChangedDocuments.1.count
      (gzNormalizeDocumentPath path) = 1 := by
  have hsplit : before ++ StoreOp.takeChangedDocuments :: (early ++ late) =
      (before ++ .takeChangedDocuments :: early) ++ late := by simp
  have hconsistent := queueConsistent_exec stdSort
    (before ++ .takeChangedDocuments :: (early ++ late))
  rw [hsplit, exec_append _ _ _ late] at hdiffer hconsistent ⊢
  have hannounced := announces_exec stdSort
    (exec (step stdSort) {} (before ++ .takeChangedDocuments :: early)) late
    (gzNormalizeDocumentPath path)
    fun op hop ↦ ⟨hdrains op (List.mem_append_right early hop), hkept op hop⟩
  have hqueued : gzNormalizeDocumentPath path ∈ (exec (step stdSort) (exec (step stdSort) {}
      (before ++ .takeChangedDocuments :: early)) late).changedSet := by
    rcases hannounced.2 with hsame | hmem
    · refine absurd ?_ hdiffer
      rw [snapshot_diagnostics, snapshot_diagnostics]
      congr 2
      exact funext fun source ↦ (hsame source).symm
    · exact hmem
  exact List.count_eq_one_of_mem hconsistent.1 ((hconsistent.2 _).mpr hqueued)

/-! ### A run with a removal between two drains -/

/-- The document is published between the two drains and is not removed: the second returns it. -/
theorem changed_snapshot_taken_once_replaced :
    (exec (step referenceSort) {} [.openDocument (ascii "/game/a.zig"), .takeChangedDocuments,
        .replace sampleUpdate]).takeChangedDocuments.1.count (ascii "/game/a.zig") = 1 := by
  have h := changed_snapshot_taken_once referenceSort [.openDocument (ascii "/game/a.zig")] []
    [.replace sampleUpdate] (ascii "/game/a.zig") (by simp)
    (by simp [Removes]) (by decide +kernel)
  have hkey : gzNormalizeDocumentPath (ascii "/game/a.zig") = ascii "/game/a.zig" := by
    decide +kernel
  rw [hkey] at h
  exact h

/-- A document with diagnostics is drained, removed and registered again: it is tracked at both
drains, its snapshots differ, and the second drain does not return it. -/
theorem reregistration_unannounced :
    let path := ascii "/game/a.zig"
    let first := exec (step referenceSort) {}
      [.openDocument path, .replace sampleUpdate, .takeChangedDocuments]
    let second := exec (step referenceSort) first [.removeDocument path, .openDocument path]
    first.Tracked path ∧ second.Tracked path ∧
      (first.snapshot path).diagnostics ≠ (second.snapshot path).diagnostics ∧
      second.takeChangedDocuments.1.count path = 0 := by
  decide +kernel

end Gzscript.Diagnostics.ChangeQueue
