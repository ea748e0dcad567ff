import Gzscript.Diagnostics.ChangeQueue
import Gzscript.Diagnostics.Generations
import Mathlib.Data.Nat.Bitwise

/-!
# The representation invariant of the diagnostic store

`RepresentationInvariant` ties the four containers of the store together: the queue of changed
documents is a duplicate-free listing of its set, every queued key is tracked, every tracked key is
a normalised path with a generation of at least 1, and every stored list is sorted and holds only
rewritten diagnostics of its own document. `representation_step` is the step lemma, from the effect
of a call on one document and from what a call adds to the queue; `representation_exec` holds along
every run in which no generation counter wraps.

The rewriting compares positions as packed 64-bit numbers. `rangeReversed_iff` says that this is the
order by line and column.
-/

set_option autoImplicit false
set_option relaxedAutoImplicit false

namespace Gzscript.Diagnostics.Representation

open Library.Bytes Library.Sorting Library.Transition Diagnostics.Path Diagnostic Store
  GzDiagnosticStore Effect ChangeQueue Generations

/-! ### Packed positions -/

theorem packPosition_toNat (position : GzSourcePosition) :
    (packPosition position).toNat = position.line.toNat * 2 ^ 32 + position.column.toNat := by
  have hline : position.line.toNat * 2 ^ 32 < 2 ^ 64 := by
    have := position.line.toNat_lt
    omega
  have hcolumn : position.column.toNat < 2 ^ 32 := position.column.toNat_lt
  rw [packPosition, UInt64.toNat_or, UInt64.toNat_shiftLeft, UInt32.toNat_toUInt64,
    UInt32.toNat_toUInt64]
  have hshift : position.line.toNat <<< ((32 : UInt64).toNat % 64) =
      position.line.toNat <<< 32 := rfl
  rw [hshift, Nat.shiftLeft_eq, Nat.mod_eq_of_lt hline, ← Nat.shiftLeft_eq,
    ← Nat.shiftLeft_add_eq_or_of_lt hcolumn]

/-- The packed comparison is the order of positions by line and column. -/
theorem rangeReversed_iff (range : GzSourceRange) :
    rangeReversed range = positionLess range.stop range.start := by
  rw [Bool.eq_iff_iff, positionLess_iff, rangeReversed, decide_eq_true_eq, UInt64.lt_iff_toNat_lt,
    packPosition_toNat, packPosition_toNat]
  have hstart : range.start.column.toNat < 2 ^ 32 := range.start.column.toNat_lt
  have hstop : range.stop.column.toNat < 2 ^ 32 := range.stop.column.toNat_lt
  omega

theorem positionLess_irrefl (position : GzSourcePosition) :
    positionLess position position = false := by
  simp [positionLess]

theorem normalizeRange_ordered (range : GzSourceRange) :
    positionLess (normalizeRange range).stop (normalizeRange range).start = false := by
  unfold normalizeRange
  split_ifs with hreversed
  · exact positionLess_irrefl range.start
  · rw [← rangeReversed_iff]
    exact Bool.not_eq_true _ ▸ hreversed

/-! ### The invariant -/

/-- A diagnostic as the document under a key stores it. -/
structure StoredForm (key : ByteString) (diagnostic : GzDiagnostic) : Prop where
  document : diagnostic.documentPath = key
  ordered : positionLess diagnostic.range.stop diagnostic.range.start = false
  named : diagnostic.origin.name ≠ []

/-- A list of diagnostics as the document under a key stores it. -/
structure StoredList (key : ByteString) (diagnostics : List GzDiagnostic) : Prop where
  forms : ∀ diagnostic ∈ diagnostics, StoredForm key diagnostic
  sorted : SortedBy gzDiagnosticLess diagnostics

/-- A document as the store tracks it under a key. -/
structure TrackedForm (key : ByteString) (state : DocumentState) : Prop where
  normalized : ∃ path, gzNormalizeDocumentPath path = key
  generation : 1 ≤ state.generation
  lists : ∀ source diagnostics, state.bySource source = some diagnostics →
    StoredList key diagnostics

/-- The representation invariant of the store. -/
structure RepresentationInvariant (store : GzDiagnosticStore) : Prop where
  orderNodup : store.changedOrder.Nodup
  orderSet : ∀ key, key ∈ store.changedOrder ↔ key ∈ store.changedSet
  changedTracked : ∀ key ∈ store.changedSet, store.Tracked key
  tracked : ∀ key state, store.documents.lookup key = some state → TrackedForm key state

/-! ### A batch is stored in that form -/

theorem storedList_nil (key : ByteString) : StoredList key [] where
  forms := fun _ hmem ↦ absurd hmem List.not_mem_nil
  sorted := List.Pairwise.nil

theorem gzDiagnosticSourceName_ne_nil (source : GzDiagnosticSource) :
    gzDiagnosticSourceName source ≠ [] := by
  cases source <;> decide

theorem storedForm_normalizeDiagnostic (key : ByteString) (diagnostic : GzDiagnostic) :
    StoredForm key (normalizeDiagnostic key diagnostic) where
  document := rfl
  ordered := normalizeRange_ordered diagnostic.range
  named := by
    simp only [normalizeDiagnostic]
    split_ifs with hempty
    · exact gzDiagnosticSourceName_ne_nil _
    · exact hempty

variable (stdSort : SortAlgorithm gzDiagnosticLess)

theorem normalizeBatch_sublist (diagnostics : List GzDiagnostic) (key : ByteString) :
    (normalizeBatch stdSort diagnostics key).Sublist
      (stdSort.sort (diagnostics.map (normalizeDiagnostic key))) :=
  List.destutter_sublist _ _

/-- A batch holds rewritten diagnostics only. -/
theorem mem_normalizeBatch {diagnostics : List GzDiagnostic} {key : ByteString}
    {diagnostic : GzDiagnostic} (hmem : diagnostic ∈ normalizeBatch stdSort diagnostics key) :
    ∃ original ∈ diagnostics, normalizeDiagnostic key original = diagnostic :=
  List.mem_map.mp ((stdSort.perm _).subset
    ((normalizeBatch_sublist stdSort diagnostics key).subset hmem))

/-- Merging equal neighbours keeps some of the sorted batch, so the batch stays sorted. -/
theorem storedList_normalizeBatch (diagnostics : List GzDiagnostic) (key : ByteString) :
    StoredList key (normalizeBatch stdSort diagnostics key) where
  forms := fun diagnostic hmem ↦ by
    obtain ⟨original, -, rfl⟩ := mem_normalizeBatch stdSort hmem
    exact storedForm_normalizeDiagnostic key original
  sorted := (stdSort.sorted _).sublist (normalizeBatch_sublist stdSort diagnostics key)

/-! ### One document -/

theorem lists_update {key : ByteString} {state : DocumentState} (h : TrackedForm key state)
    (source : GzDiagnosticSource) {contents : List GzDiagnostic}
    (hcontents : StoredList key contents) :
    TrackedForm key
      { state with bySource := Function.update state.bySource source (some contents) } where
  normalized := h.normalized
  generation := h.generation
  lists := fun other diagnostics hlookup ↦ by
    by_cases hsource : other = source
    · subst hsource
      have hsame : contents = diagnostics := by simpa using hlookup
      exact hsame ▸ hcontents
    · simp only [Function.update_of_ne hsource] at hlookup
      exact h.lists other diagnostics hlookup

theorem trackedForm_openState {key : ByteString} (hnormalized : ∃ path,
    gzNormalizeDocumentPath path = key) {document : Option DocumentState}
    (h : ∀ state, document = some state → TrackedForm key state) :
    TrackedForm key (openState document) := by
  cases document with
  | none => exact ⟨hnormalized, UInt64.le_refl 1, fun _ _ hlookup ↦ nomatch hlookup⟩
  | some state =>
    have hgeneration : state.generation ≠ 0 := fun hzero ↦ by
      have hle := (h state rfl).generation
      rw [hzero] at hle
      exact absurd hle (by decide)
    rw [openState, if_neg hgeneration]
    exact h state rfl

theorem trackedForm_replaceState {key : ByteString} {state : DocumentState}
    (h : TrackedForm key state) {batch : List GzDiagnostic} (hbatch : StoredList key batch)
    (update : GzDiagnosticUpdate) : TrackedForm key (replaceState batch update state) := by
  unfold replaceState
  split_ifs
  · exact lists_update h update.source hbatch
  · exact h

theorem trackedForm_clearSourceState {key : ByteString} {state : DocumentState}
    (h : TrackedForm key state) (source : GzDiagnosticSource) :
    TrackedForm key (clearSourceState source state) := by
  unfold clearSourceState
  split_ifs
  · exact h
  · exact lists_update h source (storedList_nil key)

theorem trackedForm_clearState {key : ByteString} {state : DocumentState}
    (h : TrackedForm key state) : TrackedForm key (clearState state) where
  normalized := h.normalized
  generation := h.generation
  lists := fun source diagnostics hlookup ↦ by
    rw [clearState] at hlookup
    cases hentry : state.bySource source with
    | none => simp [hentry, clearEntry] at hlookup
    | some contents =>
      simp only [hentry, clearEntry, Option.some.injEq] at hlookup
      exact hlookup ▸ storedList_nil key

/-- A generation that does not wrap stays at least 1. -/
theorem trackedForm_advance {key : ByteString} {state : DocumentState}
    (h : TrackedForm key state) (hwraps : state.generation ≠ .ofNat (2 ^ 64 - 1)) :
    TrackedForm key { state with generation := state.generation + 1 } where
  normalized := h.normalized
  generation := by
    rw [UInt64.le_iff_toNat_le, toNat_succ hwraps]
    simp
  lists := h.lists

/-- A call that changes the document it is about keeps the form if the change does. -/
theorem trackedForm_effect {document : Option DocumentState} {key : ByteString}
    (h : ∀ state, document = some state → TrackedForm key state) {concerned : Prop}
    [Decidable concerned] {effect : DocumentState → DocumentState}
    (heffect : concerned → ∀ state, document = some state → TrackedForm key (effect state))
    {after : DocumentState}
    (hafter : (if concerned then document.map effect else document) = some after) :
    TrackedForm key after := by
  by_cases hconcerned : concerned
  · rw [if_pos hconcerned] at hafter
    obtain ⟨state, hlookup, rfl⟩ := Option.map_eq_some_iff.mp hafter
    exact heffect hconcerned state hlookup
  · rw [if_neg hconcerned] at hafter
    exact h after hafter

/-- Every call keeps each document in its form unless it wraps the generation of the document. -/
theorem trackedForm_step {store : GzDiagnosticStore} {key : ByteString}
    (h : ∀ state, store.documents.lookup key = some state → TrackedForm key state) (op : StoreOp)
    (hwraps : ¬ Wraps store op key) (after : DocumentState)
    (hafter : (step stdSort store op).documents.lookup key = some after) :
    TrackedForm key after := by
  rw [lookup_step] at hafter
  cases op with
  | openDocument path =>
    simp only [documentEffect] at hafter
    split_ifs at hafter with hkey
    · rw [← Option.some.inj hafter]
      exact trackedForm_openState ⟨path, hkey⟩ h
    · exact h after hafter
  | advanceGeneration path =>
    refine trackedForm_effect h (fun hkey state hlookup ↦ ?_) hafter
    refine trackedForm_advance (h state hlookup) fun hmax ↦ hwraps ⟨⟨⟨path, rfl, hkey⟩, ?_⟩, ?_⟩
    · rw [Tracked, hlookup]
      rfl
    · rw [generationAt, hlookup, Option.map_some, hmax]
  | closeDocument path =>
    refine trackedForm_effect h (fun _ state hlookup ↦ ?_) hafter
    exact ⟨(h state hlookup).normalized, (h state hlookup).generation, (h state hlookup).lists⟩
  | replace update =>
    refine trackedForm_effect h (fun _ state hlookup ↦ ?_) hafter
    exact trackedForm_replaceState (h state hlookup)
      (storedList_normalizeBatch stdSort update.diagnostics key) update
  | clearSource path source =>
    refine trackedForm_effect h (fun _ state hlookup ↦ ?_) hafter
    exact trackedForm_clearSourceState (h state hlookup) source
  | clearDocument path =>
    refine trackedForm_effect h (fun _ state hlookup ↦ ?_) hafter
    exact trackedForm_clearState (h state hlookup)
  | clearAllFromSource source order =>
    obtain ⟨state, hlookup, rfl⟩ := Option.map_eq_some_iff.mp hafter
    exact trackedForm_clearSourceState (h state hlookup) source
  | removeDocument path =>
    simp only [documentEffect] at hafter
    split_ifs at hafter
    exact h after hafter
  | currentGeneration path => exact h after hafter
  | snapshot path => exact h after hafter
  | snapshotSource path source => exact h after hafter
  | takeChangedDocuments => exact h after hafter

/-! ### Queued keys are tracked -/

/-- Every queued key is tracked. -/
def QueueTracked (store : GzDiagnosticStore) : Prop :=
  ∀ key ∈ store.changedSet, store.Tracked key

/-- Only removal drops a document. -/
theorem tracked_step {store : GzDiagnosticStore} {key : ByteString} (h : store.Tracked key)
    (op : StoreOp) (hremoves : ¬ Removes op key) : (step stdSort store op).Tracked key := by
  rw [Tracked, lookup_step]
  obtain ⟨state, hlookup⟩ := Option.isSome_iff_exists.mp h
  rw [hlookup]
  cases op with
  | removeDocument path =>
    have hkey : gzNormalizeDocumentPath path ≠ key := fun heq ↦ hremoves ⟨path, rfl, heq⟩
    rw [documentEffect, if_neg hkey]
    rfl
  | clearAllFromSource source order => rfl
  | currentGeneration path => rfl
  | snapshot path => rfl
  | snapshotSource path source => rfl
  | takeChangedDocuments => rfl
  | _ =>
    simp only [documentEffect]
    split_ifs <;> rfl

/-- Marking a tracked document queues no other key. -/
theorem mem_or_tracked_of_mark {store marked : GzDiagnosticStore} {other key : ByteString}
    {state : DocumentState} (hlookup : store.documents.lookup other = some state)
    (hmem : key ∈ (marked.markChangedLocked other).changedSet)
    (hset : marked.changedSet = store.changedSet) :
    key ∈ store.changedSet ∨ store.Tracked key := by
  rcases (mem_markChangedLocked _ _ _).mp hmem with rfl | hbefore
  · refine Or.inr ?_
    rw [Tracked, hlookup]
    rfl
  · rw [hset] at hbefore
    exact Or.inl hbefore

theorem changedSet_clearStored {source : GzDiagnosticSource} {store : GzDiagnosticStore}
    {other key : ByteString} (hmem : key ∈ (clearStored source store other).changedSet) :
    key ∈ store.changedSet ∨ store.Tracked key := by
  unfold clearStored at hmem
  cases hlookup : store.documents.lookup other with
  | none =>
    rw [hlookup] at hmem
    exact Or.inl hmem
  | some state =>
    rw [hlookup] at hmem
    dsimp only at hmem
    split at hmem
    · exact Or.inl hmem
    · exact Or.inl hmem
    · exact mem_or_tracked_of_mark hlookup hmem rfl

theorem queueTracked_clearStored (source : GzDiagnosticSource) {store : GzDiagnosticStore}
    (h : QueueTracked store) (other : ByteString) :
    QueueTracked (clearStored source store other) := by
  intro key hmem
  have hbefore : store.Tracked key := (changedSet_clearStored hmem).elim (h key) id
  rw [Tracked, lookup_clearStored]
  split_ifs
  · rw [Option.isSome_map]
    exact hbefore
  · exact hbefore

theorem changedSet_replace {store : GzDiagnosticStore} {update : GzDiagnosticUpdate}
    {key : ByteString} (hmem : key ∈ (step stdSort store (.replace update)).changedSet) :
    key ∈ store.changedSet ∨ store.Tracked key := by
  simp only [step, call, Prod.map_snd, id] at hmem
  cases hlookup : store.documents.lookup (gzNormalizeDocumentPath update.documentPath) with
  | none =>
    rw [(replace_unknown stdSort store update hlookup).2.2.2] at hmem
    exact Or.inl hmem
  | some state =>
    by_cases hgeneration : update.generation = state.generation
    · rw [(replace_current stdSort store update state hlookup hgeneration).2.2.2] at hmem
      split_ifs at hmem
      · exact Or.inl hmem
      · exact mem_or_tracked_of_mark hlookup hmem rfl
    · rw [(replace_outdated stdSort store update state hlookup hgeneration).2.2.2] at hmem
      exact Or.inl hmem

theorem changedSet_clearDocument {store : GzDiagnosticStore} {path key : ByteString}
    (hmem : key ∈ (step stdSort store (.clearDocument path)).changedSet) :
    key ∈ store.changedSet ∨ store.Tracked key := by
  simp only [step, call, GzDiagnosticStore.clearDocument] at hmem
  cases hlookup : store.documents.lookup (gzNormalizeDocumentPath path) with
  | none =>
    rw [hlookup] at hmem
    exact Or.inl hmem
  | some state =>
    rw [hlookup] at hmem
    dsimp only at hmem
    split_ifs at hmem
    · exact mem_or_tracked_of_mark hlookup hmem rfl
    · exact Or.inl hmem

/-- A call queues no other key than one that is tracked. -/
theorem changedSet_step {store : GzDiagnosticStore} (h : QueueTracked store) (op : StoreOp)
    {key : ByteString} (hmem : key ∈ (step stdSort store op).changedSet) :
    store.Tracked key ∧ ¬ Removes op key := by
  have hkept : (∀ path, op ≠ .removeDocument path) → ¬ Removes op key := by
    rintro hne ⟨path, rfl, -⟩
    exact hne path rfl
  cases op with
  | removeDocument path =>
    obtain ⟨hne, hbefore⟩ := Finset.mem_erase.mp hmem
    refine ⟨h key hbefore, ?_⟩
    rintro ⟨other, hop, hkey⟩
    rw [← StoreOp.removeDocument.inj hop] at hkey
    exact hne hkey.symm
  | openDocument path => exact ⟨h key hmem, hkept fun _ ↦ StoreOp.noConfusion⟩
  | advanceGeneration path =>
    refine ⟨h key ?_, hkept fun _ ↦ StoreOp.noConfusion⟩
    simp only [step, call, advanceGeneration] at hmem
    split at hmem <;> exact hmem
  | closeDocument path =>
    refine ⟨h key ?_, hkept fun _ ↦ StoreOp.noConfusion⟩
    simp only [step, call, closeDocument] at hmem
    split at hmem <;> exact hmem
  | replace update =>
    refine ⟨?_, hkept fun _ ↦ StoreOp.noConfusion⟩
    exact (changedSet_replace stdSort hmem).elim (h key) id
  | clearSource path source =>
    exact ⟨(changedSet_clearStored hmem).elim (h key) id, hkept fun _ ↦ StoreOp.noConfusion⟩
  | clearDocument path =>
    refine ⟨?_, hkept fun _ ↦ StoreOp.noConfusion⟩
    exact (changedSet_clearDocument stdSort hmem).elim (h key) id
  | clearAllFromSource source order =>
    refine ⟨?_, hkept fun _ ↦ StoreOp.noConfusion⟩
    have hfold : QueueTracked (step stdSort store (.clearAllFromSource source order)) :=
      exec_invariant (clearStored source) QueueTracked
        (fun _ other hstate ↦ queueTracked_clearStored source hstate other) h
        (store.visited order)
    have hafter := hfold key hmem
    rw [Tracked, lookup_step, documentEffect, Option.isSome_map] at hafter
    exact hafter
  | takeChangedDocuments => exact absurd hmem (Finset.notMem_empty key)
  | currentGeneration path => exact ⟨h key hmem, hkept fun _ ↦ StoreOp.noConfusion⟩
  | snapshot path => exact ⟨h key hmem, hkept fun _ ↦ StoreOp.noConfusion⟩
  | snapshotSource path source => exact ⟨h key hmem, hkept fun _ ↦ StoreOp.noConfusion⟩

/-! ### Runs -/

theorem representation_empty : RepresentationInvariant {} where
  orderNodup := List.nodup_nil
  orderSet := fun key ↦ by simp
  changedTracked := fun key hmem ↦ absurd hmem (Finset.notMem_empty key)
  tracked := fun key state hlookup ↦ by simp at hlookup

/-- Every call that wraps no generation keeps the invariant. -/
theorem representation_step (store : GzDiagnosticStore) (op : StoreOp)
    (hwraps : ∀ key, ¬ Wraps store op key) (h : RepresentationInvariant store) :
    RepresentationInvariant (step stdSort store op) where
  orderNodup := (queueConsistent_step stdSort store op ⟨h.orderNodup, h.orderSet⟩).1
  orderSet := (queueConsistent_step stdSort store op ⟨h.orderNodup, h.orderSet⟩).2
  changedTracked := fun key hmem ↦ by
    obtain ⟨hbefore, hremoves⟩ := changedSet_step stdSort h.changedTracked op hmem
    exact tracked_step stdSort hbefore op hremoves
  tracked := fun key state hlookup ↦
    trackedForm_step stdSort (h.tracked key) op (hwraps key) state hlookup

/-- The representation invariant holds in every store that a run from the empty one reaches
without wrapping a generation. -/
theorem representation_exec (ops : List StoreOp)
    (hkept : Along (step stdSort) (fun store op ↦ ∀ key, ¬ Wraps store op key) {} ops) :
    RepresentationInvariant (exec (step stdSort) {} ops) :=
  exec_along (step stdSort) (fun store op ↦ ∀ key, ¬ Wraps store op key) RepresentationInvariant
    (representation_step stdSort) hkept representation_empty

/-- A registration and a replacement wrap nothing. -/
theorem representation_exec_sample :
    RepresentationInvariant (exec (step referenceSort) {}
      [.openDocument (ascii "/game/a.zig"), .replace sampleUpdate]) := by
  refine representation_exec referenceSort _ ⟨?_, ?_, trivial⟩
  · rintro key ⟨⟨⟨path, hop, -⟩, -⟩, -⟩
    exact StoreOp.noConfusion hop
  · rintro key ⟨⟨⟨path, hop, -⟩, -⟩, -⟩
    exact StoreOp.noConfusion hop

end Gzscript.Diagnostics.Representation
