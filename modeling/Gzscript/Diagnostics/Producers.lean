import Gzscript.Diagnostics.BatchOrder
import Gzscript.Library.Interleaving

/-!
# Independent producers commute

A producer owns one source and calls `replace` and `clear_source` for it. Two producers of different
sources share the documents, their generations and the queue of changed documents, and yet no
interleaving of their calls can be told from another one: `producers_commute`. A call of a producer
reads the generation of its document and the list of its own source, writes that list alone
(`submitState`), and queues the document if the list differs (`announced`). So two calls of
different sources write the same documents in either order (`documentEffect_comm`) and queue the
same keys (`enqueue_comm`), which makes them independent in the sense of the library.
-/

set_option autoImplicit false
set_option relaxedAutoImplicit false

namespace Gzscript.Diagnostics.Producers

open Library.Bytes Library.Sorting Library.Transition Library.Interleaving Diagnostics.Path
  Diagnostic Store GzDiagnosticStore Effect Generations BatchOrder

/-! ### The calls of a producer -/

/-- A call of a producer. -/
inductive ProducerCall
  | replace (update : GzDiagnosticUpdate)
  | clearSource (path : ByteString) (source : GzDiagnosticSource)

namespace ProducerCall

def op : ProducerCall → StoreOp
  | replace update => .replace update
  | clearSource path source => .clearSource path source

/-- The source a call writes. -/
def source : ProducerCall → GzDiagnosticSource
  | replace update => update.source
  | clearSource _ source => source

/-- The key of the document a call writes. -/
def key : ProducerCall → ByteString
  | replace update => gzNormalizeDocumentPath update.documentPath
  | clearSource path _ => gzNormalizeDocumentPath path

end ProducerCall

variable (stdSort : SortAlgorithm gzDiagnosticLess)

/-- One call of a producer. -/
def producerStep (store : GzDiagnosticStore) (call : ProducerCall) : GzDiagnosticStore :=
  step stdSort store call.op

/-- The result of one call of a producer. -/
def producerResult (store : GzDiagnosticStore) (call : ProducerCall) : StoreResult :=
  result stdSort store call.op

/-! ### What a call writes -/

namespace ProducerCall

/-- The call reaches the list of its source in the document it names. -/
def Writes (call : ProducerCall) (state : DocumentState) : Prop :=
  match call with
  | replace update => update.generation = state.generation
  | clearSource _ source => DocumentState.stored state source ≠ []

instance (call : ProducerCall) (state : DocumentState) : Decidable (call.Writes state) :=
  match call with
  | replace _ => inferInstanceAs (Decidable (_ = _))
  | clearSource _ _ => inferInstanceAs (Decidable (_ ≠ _))

/-- The list the call writes. -/
def contents (call : ProducerCall) : List GzDiagnostic :=
  match call with
  | replace update => normalizeBatch stdSort update.diagnostics call.key
  | clearSource _ _ => []

end ProducerCall

/-- A document with one list written. -/
def writeList (source : GzDiagnosticSource) (contents : List GzDiagnostic)
    (state : DocumentState) : DocumentState :=
  { state with bySource := Function.update state.bySource source (some contents) }

/-- The effect of a call on the document it names. -/
def submitState (call : ProducerCall) (state : DocumentState) : DocumentState :=
  if call.Writes state then writeList call.source (call.contents stdSort) state else state

theorem stored_writeList {source other : GzDiagnosticSource} (hsource : source ≠ other)
    (contents : List GzDiagnostic) (state : DocumentState) :
    DocumentState.stored (writeList source contents state) other =
      DocumentState.stored state other := by
  simp [DocumentState.stored, writeList, Function.update_of_ne hsource.symm]

theorem writeList_comm {source other : GzDiagnosticSource} (hsource : source ≠ other)
    (contents contents' : List GzDiagnostic) (state : DocumentState) :
    writeList source contents (writeList other contents' state) =
      writeList other contents' (writeList source contents state) := by
  simp [writeList, Function.update_comm hsource.symm]

theorem documentEffect_op (key : ByteString) (document : Option DocumentState)
    (call : ProducerCall) : documentEffect stdSort key document call.op =
      if call.key = key then document.map (submitState stdSort call) else document := by
  cases call with
  | replace update =>
    change (if gzNormalizeDocumentPath update.documentPath = key then _ else _) =
      if gzNormalizeDocumentPath update.documentPath = key then _ else _
    split_ifs with hkey
    · subst hkey
      rfl
    · rfl
  | clearSource path source =>
    change (if gzNormalizeDocumentPath path = key then _ else _) =
      if gzNormalizeDocumentPath path = key then _ else _
    split_ifs
    · refine congrArg (fun effect ↦ document.map effect) (funext fun state ↦ ?_)
      exact (ite_not _ _ _).symm
    · rfl

/-- A write of another source does not decide whether the call reaches its list. -/
theorem writes_writeList (call : ProducerCall) {source : GzDiagnosticSource}
    (hsource : source ≠ call.source) (contents : List GzDiagnostic) (state : DocumentState) :
    call.Writes (writeList source contents state) ↔ call.Writes state := by
  cases call with
  | replace update => rfl
  | clearSource path cleared =>
    have hstored : DocumentState.stored (writeList source contents state) cleared =
        DocumentState.stored state cleared := stored_writeList hsource contents state
    simp only [ProducerCall.Writes]
    rw [hstored]

theorem submitState_generation (call : ProducerCall) (state : DocumentState) :
    (submitState stdSort call state).generation = state.generation := by
  unfold submitState
  split_ifs <;> rfl

theorem stored_submitState (call : ProducerCall) {source : GzDiagnosticSource}
    (hsource : call.source ≠ source) (state : DocumentState) :
    DocumentState.stored (submitState stdSort call state) source =
      DocumentState.stored state source := by
  unfold submitState
  split_ifs
  · exact stored_writeList hsource _ state
  · rfl

theorem submitState_comm {first second : ProducerCall} (hsource : first.source ≠ second.source)
    (state : DocumentState) :
    submitState stdSort first (submitState stdSort second state) =
      submitState stdSort second (submitState stdSort first state) := by
  have hfirst := writes_writeList first hsource.symm (second.contents stdSort) state
  have hsecond := writes_writeList second hsource (first.contents stdSort) state
  by_cases hone : first.Writes state
  · by_cases htwo : second.Writes state
    · simp [submitState, hone, htwo, hfirst, hsecond, writeList_comm hsource]
    · simp [submitState, hone, htwo, hsecond]
  · by_cases htwo : second.Writes state
    · simp [submitState, hone, htwo, hfirst]
    · simp [submitState, hone, htwo]

/-- Calls of different sources write the same document in either order. -/
theorem documentEffect_comm {first second : ProducerCall}
    (hsource : first.source ≠ second.source) (key : ByteString)
    (document : Option DocumentState) :
    documentEffect stdSort key (documentEffect stdSort key document second.op) first.op =
      documentEffect stdSort key (documentEffect stdSort key document first.op) second.op := by
  have hcomm : submitState stdSort first ∘ submitState stdSort second =
      submitState stdSort second ∘ submitState stdSort first :=
    funext (submitState_comm stdSort hsource)
  simp only [documentEffect_op]
  split_ifs
  · rw [Option.map_map, Option.map_map, hcomm]
  · rfl
  · rfl
  · rfl

/-! ### What a call queues -/

/-- The call changes the list of its source. -/
def announced (store : GzDiagnosticStore) (call : ProducerCall) : Bool :=
  match call with
  | .replace update => generationAt store call.key = some update.generation ∧
      stored store call.key update.source ≠ call.contents stdSort
  | .clearSource _ source => stored store call.key source ≠ []

/-- The queue of changed documents with its set. -/
def queue (store : GzDiagnosticStore) : List ByteString × Finset ByteString :=
  (store.changedOrder, store.changedSet)

/-- The queue after a key is marked. -/
def enqueue (key : ByteString) (queued : List ByteString × Finset ByteString) :
    List ByteString × Finset ByteString :=
  if key ∈ queued.2 then queued else (queued.1 ++ [key], insert key queued.2)

theorem queue_markChangedLocked (store : GzDiagnosticStore) (key : ByteString) :
    queue (store.markChangedLocked key) = enqueue key (queue store) := by
  by_cases hmem : key ∈ store.changedSet
  · simp [queue, enqueue, markChangedLocked, hmem]
  · simp [queue, enqueue, markChangedLocked, hmem]

theorem queue_replace (store : GzDiagnosticStore) (update : GzDiagnosticUpdate) :
    queue (producerStep stdSort store (.replace update)) =
      if announced stdSort store (.replace update) then
        enqueue (ProducerCall.replace update).key (queue store)
      else queue store := by
  change queue (store.replace stdSort update).2 = _
  cases hlookup : store.documents.lookup (gzNormalizeDocumentPath update.documentPath) with
  | none =>
    obtain ⟨-, -, horder, hset⟩ := replace_unknown stdSort store update hlookup
    simp [announced, generationAt, ProducerCall.key, hlookup, queue, horder, hset]
  | some state =>
    have hstored := stored_tracked hlookup
    by_cases hgeneration : update.generation = state.generation
    · obtain ⟨-, -, horder, hset⟩ := replace_current stdSort store update state hlookup hgeneration
      by_cases hsame : DocumentState.stored state update.source =
          normalizeBatch stdSort update.diagnostics (gzNormalizeDocumentPath update.documentPath)
      · rw [if_pos hsame] at horder hset
        simp [announced, ProducerCall.contents, ProducerCall.key, hstored, hsame, queue, horder,
          hset]
      · rw [if_neg hsame] at horder hset
        have hannounced : announced stdSort store (.replace update) = true := by
          simp [announced, generationAt, ProducerCall.contents, ProducerCall.key, hlookup, hstored,
            hsame, hgeneration]
        rw [if_pos hannounced, ProducerCall.key, ← queue_markChangedLocked, queue, queue, horder,
          hset]
    · obtain ⟨-, -, horder, hset⟩ := replace_outdated stdSort store update state hlookup hgeneration
      simp [announced, generationAt, ProducerCall.key, hlookup, Ne.symm hgeneration, queue, horder,
        hset]

theorem queue_clearSource (store : GzDiagnosticStore) (path : ByteString)
    (source : GzDiagnosticSource) :
    queue (producerStep stdSort store (.clearSource path source)) =
      if announced stdSort store (.clearSource path source) then
        enqueue (ProducerCall.clearSource path source).key (queue store)
      else queue store := by
  change queue (clearStored source store (gzNormalizeDocumentPath path)) = _
  unfold clearStored
  cases hlookup : store.documents.lookup (gzNormalizeDocumentPath path) with
  | none => simp [announced, ProducerCall.key, stored_untracked hlookup]
  | some state =>
    have hstored := stored_tracked hlookup
    cases hentry : state.bySource source with
    | none => simp [announced, ProducerCall.key, hstored, DocumentState.stored, hentry]
    | some diagnostics =>
      cases diagnostics with
      | nil => simp [announced, ProducerCall.key, hstored, DocumentState.stored, hentry]
      | cons diagnostic diagnostics =>
        have hannounced : announced stdSort store (.clearSource path source) = true := by
          simp [announced, ProducerCall.key, hstored, DocumentState.stored, hentry]
        rw [if_pos hannounced]
        simp only [hentry, queue_markChangedLocked]
        rfl

/-- A call queues the key of its document if it changes the list of its source. -/
theorem queue_producerStep (store : GzDiagnosticStore) (call : ProducerCall) :
    queue (producerStep stdSort store call) =
      if announced stdSort store call then enqueue call.key (queue store) else queue store := by
  cases call with
  | replace update => exact queue_replace stdSort store update
  | clearSource path source => exact queue_clearSource stdSort store path source

/-! ### Stores that no consumer can tell apart -/

/-- The two queues hold the same keys; a drain returns them in different orders. -/
def SameQueue (queued queued' : List ByteString × Finset ByteString) : Prop :=
  queued.1.Perm queued'.1 ∧ queued.2 = queued'.2

/-- The same documents and the same set of changed documents. -/
structure SameToConsumers (store store' : GzDiagnosticStore) : Prop where
  documents : ∀ key, store.documents.lookup key = store'.documents.lookup key
  queued : SameQueue (queue store) (queue store')

theorem SameQueue.enqueue {queued queued' : List ByteString × Finset ByteString}
    (h : SameQueue queued queued') (key : ByteString) :
    SameQueue (enqueue key queued) (enqueue key queued') := by
  obtain ⟨hperm, hset⟩ := h
  by_cases hmem : key ∈ queued'.2
  · simp only [Producers.enqueue, hset, hmem, if_true]
    exact ⟨hperm, hset⟩
  · simp only [Producers.enqueue, hset, hmem, if_false]
    exact ⟨hperm.append_right [key], rfl⟩

theorem enqueue_comm (first second : ByteString)
    (queued : List ByteString × Finset ByteString) :
    SameQueue (enqueue first (enqueue second queued)) (enqueue second (enqueue first queued)) := by
  by_cases hfirst : first ∈ queued.2
  · by_cases hsecond : second ∈ queued.2
    · simp [enqueue, hfirst, hsecond, SameQueue]
    · simp [enqueue, hfirst, hsecond, SameQueue]
  · by_cases hsecond : second ∈ queued.2
    · simp [enqueue, hfirst, hsecond, SameQueue]
    · by_cases heq : first = second
      · subst heq
        exact ⟨List.Perm.refl _, rfl⟩
      · simp only [enqueue, hfirst, hsecond, if_false, Finset.mem_insert, heq, Ne.symm heq,
          or_self, SameQueue, List.append_assoc]
        exact ⟨(List.Perm.swap _ _ []).append_left queued.1, Finset.insert_comm _ _ _⟩

theorem stored_congr {store store' : GzDiagnosticStore}
    (h : ∀ key, store.documents.lookup key = store'.documents.lookup key) (key : ByteString) :
    stored store key = stored store' key := by
  funext source
  rw [stored, stored, h]

theorem announced_congr {store store' : GzDiagnosticStore} (call : ProducerCall)
    (hgeneration : generationAt store call.key = generationAt store' call.key)
    (hstored : stored store call.key call.source = stored store' call.key call.source) :
    announced stdSort store call = announced stdSort store' call := by
  cases call with
  | replace update =>
    simp only [ProducerCall.source] at hstored
    simp only [announced, hgeneration, hstored]
  | clearSource path source =>
    simp only [ProducerCall.source] at hstored
    simp only [announced, hstored]

theorem sameToConsumers_equivalence : Equivalence SameToConsumers where
  refl := fun _ ↦ ⟨fun _ ↦ rfl, List.Perm.refl _, rfl⟩
  symm := fun h ↦ ⟨fun key ↦ (h.documents key).symm, h.queued.1.symm, h.queued.2.symm⟩
  trans := fun h h' ↦ ⟨fun key ↦ (h.documents key).trans (h'.documents key),
    h.queued.1.trans h'.queued.1, h.queued.2.trans h'.queued.2⟩

/-! ### Calls of different sources are independent -/

theorem generationAt_producerStep (store : GzDiagnosticStore) (call : ProducerCall)
    (key : ByteString) :
    generationAt (producerStep stdSort store call) key = generationAt store key := by
  rw [generationAt, producerStep, lookup_step, documentEffect_op]
  split_ifs
  · rw [Option.map_map]
    exact congrArg (fun effect ↦ (store.documents.lookup key).map effect)
      (funext (submitState_generation stdSort call))
  · rfl

theorem stored_producerStep (store : GzDiagnosticStore) {call : ProducerCall}
    {source : GzDiagnosticSource} (hsource : call.source ≠ source) (key : ByteString) :
    stored (producerStep stdSort store call) key source = stored store key source := by
  rw [producerStep, stored_step, documentEffect_op, stored]
  split_ifs
  · rw [Option.map_map]
    exact congrArg (fun effect ↦ ((store.documents.lookup key).map effect).getD [])
      (funext (stored_submitState stdSort call hsource))
  · rfl

/-- The outcome of a replacement is decided by the generation of its document. -/
theorem replace_outcome_congr {store store' : GzDiagnosticStore} (update : GzDiagnosticUpdate)
    (h : generationAt store (gzNormalizeDocumentPath update.documentPath) =
      generationAt store' (gzNormalizeDocumentPath update.documentPath)) :
    (store.replace stdSort update).1 = (store'.replace stdSort update).1 := by
  have houtcome : ∀ store : GzDiagnosticStore, (store.replace stdSort update).1 =
      (generationAt store (gzNormalizeDocumentPath update.documentPath)).elim .unknownDocument
        fun generation ↦ if update.generation < generation then .stale
          else if generation < update.generation then .futureGeneration else .applied := by
    intro store
    simp only [GzDiagnosticStore.replace, countNormalized, generationAt]
    cases store.documents.lookup (gzNormalizeDocumentPath update.documentPath) with
    | none => rfl
    | some state =>
      simp only [Option.map_some, Option.elim_some]
      split_ifs <;> rfl
  rw [houtcome, houtcome, h]

theorem producerResult_congr {store store' : GzDiagnosticStore} (call : ProducerCall)
    (h : generationAt store call.key = generationAt store' call.key) :
    producerResult stdSort store call = producerResult stdSort store' call := by
  cases call with
  | replace update => exact congrArg StoreResult.update (replace_outcome_congr stdSort update h)
  | clearSource path source => rfl

theorem congruence_producerStep :
    Congruence (producerStep stdSort) (producerResult stdSort) SameToConsumers where
  equivalence := sameToConsumers_equivalence
  onStep := fun store store' call h ↦ by
    refine ⟨fun key ↦ ?_, ?_⟩
    · rw [producerStep, producerStep, lookup_step, lookup_step, h.documents key]
    · have hgeneration : generationAt store call.key = generationAt store' call.key := by
        rw [generationAt, generationAt, h.documents]
      have hstored := congrFun (stored_congr h.documents call.key) call.source
      rw [queue_producerStep, queue_producerStep,
        announced_congr stdSort call hgeneration hstored]
      split_ifs
      · exact h.queued.enqueue call.key
      · exact h.queued
  onResult := fun store store' call h ↦ by
    refine producerResult_congr stdSort call ?_
    rw [generationAt, generationAt, h.documents]

theorem announced_producerStep (store : GzDiagnosticStore) {call other : ProducerCall}
    (hsource : other.source ≠ call.source) :
    announced stdSort (producerStep stdSort store other) call = announced stdSort store call :=
  announced_congr stdSort call (generationAt_producerStep stdSort store other call.key)
    (stored_producerStep stdSort store hsource call.key)

/-- Calls of different sources are independent. -/
theorem independent_of_sources {first second : ProducerCall}
    (hsource : first.source ≠ second.source) :
    Independent (producerStep stdSort) (producerResult stdSort) SameToConsumers first second where
  commute := fun store ↦ by
    refine ⟨fun key ↦ ?_, ?_⟩
    · simp only [producerStep, lookup_step, documentEffect_comm stdSort hsource]
    · simp only [queue_producerStep, announced_producerStep stdSort store hsource,
        announced_producerStep stdSort store hsource.symm]
      split_ifs
      · exact enqueue_comm first.key second.key (queue store)
      · exact ⟨List.Perm.refl _, rfl⟩
      · exact ⟨List.Perm.refl _, rfl⟩
      · exact ⟨List.Perm.refl _, rfl⟩
  leftResult := fun store ↦ producerResult_congr stdSort first
    (generationAt_producerStep stdSort store second first.key)
  rightResult := fun store ↦ producerResult_congr stdSort second
    (generationAt_producerStep stdSort store first second.key)

/-! ### All interleavings -/

theorem snapshotSource_congr {before after : GzDiagnosticStore}
    (h : ∀ key, after.documents.lookup key = before.documents.lookup key) (path : ByteString)
    (source : GzDiagnosticSource) :
    after.snapshotSource path source = before.snapshotSource path source := by
  simp only [GzDiagnosticStore.snapshotSource, h]

/-- The state and the results of an interleaving. -/
def outcome (store : GzDiagnosticStore) (merged : List (ProducerCall ⊕ ProducerCall)) :
    GzDiagnosticStore × List (StoreResult ⊕ StoreResult) :=
  (exec (producerStep stdSort) store (untagged merged),
    taggedResults (producerStep stdSort) (producerResult stdSort) store merged)

/-- From every store, two producers of different sources make two lists of calls. Every two
interleavings of the lists give each call the same result and end with the same documents, the same
snapshots and the same changed documents. -/
theorem producers_commute (store : GzDiagnosticStore) (first second : List ProducerCall)
    (source source' : GzDiagnosticSource) (hsources : source ≠ source')
    (hfirst : ∀ call ∈ first, call.source = source)
    (hsecond : ∀ call ∈ second, call.source = source')
    (merged merged' : List (ProducerCall ⊕ ProducerCall))
    (hmerged : Interleaves merged first second) (hmerged' : Interleaves merged' first second) :
    lefts (outcome stdSort store merged).2 = lefts (outcome stdSort store merged').2 ∧
      rights (outcome stdSort store merged).2 = rights (outcome stdSort store merged').2 ∧
      SameToConsumers (outcome stdSort store merged).1 (outcome stdSort store merged').1 ∧
      (∀ path, (outcome stdSort store merged).1.snapshot path =
        (outcome stdSort store merged').1.snapshot path) ∧
      ∀ path source, (outcome stdSort store merged).1.snapshotSource path source =
        (outcome stdSort store merged').1.snapshotSource path source := by
  have hcongruence := congruence_producerStep stdSort
  have hindependent : IndependentClients (producerStep stdSort) (producerResult stdSort)
      SameToConsumers first second := fun left hleft right hright ↦
    independent_of_sources stdSort (by rwa [hfirst left hleft, hsecond right hright])
  obtain ⟨rfl, rfl⟩ := hmerged
  obtain ⟨hlefts, hrights⟩ := hmerged'
  have hindependent' : IndependentClients (producerStep stdSort) (producerResult stdSort)
      SameToConsumers (lefts merged') (rights merged') := by
    rwa [hlefts, hrights]
  have hsame : SameToConsumers (outcome stdSort store merged).1
      (outcome stdSort store merged').1 := by
    have hone := exec_interleaving hcongruence merged hindependent store
    have htwo := exec_interleaving hcongruence merged' hindependent' store
    rw [hlefts, hrights] at htwo
    exact sameToConsumers_equivalence.trans hone (sameToConsumers_equivalence.symm htwo)
  refine ⟨?_, ?_, hsame, ?_, ?_⟩
  · have hone := leftResults_interleaving hcongruence merged hindependent store
    have htwo := leftResults_interleaving hcongruence merged' hindependent' store
    rw [hlefts] at htwo
    exact hone.trans htwo.symm
  · have hone := rightResults_interleaving hcongruence merged hindependent store
    have htwo := rightResults_interleaving hcongruence merged' hindependent' store
    rw [hrights] at htwo
    exact hone.trans htwo.symm
  · exact snapshot_congr fun key ↦ hsame.documents key
  · exact snapshotSource_congr fun key ↦ hsame.documents key

/-- Each of two producers replaces its list of one document and one of them clears it again. -/
theorem producers_commute_sample :
    SameToConsumers
      (outcome referenceSort registered [.inl (.replace (batchUpdate [errorUpTo 1])),
        .inr (.replace { batchUpdate [errorUpTo 2] with source := .zls }),
        .inl (.clearSource (ascii "/game/a.zig") .gzScript)]).1
      (outcome referenceSort registered
        [.inr (.replace { batchUpdate [errorUpTo 2] with source := .zls }),
          .inl (.replace (batchUpdate [errorUpTo 1])),
          .inl (.clearSource (ascii "/game/a.zig") .gzScript)]).1 := by
  refine (producers_commute referenceSort registered
    [.replace (batchUpdate [errorUpTo 1]), .clearSource (ascii "/game/a.zig") .gzScript]
    [.replace { batchUpdate [errorUpTo 2] with source := .zls }] .gzScript .zls (by decide)
    ?_ ?_ _ _ ⟨rfl, rfl⟩ ⟨rfl, rfl⟩).2.2.1
  · rintro call (_ | ⟨_, _ | ⟨_, hcall⟩⟩)
    · rfl
    · rfl
    · exact absurd hcall List.not_mem_nil
  · rintro call (_ | ⟨_, hcall⟩)
    · rfl
    · exact absurd hcall List.not_mem_nil

end Gzscript.Diagnostics.Producers
