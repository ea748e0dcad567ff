import Gzscript.Diagnostics.Store

/-!
# What a call does to one document

Documents do not interact: the state of the document under a key after a call is a function of its
state before and of the call. `documentEffect` is that function, and `lookup_step` says that the
store is the product of these machines, one for each key, so that no later proof about a document
unfolds an operation of the store. `stored_step` says the same of the diagnostics of one source, and
`stored_exec` is the rule for what a run stores.
A replacement that is not accepted changes nothing but counters (`replace_unknown`,
`replace_outdated`).
-/

set_option autoImplicit false
set_option relaxedAutoImplicit false

namespace Gzscript.Diagnostics.Effect

open Library.Bytes Library.Sorting Library.Transition Diagnostics.Path Diagnostic Store
  GzDiagnosticStore

/-! ### One document -/

/-- The diagnostics one document stores for a source. -/
def DocumentState.stored (state : DocumentState) (source : GzDiagnosticSource) :
    List GzDiagnostic :=
  (state.bySource source).getD []

/-- The effect of `open_document` on the document it names. -/
def openState : Option DocumentState → DocumentState
  | none => { generation := 1 }
  | some state => if state.generation = 0 then { state with generation := 1 } else state

/-- The effect of a replacement that is not rejected as stale or from the future. -/
def replaceState (batch : List GzDiagnostic) (update : GzDiagnosticUpdate)
    (state : DocumentState) : DocumentState :=
  if update.generation = state.generation then
    { state with bySource := Function.update state.bySource update.source (some batch) }
  else state

/-- The effect of clearing one source. -/
def clearSourceState (source : GzDiagnosticSource) (state : DocumentState) : DocumentState :=
  if DocumentState.stored state source = [] then state
  else { state with bySource := Function.update state.bySource source (some []) }

/-- The effect of clearing every source. -/
def clearState (state : DocumentState) : DocumentState :=
  { state with bySource := fun source ↦ clearEntry (state.bySource source) }

@[simp] theorem replaceState_generation (batch : List GzDiagnostic) (update : GzDiagnosticUpdate)
    (state : DocumentState) :
    (replaceState batch update state).generation = state.generation := by
  unfold replaceState
  split_ifs <;> rfl

@[simp] theorem clearSourceState_generation (source : GzDiagnosticSource)
    (state : DocumentState) :
    (clearSourceState source state).generation = state.generation := by
  unfold clearSourceState
  split_ifs <;> rfl

@[simp] theorem clearState_generation (state : DocumentState) :
    (clearState state).generation = state.generation := rfl

variable (stdSort : SortAlgorithm gzDiagnosticLess)

/-- The document under a key after a call, from the document before it. -/
def documentEffect (key : ByteString) (document : Option DocumentState) :
    StoreOp → Option DocumentState
  | .openDocument path =>
    if gzNormalizeDocumentPath path = key then some (openState document) else document
  | .advanceGeneration path =>
    if gzNormalizeDocumentPath path = key then
      document.map fun state ↦ { state with generation := state.generation + 1 }
    else document
  | .closeDocument path =>
    if gzNormalizeDocumentPath path = key then
      document.map fun state ↦ { state with closed := true }
    else document
  | .replace update =>
    if gzNormalizeDocumentPath update.documentPath = key then
      document.map (replaceState (normalizeBatch stdSort update.diagnostics key) update)
    else document
  | .clearSource path source =>
    if gzNormalizeDocumentPath path = key then document.map (clearSourceState source)
    else document
  | .clearDocument path =>
    if gzNormalizeDocumentPath path = key then document.map clearState else document
  | .clearAllFromSource source _ => document.map (clearSourceState source)
  | .removeDocument path => if gzNormalizeDocumentPath path = key then none else document
  | .currentGeneration _ | .snapshot _ | .snapshotSource _ _ | .takeChangedDocuments => document

/-- Only registration, advance and removal touch the generation of a document. -/
theorem documentEffect_generation (key : ByteString) (document : Option DocumentState)
    (op : StoreOp) (hopen : ∀ path, op ≠ .openDocument path)
    (hadvance : ∀ path, op ≠ .advanceGeneration path)
    (hremove : ∀ path, op ≠ .removeDocument path) :
    (documentEffect stdSort key document op).map DocumentState.generation =
      document.map DocumentState.generation := by
  have hmap : ∀ (effect : DocumentState → DocumentState),
      (∀ state, (effect state).generation = state.generation) →
        (document.map effect).map DocumentState.generation =
          document.map DocumentState.generation := by
    intro effect heffect
    rw [Option.map_map]
    exact congrArg (fun f ↦ document.map f) (funext heffect)
  cases op with
  | openDocument path => exact absurd rfl (hopen path)
  | advanceGeneration path => exact absurd rfl (hadvance path)
  | removeDocument path => exact absurd rfl (hremove path)
  | closeDocument path =>
    simp only [documentEffect]
    split_ifs
    · exact hmap _ fun _ ↦ rfl
    · rfl
  | replace update =>
    simp only [documentEffect]
    split_ifs
    · exact hmap _ (replaceState_generation _ update)
    · rfl
  | clearSource path source =>
    simp only [documentEffect]
    split_ifs
    · exact hmap _ (clearSourceState_generation source)
    · rfl
  | clearDocument path =>
    simp only [documentEffect]
    split_ifs
    · exact hmap _ clearState_generation
    · rfl
  | clearAllFromSource source order => exact hmap _ (clearSourceState_generation source)
  | currentGeneration path => rfl
  | snapshot path => rfl
  | snapshotSource path source => rfl
  | takeChangedDocuments => rfl

theorem lookup_insert (documents : AList fun _ : ByteString ↦ DocumentState)
    (key other : ByteString) (state : DocumentState) :
    (documents.insert other state).lookup key =
      if other = key then some state else documents.lookup key := by
  split_ifs with h
  · rw [h, AList.lookup_insert]
  · exact AList.lookup_insert_ne fun heq ↦ h heq.symm

theorem lookup_erase (documents : AList fun _ : ByteString ↦ DocumentState)
    (key other : ByteString) :
    (documents.erase other).lookup key =
      if other = key then none else documents.lookup key := by
  split_ifs with h
  · rw [h, AList.lookup_erase]
  · exact AList.lookup_erase_ne fun heq ↦ h heq.symm

@[simp] theorem markChangedLocked_documents (store : GzDiagnosticStore) (key : ByteString) :
    (store.markChangedLocked key).documents = store.documents := by
  unfold markChangedLocked
  split_ifs <;> rfl

@[simp] theorem mem_markChangedLocked (store : GzDiagnosticStore) (key other : ByteString) :
    other ∈ (store.markChangedLocked key).changedSet ↔
      other = key ∨ other ∈ store.changedSet := by
  unfold markChangedLocked
  split_ifs with h
  · constructor
    · exact Or.inr
    · rintro (rfl | hmem)
      · exact h
      · exact hmem
  · simp

theorem lookup_clearStored (source : GzDiagnosticSource) (store : GzDiagnosticStore)
    (key other : ByteString) :
    (clearStored source store other).documents.lookup key =
      if other = key then (store.documents.lookup key).map (clearSourceState source)
      else store.documents.lookup key := by
  unfold clearStored
  by_cases hkey : other = key
  · subst hkey
    cases hlookup : store.documents.lookup other with
    | none => simp [hlookup]
    | some state =>
      cases hstored : state.bySource source with
      | none => simp [hstored, hlookup, clearSourceState, DocumentState.stored]
      | some diagnostics =>
        cases diagnostics <;>
          simp [hstored, hlookup, clearSourceState, DocumentState.stored]
  · simp only [hkey, if_false]
    split
    · rfl
    · split
      · rfl
      · rfl
      · simp [lookup_insert, hkey]

theorem clearSourceState_idem (source : GzDiagnosticSource) (state : DocumentState) :
    clearSourceState source (clearSourceState source state) = clearSourceState source state := by
  by_cases h : DocumentState.stored state source = []
  · simp only [clearSourceState, h, if_true]
  · have hcleared : clearSourceState source state =
        { state with bySource := Function.update state.bySource source (some []) } := if_neg h
    rw [hcleared, clearSourceState, if_pos]
    simp [DocumentState.stored]

theorem lookup_foldl_clearStored (source : GzDiagnosticSource) (store : GzDiagnosticStore)
    (key : ByteString) (keys : List ByteString) :
    (keys.foldl (clearStored source) store).documents.lookup key =
      if key ∈ keys then (store.documents.lookup key).map (clearSourceState source)
      else store.documents.lookup key := by
  induction keys generalizing store with
  | nil => simp
  | cons other keys ih =>
    rw [List.foldl_cons, ih, lookup_clearStored]
    by_cases hother : other = key
    · subst hother
      have hidem : clearSourceState source ∘ clearSourceState source =
          clearSourceState source := funext (clearSourceState_idem source)
      simp [Option.map_map, hidem]
    · simp [hother, List.mem_cons, eq_comm (a := key)]

theorem mem_visited (store : GzDiagnosticStore) (order : List ByteString) (key : ByteString) :
    key ∈ store.visited order ↔ store.Tracked key := by
  have hkeys : key ∈ store.documents.keys ↔ store.Tracked key := by
    rw [Tracked, AList.lookup_isSome, AList.mem_keys]
  unfold visited
  simp only [List.mem_append, List.mem_filter, List.mem_dedup, decide_eq_true_eq, hkeys]
  tauto

/-! ### The three outcomes of a replacement -/

/-- Nothing but the counters differs. -/
def SameContents (before after : GzDiagnosticStore) : Prop :=
  after.documents = before.documents ∧ after.changedOrder = before.changedOrder ∧
    after.changedSet = before.changedSet

/-- A replacement for a document that is not tracked is rejected. -/
theorem replace_unknown (store : GzDiagnosticStore) (update : GzDiagnosticUpdate)
    (hlookup : store.documents.lookup (gzNormalizeDocumentPath update.documentPath) = none) :
    (store.replace stdSort update).1 = .unknownDocument ∧
      SameContents store (store.replace stdSort update).2 := by
  simp [GzDiagnosticStore.replace, countNormalized, hlookup, SameContents]

/-- A replacement for another generation than the current one is rejected. -/
theorem replace_outdated (store : GzDiagnosticStore) (update : GzDiagnosticUpdate)
    (state : DocumentState)
    (hlookup : store.documents.lookup (gzNormalizeDocumentPath update.documentPath) = some state)
    (hgeneration : update.generation ≠ state.generation) :
    (store.replace stdSort update).1 ≠ .applied ∧
      SameContents store (store.replace stdSort update).2 := by
  simp only [GzDiagnosticStore.replace, countNormalized, hlookup, SameContents]
  by_cases hlt : update.generation < state.generation
  · simp [hlt]
  · have hgt : state.generation < update.generation :=
      UInt64.lt_of_le_of_ne (UInt64.not_lt.mp hlt) hgeneration.symm
    simp [hlt, hgt]

/-- A replacement for the current generation is applied: the document holds the batch, and it is
marked changed unless it held the batch before. -/
theorem replace_current (store : GzDiagnosticStore) (update : GzDiagnosticUpdate)
    (state : DocumentState)
    (hlookup : store.documents.lookup (gzNormalizeDocumentPath update.documentPath) = some state)
    (hgeneration : update.generation = state.generation) :
    let key := gzNormalizeDocumentPath update.documentPath
    let batch := normalizeBatch stdSort update.diagnostics key
    (store.replace stdSort update).1 = .applied ∧
      (store.replace stdSort update).2.documents = store.documents.insert key
        { state with bySource := Function.update state.bySource update.source (some batch) } ∧
      (store.replace stdSort update).2.changedOrder =
        (if DocumentState.stored state update.source = batch then store.changedOrder
          else (store.markChangedLocked key).changedOrder) ∧
      (store.replace stdSort update).2.changedSet =
        (if DocumentState.stored state update.source = batch then store.changedSet
          else (store.markChangedLocked key).changedSet) := by
  dsimp only
  have hirrefl : ¬ state.generation < state.generation := UInt64.lt_irrefl _
  simp only [GzDiagnosticStore.replace, countNormalized, hlookup, hgeneration, hirrefl, if_false,
    DocumentState.stored]
  by_cases hsame : (state.bySource update.source).getD [] =
      normalizeBatch stdSort update.diagnostics (gzNormalizeDocumentPath update.documentPath)
  · simp [hsame]
  · simp only [hsame, if_false, markChangedLocked]
    split_ifs <;> simp

/-! ### One call -/

theorem lookup_replace (store : GzDiagnosticStore) (update : GzDiagnosticUpdate)
    (key : ByteString) :
    (store.replace stdSort update).2.documents.lookup key =
      documentEffect stdSort key (store.documents.lookup key) (.replace update) := by
  rw [documentEffect]
  cases hlookup : store.documents.lookup (gzNormalizeDocumentPath update.documentPath) with
  | none =>
    rw [(replace_unknown stdSort store update hlookup).2.1]
    split_ifs with h
    · rw [← h, hlookup, Option.map_none]
    · rfl
  | some state =>
    by_cases hgeneration : update.generation = state.generation
    · rw [(replace_current stdSort store update state hlookup hgeneration).2.1, lookup_insert]
      split_ifs with h
      · rw [← h, hlookup, Option.map_some, replaceState, if_pos hgeneration]
      · rfl
    · rw [(replace_outdated stdSort store update state hlookup hgeneration).2.1]
      split_ifs with h
      · rw [← h, hlookup, Option.map_some, replaceState, if_neg hgeneration]
      · rfl

theorem lookup_clearDocument (store : GzDiagnosticStore) (path key : ByteString) :
    (store.clearDocument path).documents.lookup key =
      documentEffect stdSort key (store.documents.lookup key) (.clearDocument path) := by
  simp only [GzDiagnosticStore.clearDocument, documentEffect]
  split_ifs with h
  · subst h
    cases hlookup : store.documents.lookup (gzNormalizeDocumentPath path) with
    | none => simp [hlookup]
    | some state =>
      simp only [Option.map_some, clearState]
      split_ifs <;> simp
  · split
    · rfl
    · split_ifs <;> simp [lookup_insert, h]

/-- Every operation acts on each document by itself. -/
theorem lookup_step (store : GzDiagnosticStore) (op : StoreOp) (key : ByteString) :
    (step stdSort store op).documents.lookup key =
      documentEffect stdSort key (store.documents.lookup key) op := by
  cases op with
  | openDocument path =>
    simp only [step, call, openDocument, Prod.map_snd, id, documentEffect, lookup_insert]
    by_cases h : gzNormalizeDocumentPath path = key
    · subst h
      cases store.documents.lookup (gzNormalizeDocumentPath path) <;> simp [openState]
    · simp [h]
  | advanceGeneration path =>
    simp only [step, call, advanceGeneration, Prod.map_snd, id, documentEffect]
    split_ifs with h
    · subst h
      cases hlookup : store.documents.lookup (gzNormalizeDocumentPath path) <;>
        simp [hlookup]
    · split
      · rfl
      · simp [lookup_insert, h]
  | closeDocument path =>
    simp only [step, call, closeDocument, Prod.map_snd, id, documentEffect]
    split_ifs with h
    · subst h
      cases hlookup : store.documents.lookup (gzNormalizeDocumentPath path) <;>
        simp [hlookup]
    · split
      · rfl
      · simp [lookup_insert, h]
  | replace update => exact lookup_replace stdSort store update key
  | clearSource path source =>
    simp only [step, call, GzDiagnosticStore.clearSource, documentEffect, lookup_clearStored]
  | clearDocument path => exact lookup_clearDocument stdSort store path key
  | clearAllFromSource source order =>
    simp only [step, call, GzDiagnosticStore.clearAllFromSource, documentEffect,
      lookup_foldl_clearStored, mem_visited, Tracked]
    cases store.documents.lookup key <;> simp
  | removeDocument path =>
    simp only [step, call, GzDiagnosticStore.removeDocument, documentEffect, lookup_erase]
  | currentGeneration path => rfl
  | snapshot path => rfl
  | snapshotSource path source => rfl
  | takeChangedDocuments => rfl

/-! ### The stored diagnostics of a document -/

/-- The diagnostics stored under a key for a source; none where the document is not tracked. -/
def stored (store : GzDiagnosticStore) (key : ByteString) (source : GzDiagnosticSource) :
    List GzDiagnostic :=
  ((store.documents.lookup key).map fun state ↦ DocumentState.stored state source).getD []

theorem stored_untracked {store : GzDiagnosticStore} {key : ByteString}
    (hlookup : store.documents.lookup key = none) : stored store key = fun _ ↦ [] := by
  funext source
  rw [stored, hlookup]
  rfl

theorem stored_tracked {store : GzDiagnosticStore} {key : ByteString} {state : DocumentState}
    (hlookup : store.documents.lookup key = some state) :
    stored store key = DocumentState.stored state := by
  funext source
  rw [stored, hlookup]
  rfl

theorem stored_step (store : GzDiagnosticStore) (op : StoreOp) (key : ByteString)
    (source : GzDiagnosticSource) :
    stored (step stdSort store op) key source =
      ((documentEffect stdSort key (store.documents.lookup key) op).map
        fun state ↦ DocumentState.stored state source).getD [] := by
  rw [stored, lookup_step]

theorem stored_openState (document : Option DocumentState) (source : GzDiagnosticSource) :
    DocumentState.stored (openState document) source =
      (document.map fun state ↦ DocumentState.stored state source).getD [] := by
  cases document with
  | none => rfl
  | some state =>
    unfold openState
    dsimp only
    split_ifs <;> rfl

theorem stored_replaceState (batch : List GzDiagnostic) (update : GzDiagnosticUpdate)
    (state : DocumentState) (source : GzDiagnosticSource) :
    DocumentState.stored (replaceState batch update state) source =
      if update.generation = state.generation ∧ update.source = source then batch
      else DocumentState.stored state source := by
  unfold replaceState
  by_cases hgeneration : update.generation = state.generation
  · by_cases hsource : update.source = source
    · subst hsource
      simp [hgeneration, DocumentState.stored]
    · simp [hgeneration, hsource, DocumentState.stored, Function.update_of_ne (Ne.symm hsource)]
  · simp [hgeneration]

theorem stored_clearSourceState (cleared source : GzDiagnosticSource) (state : DocumentState) :
    DocumentState.stored (clearSourceState cleared state) source =
      if cleared = source then [] else DocumentState.stored state source := by
  unfold clearSourceState
  by_cases hsource : cleared = source
  · subst hsource
    rw [if_pos rfl]
    by_cases hempty : DocumentState.stored state cleared = []
    · rw [if_pos hempty, hempty]
    · rw [if_neg hempty]
      simp [DocumentState.stored]
  · rw [if_neg hsource]
    split_ifs
    · rfl
    · simp [DocumentState.stored, Function.update_of_ne (Ne.symm hsource)]

theorem stored_clearState (state : DocumentState) (source : GzDiagnosticSource) :
    DocumentState.stored (clearState state) source = [] := by
  simp only [DocumentState.stored, clearState]
  cases state.bySource source <;> rfl

/-! ### What a run stores -/

/-- What a document stores for a source is what it stored before, or nothing. -/
def Kept (source : GzDiagnosticSource) (before after : Option DocumentState) : Prop :=
  (after.map fun state ↦ DocumentState.stored state source).getD [] =
      (before.map fun state ↦ DocumentState.stored state source).getD [] ∨
    (after.map fun state ↦ DocumentState.stored state source).getD [] = []

theorem kept_map {source : GzDiagnosticSource} {effect : DocumentState → DocumentState}
    (heffect : ∀ state, DocumentState.stored (effect state) source =
      DocumentState.stored state source ∨ DocumentState.stored (effect state) source = [])
    (document : Option DocumentState) : Kept source document (document.map effect) := by
  cases document with
  | none => exact Or.inl rfl
  | some state => exact heffect state

theorem kept_ite {source : GzDiagnosticSource} {before after : Option DocumentState}
    {condition : Prop} [Decidable condition] (hkept : Kept source before after) :
    Kept source before (if condition then after else before) := by
  split_ifs
  · exact hkept
  · exact Or.inl rfl

/-- Every operation but a replacement keeps what is stored, or clears it. -/
theorem kept_documentEffect (key : ByteString) (document : Option DocumentState) (op : StoreOp)
    (source : GzDiagnosticSource) (hreplace : ∀ update, op ≠ .replace update) :
    Kept source document (documentEffect stdSort key document op) := by
  have hcleared : ∀ cleared state, DocumentState.stored (clearSourceState cleared state) source =
      DocumentState.stored state source ∨
        DocumentState.stored (clearSourceState cleared state) source = [] := by
    intro cleared state
    rw [stored_clearSourceState]
    split_ifs
    · exact Or.inr rfl
    · exact Or.inl rfl
  cases op with
  | openDocument path => exact kept_ite (Or.inl (stored_openState document source))
  | advanceGeneration path =>
    refine kept_ite (kept_map (fun state ↦ ?_) document)
    exact Or.inl rfl
  | closeDocument path =>
    refine kept_ite (kept_map (fun state ↦ ?_) document)
    exact Or.inl rfl
  | replace update => exact absurd rfl (hreplace update)
  | clearSource path cleared => exact kept_ite (kept_map (hcleared cleared) document)
  | clearDocument path =>
    exact kept_ite (kept_map (fun state ↦ Or.inr (stored_clearState state source)) document)
  | clearAllFromSource cleared order => exact kept_map (hcleared cleared) document
  | removeDocument path => exact kept_ite (Or.inr rfl)
  | currentGeneration path => exact Or.inl rfl
  | snapshot path => exact Or.inl rfl
  | snapshotSource path source => exact Or.inl rfl
  | takeChangedDocuments => exact Or.inl rfl

/-- A list that is stored after a replacement was stored before it, or is the batch. -/
theorem stored_replace_cases (store : GzDiagnosticStore) (update : GzDiagnosticUpdate)
    (key : ByteString) (source : GzDiagnosticSource) :
    stored (step stdSort store (.replace update)) key source = stored store key source ∨
      stored (step stdSort store (.replace update)) key source =
        normalizeBatch stdSort update.diagnostics key := by
  rw [stored_step, stored, documentEffect]
  split_ifs
  · cases store.documents.lookup key with
    | none => exact Or.inl rfl
    | some state =>
      simp only [Option.map_some, Option.getD_some, stored_replaceState]
      split_ifs
      · exact Or.inr rfl
      · exact Or.inl rfl
  · exact Or.inl rfl

/-- A list that is stored after a call was stored before it, is empty, or is a replaced batch. -/
theorem stored_step_cases (store : GzDiagnosticStore) (op : StoreOp) (key : ByteString)
    (source : GzDiagnosticSource) :
    stored (step stdSort store op) key source = stored store key source ∨
      stored (step stdSort store op) key source = [] ∨
      ∃ update, op = .replace update ∧
        stored (step stdSort store op) key source =
          normalizeBatch stdSort update.diagnostics key := by
  by_cases hreplace : ∀ update, op ≠ .replace update
  · have hkept := kept_documentEffect stdSort key (store.documents.lookup key) op source hreplace
    rw [stored_step]
    exact hkept.imp_right Or.inl
  · push Not at hreplace
    obtain ⟨update, rfl⟩ := hreplace
    exact (stored_replace_cases stdSort store update key source).imp_right fun hbatch ↦
      Or.inr ⟨update, rfl, hbatch⟩

/-- What holds of the empty list and of every batch that a run submits holds of every list that is
stored at its end. -/
theorem stored_exec (property : ByteString → List GzDiagnostic → Prop)
    (hempty : ∀ key, property key []) (ops : List StoreOp)
    (hbatch : ∀ update, StoreOp.replace update ∈ ops → ∀ key,
      property key (normalizeBatch stdSort update.diagnostics key))
    (key : ByteString) (source : GzDiagnosticSource) :
    property key (stored (exec (step stdSort) {} ops) key source) := by
  induction ops using List.reverseRecOn with
  | nil => exact hempty key
  | append_singleton ops op ih =>
    rw [exec_concat]
    rcases stored_step_cases stdSort (exec (step stdSort) {} ops) op key source with
      hsame | hnone | ⟨update, rfl, hreplaced⟩
    · rw [hsame]
      exact ih fun update hupdate ↦ hbatch update (List.mem_append_left _ hupdate)
    · rw [hnone]
      exact hempty key
    · rw [hreplaced]
      exact hbatch update (List.mem_append_right _ List.mem_cons_self) key

end Gzscript.Diagnostics.Effect
