import Gzscript.Diagnostics.Diagnostic
import Gzscript.Diagnostics.Path
import Gzscript.Library.Transition
import Mathlib.Data.List.AList
import Mathlib.Data.Finset.Basic
import Mathlib.Data.List.Destutter

/-!
# The diagnostic store

`GzDiagnosticStore` maps document keys to a generation, a closed flag and one list of diagnostics
for each source, and keeps a deduplicated queue of changed documents. Every public operation takes
the lock once, so a run of the store under any interleaving of producers is a list of `StoreOp`s.

`std::sort` is a parameter (`stdSort`), because its result is not determined where two diagnostics
are equal for `gzDiagnosticLess`; the order in which an `std::unordered_map` visits its entries is
an argument of the one operation that iterates over it.
-/

set_option autoImplicit false
set_option relaxedAutoImplicit false

namespace Gzscript.Diagnostics.Store

open Library.Bytes Library.Sorting Library.Transition Diagnostics.Path Diagnostic

inductive GzDiagnosticUpdateResult
  | applied | stale | unknownDocument | futureGeneration
  deriving DecidableEq, Repr

/-- A complete, generation-tagged diagnostic set from one producer. -/
structure GzDiagnosticUpdate where
  documentPath : ByteString
  generation : UInt64 := 0
  source : GzDiagnosticSource := .gzScript
  diagnostics : List GzDiagnostic := []

structure GzDiagnosticStoreStats where
  replacesApplied : UInt64 := 0
  staleRejected : UInt64 := 0
  futureRejected : UInt64 := 0
  unknownRejected : UInt64 := 0
  updatesNoop : UInt64 := 0
  rangesNormalized : UInt64 := 0
  deriving DecidableEq, Repr

structure DocumentState where
  generation : UInt64 := 0
  closed : Bool := false
  bySource : GzDiagnosticSource → Option (List GzDiagnostic) := fun _ ↦ none

structure GzDiagnosticStore where
  documents : AList fun _ : ByteString ↦ DocumentState := ∅
  changedOrder : List ByteString := []
  changedSet : Finset ByteString := ∅
  stats : GzDiagnosticStoreStats := {}

/-! ### Normalisation of a batch -/

/-- A position as one 64-bit number, line above column. -/
def packPosition (position : GzSourcePosition) : UInt64 :=
  position.line.toUInt64 <<< 32 ||| position.column.toUInt64

/-- Whether the end of a range is before its start. -/
def rangeReversed (range : GzSourceRange) : Bool :=
  packPosition range.stop < packPosition range.start

/-- A reversed range collapses to its start. -/
def normalizeRange (range : GzSourceRange) : GzSourceRange :=
  if rangeReversed range then { range with stop := range.start } else range

/-- The rewriting of one diagnostic of a batch. -/
def normalizeDiagnostic (documentKey : ByteString) (diagnostic : GzDiagnostic) : GzDiagnostic :=
  { diagnostic with
    documentPath := documentKey
    range := normalizeRange diagnostic.range
    origin := { diagnostic.origin with
      name := if diagnostic.origin.name = [] then gzDiagnosticSourceName diagnostic.origin.kind
        else diagnostic.origin.name } }

variable (stdSort : SortAlgorithm gzDiagnosticLess)

/-- The batch a replacement stores: rewritten, sorted, consecutive equal diagnostics merged. -/
def normalizeBatch (diagnostics : List GzDiagnostic) (documentKey : ByteString) :
    List GzDiagnostic :=
  (stdSort.sort (diagnostics.map (normalizeDiagnostic documentKey))).destutter (· ≠ ·)

/-- The number of ranges `normalizeBatch` collapses. -/
def normalizedCount (diagnostics : List GzDiagnostic) : ℕ :=
  diagnostics.countP fun diagnostic ↦ rangeReversed diagnostic.range

/-! ### The operations -/

namespace GzDiagnosticStore

/-- Whether a document is registered under a key. -/
def Tracked (store : GzDiagnosticStore) (key : ByteString) : Prop :=
  (store.documents.lookup key).isSome

instance (store : GzDiagnosticStore) (key : ByteString) : Decidable (store.Tracked key) :=
  inferInstanceAs (Decidable (_ = true))

def openDocument (store : GzDiagnosticStore) (path : ByteString) : UInt64 × GzDiagnosticStore :=
  let key := gzNormalizeDocumentPath path
  let state := (store.documents.lookup key).getD {}
  let state := if state.generation = 0 then { state with generation := 1 } else state
  (state.generation, { store with documents := store.documents.insert key state })

def advanceGeneration (store : GzDiagnosticStore) (path : ByteString) :
    UInt64 × GzDiagnosticStore :=
  let key := gzNormalizeDocumentPath path
  match store.documents.lookup key with
  | none => (0, store)
  | some state =>
    let state := { state with generation := state.generation + 1 }
    (state.generation, { store with documents := store.documents.insert key state })

def currentGeneration (store : GzDiagnosticStore) (path : ByteString) : UInt64 :=
  match store.documents.lookup (gzNormalizeDocumentPath path) with
  | none => 0
  | some state => state.generation

def closeDocument (store : GzDiagnosticStore) (path : ByteString) : Bool × GzDiagnosticStore :=
  let key := gzNormalizeDocumentPath path
  match store.documents.lookup key with
  | none => (false, store)
  | some state =>
    (true, { store with documents := store.documents.insert key { state with closed := true } })

def markChangedLocked (store : GzDiagnosticStore) (documentKey : ByteString) :
    GzDiagnosticStore :=
  if documentKey ∈ store.changedSet then store
  else { store with
    changedSet := insert documentKey store.changedSet
    changedOrder := store.changedOrder ++ [documentKey] }

/-- The counter of collapsed ranges is bumped before the lock is taken. -/
def countNormalized (store : GzDiagnosticStore) (update : GzDiagnosticUpdate) :
    GzDiagnosticStore :=
  { store with stats := { store.stats with
    rangesNormalized :=
      store.stats.rangesNormalized + .ofNat (normalizedCount update.diagnostics) } }

def replace (store : GzDiagnosticStore) (update : GzDiagnosticUpdate) :
    GzDiagnosticUpdateResult × GzDiagnosticStore :=
  let key := gzNormalizeDocumentPath update.documentPath
  let batch := normalizeBatch stdSort update.diagnostics key
  let store := store.countNormalized update
  match store.documents.lookup key with
  | none => (.unknownDocument, { store with
      stats := { store.stats with unknownRejected := store.stats.unknownRejected + 1 } })
  | some state =>
    if update.generation < state.generation then
      (.stale, { store with
        stats := { store.stats with staleRejected := store.stats.staleRejected + 1 } })
    else if state.generation < update.generation then
      (.futureGeneration, { store with
        stats := { store.stats with futureRejected := store.stats.futureRejected + 1 } })
    else
      let current := (state.bySource update.source).getD []
      let stored (contents : List GzDiagnostic) : AList fun _ : ByteString ↦ DocumentState :=
        store.documents.insert key
          { state with bySource := Function.update state.bySource update.source (some contents) }
      if current = batch then
        -- `by_source[source]` has created the entry of a source that had none.
        (.applied, { store with
          documents := stored current
          stats := { store.stats with updatesNoop := store.stats.updatesNoop + 1 } })
      else
        let store := { store with documents := stored batch }.markChangedLocked key
        (.applied, { store with
          stats := { store.stats with replacesApplied := store.stats.replacesApplied + 1 } })

/-- Clearing one source of one document, the body shared by `clear_source` and
`clear_all_from_source`. -/
def clearStored (source : GzDiagnosticSource) (store : GzDiagnosticStore) (key : ByteString) :
    GzDiagnosticStore :=
  match store.documents.lookup key with
  | none => store
  | some state =>
    match state.bySource source with
    | none | some [] => store
    | some (_ :: _) =>
      let cleared := { state with bySource := Function.update state.bySource source (some []) }
      { store with documents := store.documents.insert key cleared }.markChangedLocked key

def clearSource (store : GzDiagnosticStore) (path : ByteString) (source : GzDiagnosticSource) :
    GzDiagnosticStore :=
  clearStored source store (gzNormalizeDocumentPath path)

/-- An entry of `by_source` after `clear_document`. -/
def clearEntry : Option (List GzDiagnostic) → Option (List GzDiagnostic)
  | none => none
  | some _ => some []

def clearDocument (store : GzDiagnosticStore) (path : ByteString) : GzDiagnosticStore :=
  let key := gzNormalizeDocumentPath path
  match store.documents.lookup key with
  | none => store
  | some state =>
    let hadAny := GzDiagnosticSource.all.any fun source ↦ (state.bySource source).getD [] ≠ []
    let cleared := { state with bySource := fun source ↦ clearEntry (state.bySource source) }
    let store := { store with documents := store.documents.insert key cleared }
    if hadAny then store.markChangedLocked key else store

/-- The order in which the documents are visited: `order` as far as it lists keys, then the rest.
Every permutation of the keys is the order of itself. -/
def visited (store : GzDiagnosticStore) (order : List ByteString) : List ByteString :=
  order.dedup.filter (· ∈ store.documents.keys) ++ store.documents.keys.filter (· ∉ order)

def clearAllFromSource (store : GzDiagnosticStore) (source : GzDiagnosticSource)
    (order : List ByteString) : GzDiagnosticStore :=
  (store.visited order).foldl (clearStored source) store

def removeDocument (store : GzDiagnosticStore) (path : ByteString) : GzDiagnosticStore :=
  let key := gzNormalizeDocumentPath path
  { store with
    documents := store.documents.erase key
    changedSet := store.changedSet.erase key
    changedOrder := store.changedOrder.filter (· ≠ key) }

def snapshot (store : GzDiagnosticStore) (path : ByteString) : GzDiagnosticSnapshot :=
  let key := gzNormalizeDocumentPath path
  match store.documents.lookup key with
  | none => { documentPath := key }
  | some state =>
    { documentPath := key
      generation := state.generation
      diagnostics := stableSort gzDiagnosticLess
        (GzDiagnosticSource.all.flatMap fun source ↦ (state.bySource source).getD []) }

def snapshotSource (store : GzDiagnosticStore) (path : ByteString)
    (source : GzDiagnosticSource) : GzDiagnosticSnapshot :=
  let key := gzNormalizeDocumentPath path
  match store.documents.lookup key with
  | none => { documentPath := key }
  | some state =>
    { documentPath := key
      generation := state.generation
      diagnostics := (state.bySource source).getD [] }

def takeChangedDocuments (store : GzDiagnosticStore) : List ByteString × GzDiagnosticStore :=
  (store.changedOrder, { store with changedOrder := [], changedSet := ∅ })

end GzDiagnosticStore

open GzDiagnosticStore

/-- A call of the store's interface. -/
inductive StoreOp
  | openDocument (path : ByteString)
  | advanceGeneration (path : ByteString)
  | currentGeneration (path : ByteString)
  | closeDocument (path : ByteString)
  | replace (update : GzDiagnosticUpdate)
  | clearSource (path : ByteString) (source : GzDiagnosticSource)
  | clearDocument (path : ByteString)
  | clearAllFromSource (source : GzDiagnosticSource) (order : List ByteString)
  | removeDocument (path : ByteString)
  | snapshot (path : ByteString)
  | snapshotSource (path : ByteString) (source : GzDiagnosticSource)
  | takeChangedDocuments

/-- What a call returns. -/
inductive StoreResult
  | done
  | generation (value : UInt64)
  | closed (found : Bool)
  | update (result : GzDiagnosticUpdateResult)
  | snapshot (contents : GzDiagnosticSnapshot)
  | changed (keys : List ByteString)
  deriving DecidableEq

/-- One call: its result and the store after it. -/
def call (store : GzDiagnosticStore) : StoreOp → StoreResult × GzDiagnosticStore
  | .openDocument path => (store.openDocument path).map .generation id
  | .advanceGeneration path => (store.advanceGeneration path).map .generation id
  | .currentGeneration path => (.generation (store.currentGeneration path), store)
  | .closeDocument path => (store.closeDocument path).map .closed id
  | .replace update => (store.replace stdSort update).map .update id
  | .clearSource path source => (.done, store.clearSource path source)
  | .clearDocument path => (.done, store.clearDocument path)
  | .clearAllFromSource source order => (.done, store.clearAllFromSource source order)
  | .removeDocument path => (.done, store.removeDocument path)
  | .snapshot path => (.snapshot (store.snapshot path), store)
  | .snapshotSource path source => (.snapshot (store.snapshotSource path source), store)
  | .takeChangedDocuments => store.takeChangedDocuments.map .changed id

/-- The store after one call. -/
def step (store : GzDiagnosticStore) (op : StoreOp) : GzDiagnosticStore :=
  (call stdSort store op).2

/-- The result of one call. -/
def result (store : GzDiagnosticStore) (op : StoreOp) : StoreResult :=
  (call stdSort store op).1

/-- A batch of one message for the first generation of `/game/a.zig`. -/
def sampleUpdate : GzDiagnosticUpdate where
  documentPath := ascii "/game/a.zig"
  generation := 1
  diagnostics := [{ message := ascii "a" }]

example : (exec (step referenceSort) {} [.openDocument (ascii "/game/a.zig"),
    .replace sampleUpdate]).changedOrder = [ascii "/game/a.zig"] := by decide +kernel

end Gzscript.Diagnostics.Store
