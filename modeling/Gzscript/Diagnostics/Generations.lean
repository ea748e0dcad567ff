import Gzscript.Diagnostics.Effect
import Mathlib.Algebra.GroupWithZero.Nat
import Mathlib.Data.List.DropRight

/-!
# Generations and the lives of a document

A producer obtains a generation for a path, and its later replacement is applied only if the
document still has that generation. Within one registration this excludes every update that an
advance has outdated, because the number only grows (`level_le_exec`, `level_advance`). A removal
forgets the number and a new registration starts again at 1, so a producer from an earlier life can
hold the number of the new one: `reissuedGeneration_applied` is such a run.

`noEarlierLifeApplied_iff` is the exact extent of this, in terms of the calls alone. A document is
registered by an `open_document` with no removal after it, and its number is one more than the
advances since (`numberAfter`). A run applies no update across an advance or a removal if and only
if no replacement comes when its document is registered and that number is its own modulo `2 ^ 64`,
after the number was given up in between: by a removal, or by the advance that wraps the 64-bit
counter. An advance that does not wrap never lets an earlier update through.
-/

set_option autoImplicit false
set_option relaxedAutoImplicit false

namespace Gzscript.Diagnostics.Generations

open Library.Bytes Library.Sorting Library.Transition Diagnostics.Path Diagnostic Store
  GzDiagnosticStore Effect

variable (stdSort : SortAlgorithm gzDiagnosticLess)

/-- The call hands a producer the generation `generation` for the document under a key. -/
def Obtains (store : GzDiagnosticStore) (op : StoreOp) (key : ByteString)
    (generation : UInt64) : Prop :=
  ∃ path, (op = .openDocument path ∨ op = .advanceGeneration path ∨
      op = .currentGeneration path) ∧
    gzNormalizeDocumentPath path = key ∧ result stdSort store op = .generation generation

/-- The call advances the generation of the document under a key. -/
def Advances (store : GzDiagnosticStore) (op : StoreOp) (key : ByteString) : Prop :=
  (∃ path, op = .advanceGeneration path ∧ gzNormalizeDocumentPath path = key) ∧
    store.Tracked key

/-- The call erases the document tracked under a key. -/
def Erases (store : GzDiagnosticStore) (op : StoreOp) (key : ByteString) : Prop :=
  (∃ path, op = .removeDocument path ∧ gzNormalizeDocumentPath path = key) ∧ store.Tracked key

/-- The generation of the document under a key, absent where it is not tracked. -/
def generationAt (store : GzDiagnosticStore) (key : ByteString) : Option UInt64 :=
  (store.documents.lookup key).map DocumentState.generation

/-- The replacement is applied. -/
def Applies (store : GzDiagnosticStore) (update : GzDiagnosticUpdate) : Prop :=
  result stdSort store (.replace update) = .update .applied

/-- The call advances the document past the largest 64-bit number. -/
def Wraps (store : GzDiagnosticStore) (op : StoreOp) (key : ByteString) : Prop :=
  Advances store op key ∧ generationAt store key = some (.ofNat (2 ^ 64 - 1))

/-- The call makes numbers that were handed out available again. -/
def Recycles (store : GzDiagnosticStore) (op : StoreOp) (key : ByteString) : Prop :=
  Erases store op key ∨ Wraps store op key

/-- In a run, every replacement that follows a call that obtained its generation for its document
and that `admits` in the store it meets comes with no call in between that `breaks` its document. -/
def NoneBetween (admits : GzDiagnosticStore → GzDiagnosticUpdate → Prop)
    (breaks : GzDiagnosticStore → StoreOp → ByteString → Prop) (ops : List StoreOp) : Prop :=
  ∀ before obtain early op late update after,
    ops = before ++ obtain :: early ++ op :: late ++ .replace update :: after →
    Obtains stdSort (exec (step stdSort) {} before) obtain
      (gzNormalizeDocumentPath update.documentPath) update.generation →
    admits (exec (step stdSort) {} (before ++ obtain :: early ++ op :: late)) update →
    ¬ breaks (exec (step stdSort) {} (before ++ obtain :: early)) op
      (gzNormalizeDocumentPath update.documentPath)

/-- No update from an earlier life of a document is applied: between the call that handed out the
generation and the applied replacement, no advance succeeded and no removal erased the document. -/
def NoEarlierLifeApplied (ops : List StoreOp) : Prop :=
  NoneBetween stdSort (Applies stdSort)
    (fun store op key ↦ Advances store op key ∨ Erases store op key) ops

/-- No replacement meets a document whose number equals its own again after it was recycled. -/
def NoGenerationMetAgain (ops : List StoreOp) : Prop :=
  NoneBetween stdSort
    (fun store update ↦
      generationAt store (gzNormalizeDocumentPath update.documentPath) = some update.generation)
    Recycles ops

/-! ### The number that the calls give a document -/

/-- The call registers the document under a key, if it is not registered. -/
def opens (key : ByteString) : StoreOp → Bool
  | .openDocument path => gzNormalizeDocumentPath path = key
  | _ => false

def advances (key : ByteString) : StoreOp → Bool
  | .advanceGeneration path => gzNormalizeDocumentPath path = key
  | _ => false

def removes (key : ByteString) : StoreOp → Bool
  | .removeDocument path => gzNormalizeDocumentPath path = key
  | _ => false

/-- The call asks for the generation of the document under a key. -/
def asks (key : ByteString) : StoreOp → Bool
  | .openDocument path | .advanceGeneration path | .currentGeneration path =>
    gzNormalizeDocumentPath path = key
  | _ => false

/-- The calls from the latest registration of a document on. Empty if no `open_document` came since
it was removed. -/
def lifeOf (key : ByteString) (calls : List StoreOp) : List StoreOp :=
  (calls.rtakeWhile fun op ↦ !removes key op).dropWhile fun op ↦ !opens key op

/-- One more call in the life of a document. The registration and every advance count; an
`open_document` passes over the multiples of `2 ^ 64`, which stand for no generation. -/
def count (key : ByteString) (number : ℕ) (op : StoreOp) : ℕ :=
  if opens key op then if number % 2 ^ 64 = 0 then number + 1 else number
  else if advances key op then number + 1 else number

/-- One more than the advances of a document since its latest registration. -/
def numberAfter (key : ByteString) (calls : List StoreOp) : ℕ :=
  (lifeOf key calls).foldl (count key) 0

def Registered (key : ByteString) (calls : List StoreOp) : Prop := lifeOf key calls ≠ []

/-- After these calls, the call gives up the number that a document has: it removes it, or advances
it to a multiple of `2 ^ 64`. -/
def GivesUp (key : ByteString) (calls : List StoreOp) (op : StoreOp) : Prop :=
  Registered key calls ∧
    (removes key op ∨ advances key op ∧ (numberAfter key calls + 1) % 2 ^ 64 = 0)

/-- In a run, no replacement by a producer that has asked for a generation comes when the document
is registered with that number modulo `2 ^ 64`, but has given it up in between. -/
def NoNumberReissued (ops : List StoreOp) : Prop :=
  ∀ before obtain early op late update after key,
    ops = before ++ obtain :: early ++ op :: late ++ .replace update :: after →
    gzNormalizeDocumentPath update.documentPath = key →
    asks key obtain → numberAfter key (before ++ [obtain]) % 2 ^ 64 = update.generation.toNat →
    Registered key (before ++ obtain :: early ++ op :: late) →
    numberAfter key (before ++ obtain :: early ++ op :: late) % 2 ^ 64 =
      update.generation.toNat →
    ¬ GivesUp key (before ++ obtain :: early) op

/-! ### One call -/

theorem applies_iff (store : GzDiagnosticStore) (update : GzDiagnosticUpdate) :
    Applies stdSort store update ↔
      generationAt store (gzNormalizeDocumentPath update.documentPath) =
        some update.generation := by
  simp only [Applies, result, call, Prod.map_fst, StoreResult.update.injEq, generationAt]
  cases hlookup : store.documents.lookup (gzNormalizeDocumentPath update.documentPath) with
  | none => simp [(replace_unknown stdSort store update hlookup).1]
  | some state =>
    by_cases hgeneration : update.generation = state.generation
    · simp [(replace_current stdSort store update state hlookup hgeneration).1, hgeneration]
    · simp [(replace_outdated stdSort store update state hlookup hgeneration).1,
        Ne.symm hgeneration]

/-- The generation as a number, zero where the document is not tracked. -/
def level (store : GzDiagnosticStore) (key : ByteString) : ℕ :=
  ((generationAt store key).map UInt64.toNat).getD 0

theorem level_eq (store : GzDiagnosticStore) (key : ByteString) :
    level store key = (((store.documents.lookup key).map DocumentState.generation).map
      UInt64.toNat).getD 0 := rfl

theorem toNat_succ {generation : UInt64} (h : generation ≠ .ofNat (2 ^ 64 - 1)) :
    (generation + 1).toNat = generation.toNat + 1 := by
  have hlt := generation.toNat_lt
  have hne : generation.toNat ≠ 2 ^ 64 - 1 := fun heq ↦ h (by
    rw [← UInt64.toNat_inj, heq]
    rfl)
  rw [UInt64.toNat_add]
  exact Nat.mod_eq_of_lt (by simp only [UInt64.toNat_one]; omega)

theorem level_advance (store : GzDiagnosticStore) (op : StoreOp) (key : ByteString)
    (hadvances : Advances store op key) (hrecycles : ¬ Recycles store op key) :
    level (step stdSort store op) key = level store key + 1 := by
  have hmax : generationAt store key ≠ some (.ofNat (2 ^ 64 - 1)) := fun h ↦
    hrecycles (Or.inr ⟨hadvances, h⟩)
  obtain ⟨⟨path, rfl, hkey⟩, htracked⟩ := hadvances
  obtain ⟨state, hlookup⟩ := Option.isSome_iff_exists.mp htracked
  have hne : state.generation ≠ .ofNat (2 ^ 64 - 1) := fun h ↦ hmax (by
    rw [generationAt, hlookup, Option.map_some, h])
  rw [level_eq, level_eq, lookup_step, documentEffect, if_pos hkey, hlookup]
  exact toNat_succ hne

/-- A call that recycles nothing never lowers the number of a document. -/
theorem level_le_step (store : GzDiagnosticStore) (op : StoreOp) (key : ByteString)
    (hrecycles : ¬ Recycles store op key) :
    level store key ≤ level (step stdSort store op) key := by
  by_cases hadvances : Advances store op key
  · rw [level_advance stdSort store op key hadvances hrecycles]
    exact Nat.le_succ _
  rw [level_eq, level_eq, lookup_step]
  cases hlookup : store.documents.lookup key with
  | none => exact Nat.zero_le _
  | some state =>
    have htracked : store.Tracked key := by rw [Tracked, hlookup]; rfl
    cases op with
    | openDocument path =>
      simp only [documentEffect]
      split_ifs
      · simp only [openState, Option.map_some, Option.getD_some]
        split_ifs with hzero
        · simp [hzero]
        · exact Nat.le_refl _
      · exact Nat.le_refl _
    | advanceGeneration path =>
      have hkey : gzNormalizeDocumentPath path ≠ key := fun h ↦
        hadvances ⟨⟨path, rfl, h⟩, htracked⟩
      rw [documentEffect, if_neg hkey]
    | removeDocument path =>
      have hkey : gzNormalizeDocumentPath path ≠ key := fun h ↦
        hrecycles (Or.inl ⟨⟨path, rfl, h⟩, htracked⟩)
      rw [documentEffect, if_neg hkey]
    | _ => rw [documentEffect_generation] <;> simp

/-- A call that hands out a generation leaves the document with it. -/
theorem level_obtains (store : GzDiagnosticStore) (op : StoreOp) (key : ByteString)
    (generation : UInt64) (hobtains : Obtains stdSort store op key generation) :
    level (step stdSort store op) key = generation.toNat := by
  obtain ⟨path, hop, rfl, hresult⟩ := hobtains
  rcases hop with rfl | rfl | rfl
  · simp only [result, call, openDocument, Prod.map_fst, StoreResult.generation.injEq] at hresult
    rw [level_eq, lookup_step, documentEffect, if_pos rfl, ← hresult]
    cases store.documents.lookup (gzNormalizeDocumentPath path) <;> rfl
  · simp only [result, call, advanceGeneration, Prod.map_fst] at hresult
    rw [level_eq, lookup_step, documentEffect, if_pos rfl]
    cases hlookup : store.documents.lookup (gzNormalizeDocumentPath path) with
    | none =>
      rw [hlookup] at hresult
      rw [← StoreResult.generation.inj hresult]
      rfl
    | some state =>
      rw [hlookup] at hresult
      rw [← StoreResult.generation.inj hresult]
      rfl
  · simp only [result, call, GzDiagnosticStore.currentGeneration,
      StoreResult.generation.injEq] at hresult
    rw [level_eq, lookup_step, documentEffect, ← hresult]
    cases store.documents.lookup (gzNormalizeDocumentPath path) <;> rfl

/-! ### Runs -/

/-- A run that recycles nothing never lowers the number of a document. -/
theorem level_le_exec (store : GzDiagnosticStore) (ops : List StoreOp) (key : ByteString)
    (hkept : Along (step stdSort) (fun store op ↦ ¬ Recycles store op key) store ops) :
    level store key ≤ level (exec (step stdSort) store ops) key :=
  exec_relation (step stdSort) (fun store op ↦ ¬ Recycles store op key)
    (fun before after ↦ level before key ≤ level after key)
    (fun _ ↦ Nat.le_refl _) (fun _ _ _ ↦ Nat.le_trans)
    (fun state op hop ↦ level_le_step stdSort state op key hop) hkept

/-- In every run, no update from an earlier life of a document is applied if and only if no
replacement meets its own generation again after that number was recycled. -/
theorem noEarlierLifeApplied_iff_metAgain (ops : List StoreOp) :
    NoEarlierLifeApplied stdSort ops ↔ NoGenerationMetAgain stdSort ops := by
  constructor
  · intro hclaim before obtain early op late update after hops hobtains hgeneration hrecycles
    refine hclaim before obtain early op late update after hops hobtains
      ((applies_iff stdSort _ update).mpr hgeneration) ?_
    rcases hrecycles with herases | ⟨hadvances, -⟩
    · exact Or.inr herases
    · exact Or.inl hadvances
  · intro hmet before obtain early op late update after hops hobtains happlies hbreaks
    have hgeneration := (applies_iff stdSort _ update).mp happlies
    have hend : level (exec (step stdSort) {} (before ++ obtain :: early ++ op :: late))
        (gzNormalizeDocumentPath update.documentPath) = update.generation.toNat := by
      rw [level, hgeneration]
      rfl
    -- Nothing between the two calls recycles the number, wherever the run is split.
    have hnone : Along (step stdSort)
        (fun store next ↦ ¬ Recycles store next (gzNormalizeDocumentPath update.documentPath))
        (step stdSort (exec (step stdSort) {} before) obtain) (early ++ op :: late) := by
      refine (along_iff_split _ _ _ _).mpr fun first next last heq ↦ ?_
      have hsame : before ++ obtain :: early ++ op :: late =
          before ++ obtain :: first ++ next :: last := by
        rw [List.append_assoc, List.cons_append, heq, List.append_assoc, List.cons_append]
      have hstep := hmet before obtain first next last update after (by rw [hops, hsame]) hobtains
        (by rw [← hsame]; exact hgeneration)
      rwa [exec_append, exec_cons] at hstep
    rw [List.append_assoc, exec_append, List.cons_append, exec_cons, exec_append, exec_cons] at hend
    rw [exec_append, exec_cons] at hbreaks
    obtain ⟨hearly, hop, hlate⟩ := (along_append _ _ _ early (op :: late)).mp hnone
    have hadvances := hbreaks.resolve_right fun herases ↦ hop (Or.inl herases)
    have hstart := level_obtains stdSort _ obtain _ _ hobtains
    have hbefore := level_le_exec stdSort _ early _ hearly
    have hadvanced := level_advance stdSort _ op _ hadvances hop
    have hafter := level_le_exec stdSort _ late _ hlate
    omega

/-! ### The calls and the store -/

/-- The life of a document after one more call. -/
theorem lifeOf_concat (key : ByteString) (calls : List StoreOp) (op : StoreOp) :
    lifeOf key (calls ++ [op]) =
      if removes key op then []
      else if lifeOf key calls = [] then if opens key op then [op] else []
      else lifeOf key calls ++ [op] := by
  rw [lifeOf, List.rtakeWhile_concat]
  cases hremoves : removes key op with
  | true => simp
  | false =>
    simp only [Bool.not_false, if_true, Bool.false_eq_true, if_false, List.dropWhile_append,
      List.isEmpty_iff]
    change (if lifeOf key calls = [] then _ else lifeOf key calls ++ [op]) = _
    cases hopens : opens key op <;> simp [hopens]

theorem numberAfter_concat {key : ByteString} {calls : List StoreOp} (op : StoreOp)
    (hremoves : removes key op = false) (hregistered : Registered key calls) :
    numberAfter key (calls ++ [op]) = count key (numberAfter key calls) op := by
  rw [numberAfter, lifeOf_concat, hremoves, if_neg Bool.false_ne_true, if_neg hregistered,
    List.foldl_append]
  rfl

/-- What the calls say of the generation of a document. -/
def generationOf (key : ByteString) (calls : List StoreOp) : Option UInt64 :=
  if lifeOf key calls = [] then none else some (.ofNat (numberAfter key calls))

theorem ofNat_eq_zero_iff (number : ℕ) : UInt64.ofNat number = 0 ↔ number % 2 ^ 64 = 0 := by
  rw [← UInt64.toNat_inj, UInt64.toNat_ofNat']
  rfl

/-- A call that neither removes, nor advances, nor registers the document. -/
theorem generationOf_other {key : ByteString} (calls : List StoreOp) {op : StoreOp}
    (hopens : opens key op = false) (hadvances : advances key op = false)
    (hremoves : removes key op = false) :
    generationOf key (calls ++ [op]) = generationOf key calls := by
  by_cases hlife : lifeOf key calls = []
  · simp [generationOf, lifeOf_concat, hremoves, hopens, hlife]
  · have hafter : lifeOf key (calls ++ [op]) ≠ [] := by
      simp [lifeOf_concat, hremoves, hlife]
    have hnumber : numberAfter key (calls ++ [op]) = numberAfter key calls := by
      rw [numberAfter_concat op hremoves hlife, count, hopens, hadvances]
      simp
    rw [generationOf, generationOf, if_neg hafter, if_neg hlife, hnumber]

theorem generationOf_open {path : ByteString} (calls : List StoreOp)
    {document : Option DocumentState}
    (h : document.map DocumentState.generation =
      generationOf (gzNormalizeDocumentPath path) calls) :
    some (openState document).generation =
      generationOf (gzNormalizeDocumentPath path) (calls ++ [.openDocument path]) := by
  have hopens : opens (gzNormalizeDocumentPath path) (.openDocument path) = true := by
    simp [opens]
  by_cases hlife : lifeOf (gzNormalizeDocumentPath path) calls = []
  · rw [generationOf, if_pos hlife, Option.map_eq_none_iff] at h
    rw [h, generationOf, numberAfter, lifeOf_concat, hlife, hopens]
    simp [removes, openState, count, hopens]
  · rw [generationOf, if_neg hlife] at h
    obtain ⟨state, rfl, hstate⟩ := Option.map_eq_some_iff.mp h
    have hafter : lifeOf (gzNormalizeDocumentPath path) (calls ++ [.openDocument path]) ≠ [] := by
      simp [lifeOf_concat, removes, hlife]
    rw [generationOf, if_neg hafter, numberAfter_concat _ rfl hlife, count, if_pos hopens,
      openState, hstate]
    by_cases hzero : numberAfter (gzNormalizeDocumentPath path) calls % 2 ^ 64 = 0
    · have hone := (ofNat_eq_zero_iff _).mpr hzero
      rw [if_pos hone, if_pos hzero, UInt64.ofNat_add, hone]
      rfl
    · rw [if_neg fun hone ↦ hzero ((ofNat_eq_zero_iff _).mp hone), if_neg hzero, hstate]

theorem generationOf_advance {path : ByteString} (calls : List StoreOp)
    {document : Option DocumentState}
    (h : document.map DocumentState.generation =
      generationOf (gzNormalizeDocumentPath path) calls) :
    document.map (·.generation + 1) =
      generationOf (gzNormalizeDocumentPath path) (calls ++ [.advanceGeneration path]) := by
  by_cases hlife : lifeOf (gzNormalizeDocumentPath path) calls = []
  · rw [generationOf, if_pos hlife, Option.map_eq_none_iff] at h
    simp [h, generationOf, lifeOf_concat, removes, opens, hlife]
  · rw [generationOf, if_neg hlife] at h
    obtain ⟨state, rfl, hstate⟩ := Option.map_eq_some_iff.mp h
    have hafter :
        lifeOf (gzNormalizeDocumentPath path) (calls ++ [.advanceGeneration path]) ≠ [] := by
      simp [lifeOf_concat, removes, hlife]
    rw [generationOf, if_neg hafter, numberAfter_concat _ rfl hlife, Option.map_some, hstate]
    simp [count, opens, advances, UInt64.ofNat_add]

/-- The generation of a document is the number that the calls give it. -/
theorem generationAt_exec (calls : List StoreOp) (key : ByteString) :
    generationAt (exec (step stdSort) {} calls) key = generationOf key calls := by
  induction calls using List.reverseRecOn with
  | nil => rfl
  | append_singleton calls op ih =>
    rw [exec_concat, generationAt, lookup_step]
    rw [generationAt] at ih
    cases op with
    | openDocument path =>
      by_cases hkey : gzNormalizeDocumentPath path = key
      · subst hkey
        rw [documentEffect, if_pos rfl, Option.map_some]
        exact generationOf_open calls ih
      · rw [documentEffect, if_neg hkey, ih, generationOf_other calls _ rfl rfl]
        simp [opens, hkey]
    | advanceGeneration path =>
      by_cases hkey : gzNormalizeDocumentPath path = key
      · subst hkey
        rw [documentEffect, if_pos rfl, Option.map_map]
        exact generationOf_advance calls ih
      · rw [documentEffect, if_neg hkey, ih, generationOf_other calls rfl _ rfl]
        simp [advances, hkey]
    | removeDocument path =>
      by_cases hkey : gzNormalizeDocumentPath path = key
      · rw [documentEffect, if_pos hkey, Option.map_none, generationOf, lifeOf_concat]
        simp [removes, hkey]
      · rw [documentEffect, if_neg hkey, ih, generationOf_other calls rfl rfl]
        simp [removes, hkey]
    | _ =>
      rw [documentEffect_generation _ _ _ _ (by simp) (by simp) (by simp), ih,
        generationOf_other calls rfl rfl rfl]

theorem tracked_exec (calls : List StoreOp) (key : ByteString) :
    (exec (step stdSort) {} calls).Tracked key ↔ Registered key calls := by
  have hgeneration := generationAt_exec stdSort calls key
  rw [Tracked, Registered, ← Option.isSome_map, ← generationAt, hgeneration, generationOf]
  by_cases hlife : lifeOf key calls = [] <;> simp [hlife]

/-- A document has a generation if it is registered and has its number modulo `2 ^ 64`. -/
theorem generationAt_exec_iff (calls : List StoreOp) (key : ByteString) (generation : UInt64) :
    generationAt (exec (step stdSort) {} calls) key = some generation ↔
      Registered key calls ∧ numberAfter key calls % 2 ^ 64 = generation.toNat := by
  rw [generationAt_exec, generationOf, Registered]
  by_cases hlife : lifeOf key calls = []
  · simp [hlife]
  · simp [hlife, ← UInt64.toNat_inj]

/-- The number is zero where there is no document. -/
theorem level_exec (calls : List StoreOp) (key : ByteString) :
    level (exec (step stdSort) {} calls) key = numberAfter key calls % 2 ^ 64 := by
  rw [level, generationAt_exec, generationOf]
  by_cases hlife : lifeOf key calls = []
  · simp [hlife, numberAfter]
  · simp [hlife]

theorem asks_iff (op : StoreOp) (key : ByteString) :
    asks key op = true ↔ ∃ path, (op = .openDocument path ∨ op = .advanceGeneration path ∨
      op = .currentGeneration path) ∧ gzNormalizeDocumentPath path = key := by
  cases op <;> simp [asks]

/-- A producer has a generation from a call exactly if the calls give it that number. -/
theorem obtains_exec_iff (calls : List StoreOp) (op : StoreOp) (key : ByteString)
    (generation : UInt64) :
    Obtains stdSort (exec (step stdSort) {} calls) op key generation ↔
      asks key op ∧ numberAfter key (calls ++ [op]) % 2 ^ 64 = generation.toNat := by
  rw [← level_exec stdSort, exec_concat]
  constructor
  · intro hobtains
    refine ⟨?_, level_obtains stdSort _ op key generation hobtains⟩
    obtain ⟨path, hop, hkey, -⟩ := hobtains
    exact (asks_iff op key).mpr ⟨path, hop, hkey⟩
  · rintro ⟨hasks, hlevel⟩
    obtain ⟨path, hop, hkey⟩ := (asks_iff op key).mp hasks
    have hgiven : ∃ given,
        result stdSort (exec (step stdSort) {} calls) op = .generation given := by
      rcases hop with rfl | rfl | rfl
      · exact ⟨_, rfl⟩
      · exact ⟨_, rfl⟩
      · exact ⟨_, rfl⟩
    obtain ⟨given, hgiven⟩ := hgiven
    have hobtains : Obtains stdSort (exec (step stdSort) {} calls) op key given :=
      ⟨path, hop, hkey, hgiven⟩
    have hsame := level_obtains stdSort _ op key given hobtains
    rw [hlevel, UInt64.toNat_inj] at hsame
    rw [hsame]
    exact hobtains

theorem recycles_exec_iff (calls : List StoreOp) (op : StoreOp) (key : ByteString) :
    Recycles (exec (step stdSort) {} calls) op key ↔ GivesUp key calls op := by
  have hremoves : removes key op = true ↔
      ∃ path, op = .removeDocument path ∧ gzNormalizeDocumentPath path = key := by
    cases op <;> simp [removes]
  have hadvances : advances key op = true ↔
      ∃ path, op = .advanceGeneration path ∧ gzNormalizeDocumentPath path = key := by
    cases op <;> simp [advances]
  have hwraps : numberAfter key calls % 2 ^ 64 = (UInt64.ofNat (2 ^ 64 - 1)).toNat ↔
      (numberAfter key calls + 1) % 2 ^ 64 = 0 := by
    rw [UInt64.toNat_ofNat']
    omega
  rw [Recycles, Erases, Wraps, Advances, tracked_exec, generationAt_exec_iff, hwraps, GivesUp,
    ← hremoves, ← hadvances]
  constructor
  · rintro (⟨hremove, hregistered⟩ | ⟨⟨hadvance, hregistered⟩, -, hzero⟩)
    · exact ⟨hregistered, .inl hremove⟩
    · exact ⟨hregistered, .inr ⟨hadvance, hzero⟩⟩
  · rintro ⟨hregistered, hremove | ⟨hadvance, hzero⟩⟩
    · exact .inl ⟨hremove, hregistered⟩
    · exact .inr ⟨⟨hadvance, hregistered⟩, hregistered, hzero⟩

/-- In every run, no update from an earlier life of a document is applied if and only if no
replacement comes when its document is registered with the number it was made for, which the
document has given up in between. -/
theorem noEarlierLifeApplied_iff (ops : List StoreOp) :
    NoEarlierLifeApplied stdSort ops ↔ NoNumberReissued ops := by
  rw [noEarlierLifeApplied_iff_metAgain]
  constructor
  · intro hmet before obtain early op late update after key hops hkey hasks hobtained
      hregistered hnumber hgivesUp
    subst hkey
    refine hmet before obtain early op late update after hops
      ((obtains_exec_iff stdSort before obtain _ _).mpr ⟨hasks, hobtained⟩)
      ((generationAt_exec_iff stdSort _ _ _).mpr ⟨hregistered, hnumber⟩) ?_
    exact (recycles_exec_iff stdSort _ op _).mpr hgivesUp
  · intro hreissued before obtain early op late update after hops hobtains hgeneration hrecycles
    obtain ⟨hasks, hobtained⟩ := (obtains_exec_iff stdSort before obtain _ _).mp hobtains
    obtain ⟨hregistered, hnumber⟩ := (generationAt_exec_iff stdSort _ _ _).mp hgeneration
    exact hreissued before obtain early op late update after _ hops rfl hasks hobtained
      hregistered hnumber ((recycles_exec_iff stdSort _ op _).mp hrecycles)

/-- A document is registered (generation 1), removed and registered again (generation 1): the
replacement of a producer that holds the first number is applied to the second registration. -/
theorem reissuedGeneration_applied :
    ¬ NoEarlierLifeApplied referenceSort
      [.openDocument (ascii "/game/a.zig"), .removeDocument (ascii "/game/a.zig"),
        .openDocument (ascii "/game/a.zig"), .replace sampleUpdate] := by
  intro hclaim
  refine hclaim [] (.openDocument (ascii "/game/a.zig")) []
    (.removeDocument (ascii "/game/a.zig")) [.openDocument (ascii "/game/a.zig")]
    sampleUpdate [] rfl ⟨_, Or.inl rfl, rfl, ?_⟩ ?_ (Or.inr ⟨⟨_, rfl, rfl⟩, ?_⟩)
  · decide +kernel
  · exact (applies_iff _ _ _).mpr (by decide +kernel)
  · decide +kernel

end Gzscript.Diagnostics.Generations
