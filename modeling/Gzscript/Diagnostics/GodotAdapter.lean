import Gzscript.Diagnostics.Representation
import Gzscript.Diagnostics.SnapshotMerge

/-!
# Diagnostics for the script editor

`godotErrorList` and `godotWarningList` split a snapshot by severity and count lines and columns
from one. The editor reads these as 32-bit numbers, and so a position is clamped to `int32` first.
But the shift comes after the clamp: a position of `2 ^ 31 - 1` or more comes out as `2 ^ 31`
(`last_line_out_of_range`).

`EditorLists` has what the two lists should meet. All but the upper bound holds of every snapshot a
store gives in any run, since every stored list is sorted and has its ranges in order
(`storedList_exec`), and the bound holds exactly if every position that the lists read is below
`2 ^ 31 - 1`. Where all batches that a run submits are of this kind, the lists are in order in every
state it reaches (`editorLists_iff`).
-/

set_option autoImplicit false
set_option relaxedAutoImplicit false

namespace Gzscript.Diagnostics.GodotAdapter

open Library.Bytes Library.Sorting Library.Transition Diagnostics.Path Diagnostic Store
  GzDiagnosticStore Effect Diagnostics.Representation SnapshotMerge

/-! ### The lists -/

def clampPosition (value : UInt32) : Int64 :=
  (min value.toUInt64 2147483647).toInt64

def godotLine (zeroBased : UInt32) : Int64 := clampPosition zeroBased + 1

def godotColumn (zeroBased : UInt32) : Int64 := clampPosition zeroBased + 1

structure GodotError (GodotString : Type) where
  path : GodotString
  line : Int64
  column : Int64
  message : GodotString

structure GodotWarning (GodotString : Type) where
  startLine : Int64
  endLine : Int64
  stringCode : GodotString
  message : GodotString

def gzDiagnosticSnapshotValid (snapshot : GzDiagnosticSnapshot) : Bool :=
  snapshot.diagnostics.all fun diagnostic ↦ diagnostic.severity ≠ .error

variable {GodotString : Type} (utf8 : ByteString → GodotString)

def errorEntry (displayPath : GodotString) (diagnostic : GzDiagnostic) :
    GodotError GodotString where
  path := displayPath
  line := godotLine diagnostic.range.start.line
  column := godotColumn diagnostic.range.start.column
  message := utf8 diagnostic.message

def warningEntry (diagnostic : GzDiagnostic) : GodotWarning GodotString where
  startLine := godotLine diagnostic.range.start.line
  endLine := godotLine diagnostic.range.stop.line
  stringCode := utf8 diagnostic.code
  message := utf8 diagnostic.message

def godotErrorList (snapshot : GzDiagnosticSnapshot) (displayPath : GodotString) :
    List (GodotError GodotString) :=
  snapshot.diagnostics.foldl (fun errors diagnostic ↦
    if diagnostic.severity ≠ .error then errors
    else errors ++ [errorEntry utf8 displayPath diagnostic]) []

def godotWarningList (snapshot : GzDiagnosticSnapshot) : List (GodotWarning GodotString) :=
  snapshot.diagnostics.foldl (fun warnings diagnostic ↦
    if diagnostic.severity = .error then warnings
    else warnings ++ [warningEntry utf8 diagnostic]) []

/-! ### Their specification -/

/-- A line or column that the editor can show. -/
def InEditorRange (position : Int64) : Prop := 1 ≤ position ∧ position ≤ 2147483647

/-- What the lists of a snapshot should meet. -/
structure EditorLists (displayPath : GodotString) (snapshot : GzDiagnosticSnapshot) : Prop where
  errorsInRange : ∀ entry ∈ godotErrorList utf8 snapshot displayPath,
    InEditorRange entry.line ∧ InEditorRange entry.column
  warningsInRange : ∀ entry ∈ godotWarningList utf8 snapshot,
    InEditorRange entry.startLine ∧ InEditorRange entry.endLine
  linesOrdered : ∀ entry ∈ godotWarningList utf8 snapshot, entry.startLine ≤ entry.endLine
  errorsSorted : (godotErrorList utf8 snapshot displayPath).Pairwise fun first second ↦
    first.line ≤ second.line
  warningsSorted : (godotWarningList utf8 snapshot).Pairwise fun first second ↦
    first.startLine ≤ second.startLine
  /-- Each diagnostic has its entry in one of the lists, in the order of the snapshot. -/
  entries : ∃ errors warnings : List GzDiagnostic, (errors ++ warnings).Perm snapshot.diagnostics ∧
    errors.Sublist snapshot.diagnostics ∧ warnings.Sublist snapshot.diagnostics ∧
    godotErrorList utf8 snapshot displayPath = errors.map (errorEntry utf8 displayPath) ∧
    godotWarningList utf8 snapshot = warnings.map (warningEntry utf8)
  emptyIff : godotErrorList utf8 snapshot displayPath = [] ↔
    gzDiagnosticSnapshotValid snapshot = true

/-- The positions of a diagnostic that its entry has are below the greatest `int32`. -/
def Fits (diagnostic : GzDiagnostic) : Prop :=
  diagnostic.range.start.line < 2147483647 ∧
    if diagnostic.severity = .error then diagnostic.range.start.column < 2147483647
    else diagnostic.range.stop.line < 2147483647

instance (diagnostic : GzDiagnostic) : Decidable (Fits diagnostic) :=
  inferInstanceAs (Decidable (_ ∧ _))

/-- A snapshot that a store gives for a document or for one source of it. -/
def SnapshotOf (store : GzDiagnosticStore) (snapshot : GzDiagnosticSnapshot) : Prop :=
  ∃ path, snapshot = store.snapshot path ∨
    ∃ source, snapshot = store.snapshotSource path source

/-! ### Positions -/

theorem clampPosition_toInt (value : UInt32) :
    (clampPosition value).toInt = min (value.toNat : ℤ) 2147483647 := by
  have hmin : (min value.toUInt64 2147483647).toNat = min value.toNat 2147483647 := by
    rw [UInt64.toNat_min]
    rfl
  have hsmall : 2 * (min value.toUInt64 2147483647).toBitVec.toNat < 2 ^ 64 := by
    rw [UInt64.toNat_toBitVec, hmin]
    omega
  change (min value.toUInt64 2147483647).toBitVec.toInt = _
  rw [BitVec.toInt_eq_toNat_of_lt hsmall, UInt64.toNat_toBitVec, hmin]
  omega

theorem godotLine_toInt (zeroBased : UInt32) :
    (godotLine zeroBased).toInt = min (zeroBased.toNat : ℤ) 2147483647 + 1 := by
  rw [godotLine, Int64.toInt_add, clampPosition_toInt, Int64.toInt_one]
  refine Int.bmod_eq_of_le ?_ ?_ <;> omega

theorem inEditorRange_godotLine (zeroBased : UInt32) :
    InEditorRange (godotLine zeroBased) ↔ zeroBased < 2147483647 := by
  rw [InEditorRange, Int64.le_iff_toInt_le, Int64.le_iff_toInt_le, godotLine_toInt,
    UInt32.lt_iff_toNat_lt]
  have hone : (1 : Int64).toInt = 1 := rfl
  have hmax : (2147483647 : Int64).toInt = 2147483647 := rfl
  have hbound : (2147483647 : UInt32).toNat = 2147483647 := rfl
  omega

theorem godotLine_mono {first second : UInt32} (hle : first ≤ second) :
    godotLine first ≤ godotLine second := by
  rw [Int64.le_iff_toInt_le, godotLine_toInt, godotLine_toInt]
  have hle' : first.toNat ≤ second.toNat := hle
  omega

/-! ### The lists of a snapshot -/

/-- A loop that passes over some elements and appends an entry for each of the others. -/
theorem foldl_entries {α β : Type} (skip : α → Prop) [DecidablePred skip] (entry : α → β)
    (elements : List α) (entries : List β) :
    elements.foldl (fun entries element ↦
        if skip element then entries else entries ++ [entry element]) entries =
      entries ++ (elements.filter fun element ↦ ¬ skip element).map entry := by
  induction elements generalizing entries with
  | nil => simp
  | cons element elements ih =>
    rw [List.foldl_cons, ih]
    by_cases hskip : skip element <;> simp [hskip]

/-- The diagnostics that a snapshot lists as errors. -/
def errorsOf (snapshot : GzDiagnosticSnapshot) : List GzDiagnostic :=
  snapshot.diagnostics.filter fun diagnostic ↦ diagnostic.severity = .error

/-- The diagnostics that a snapshot lists as warnings. -/
def warningsOf (snapshot : GzDiagnosticSnapshot) : List GzDiagnostic :=
  snapshot.diagnostics.filter fun diagnostic ↦ diagnostic.severity ≠ .error

theorem godotErrorList_eq (snapshot : GzDiagnosticSnapshot) (displayPath : GodotString) :
    godotErrorList utf8 snapshot displayPath =
      (errorsOf snapshot).map (errorEntry utf8 displayPath) := by
  rw [godotErrorList, foldl_entries, List.nil_append]
  simp only [ne_eq, not_not]
  rfl

theorem godotWarningList_eq (snapshot : GzDiagnosticSnapshot) :
    godotWarningList utf8 snapshot = (warningsOf snapshot).map (warningEntry utf8) := by
  rw [godotWarningList, foldl_entries, List.nil_append]
  rfl

theorem errorsOf_eq_nil (snapshot : GzDiagnosticSnapshot) :
    errorsOf snapshot = [] ↔ gzDiagnosticSnapshotValid snapshot = true := by
  simp [errorsOf, gzDiagnosticSnapshotValid, List.filter_eq_nil_iff]

theorem errors_append_warnings (snapshot : GzDiagnosticSnapshot) :
    (errorsOf snapshot ++ warningsOf snapshot).Perm snapshot.diagnostics := by
  have hperm := List.filter_append_perm
    (fun diagnostic : GzDiagnostic ↦ decide (diagnostic.severity = .error)) snapshot.diagnostics
  simpa [errorsOf, warningsOf] using hperm

/-- The display order is by lines first. -/
theorem line_le_of_not_less {first second : GzDiagnostic}
    (hless : gzDiagnosticLess second first = false) :
    first.range.start.line ≤ second.range.start.line := by
  rw [UInt32.le_iff_toNat_le]
  refine Nat.le_of_not_lt fun hlt ↦ ?_
  have hkey : sortKey second < sortKey first := Prod.Lex.toLex_lt_toLex.mpr (Or.inl hlt)
  exact Bool.false_ne_true (hless.symm.trans ((gzDiagnosticLess_iff _ _).mpr hkey))

theorem line_le_of_not_positionLess {start stop : GzSourcePosition}
    (hless : positionLess stop start = false) : start.line ≤ stop.line := by
  rw [UInt32.le_iff_toNat_le]
  refine Nat.le_of_not_lt fun hlt ↦ ?_
  exact Bool.false_ne_true (hless.symm.trans ((positionLess_iff _ _).mpr (Or.inl hlt)))

theorem errorsInRange_iff (snapshot : GzDiagnosticSnapshot) (displayPath : GodotString) :
    (∀ entry ∈ godotErrorList utf8 snapshot displayPath,
        InEditorRange entry.line ∧ InEditorRange entry.column) ↔
      ∀ diagnostic ∈ errorsOf snapshot, Fits diagnostic := by
  rw [godotErrorList_eq, List.forall_mem_map]
  refine forall₂_congr fun diagnostic hlisted ↦ ?_
  rw [Fits, if_pos (of_decide_eq_true (List.mem_filter.mp hlisted).2)]
  exact and_congr (inEditorRange_godotLine _) (inEditorRange_godotLine _)

theorem warningsInRange_iff (snapshot : GzDiagnosticSnapshot) :
    (∀ entry ∈ godotWarningList utf8 snapshot,
        InEditorRange entry.startLine ∧ InEditorRange entry.endLine) ↔
      ∀ diagnostic ∈ warningsOf snapshot, Fits diagnostic := by
  rw [godotWarningList_eq, List.forall_mem_map]
  refine forall₂_congr fun diagnostic hlisted ↦ ?_
  rw [Fits, if_neg (of_decide_eq_true (List.mem_filter.mp hlisted).2)]
  exact and_congr (inEditorRange_godotLine _) (inEditorRange_godotLine _)

/-- A sorted snapshot with its ranges in order is listed in order, and in range exactly if its
positions are. -/
theorem editorLists_iff_fits (displayPath : GodotString) {snapshot : GzDiagnosticSnapshot}
    (hsorted : SortedBy gzDiagnosticLess snapshot.diagnostics)
    (hordered : ∀ diagnostic ∈ snapshot.diagnostics,
      positionLess diagnostic.range.stop diagnostic.range.start = false) :
    EditorLists utf8 displayPath snapshot ↔ ∀ diagnostic ∈ snapshot.diagnostics,
      Fits diagnostic := by
  constructor
  · intro hlists diagnostic hmem
    by_cases herror : diagnostic.severity = .error
    · exact (errorsInRange_iff utf8 snapshot displayPath).mp hlists.errorsInRange diagnostic
        (List.mem_filter.mpr ⟨hmem, by simpa⟩)
    · exact (warningsInRange_iff utf8 snapshot).mp hlists.warningsInRange diagnostic
        (List.mem_filter.mpr ⟨hmem, by simpa⟩)
  · intro hfits
    have herrors : (errorsOf snapshot).Sublist snapshot.diagnostics := List.filter_sublist
    have hwarnings : (warningsOf snapshot).Sublist snapshot.diagnostics := List.filter_sublist
    refine ⟨?_, ?_, ?_, ?_, ?_, ?_, ?_⟩
    · rw [errorsInRange_iff]
      exact fun diagnostic hlisted ↦ hfits diagnostic (herrors.subset hlisted)
    · rw [warningsInRange_iff]
      exact fun diagnostic hlisted ↦ hfits diagnostic (hwarnings.subset hlisted)
    · rw [godotWarningList_eq]
      intro entry hentry
      obtain ⟨diagnostic, hlisted, rfl⟩ := List.mem_map.mp hentry
      exact godotLine_mono (line_le_of_not_positionLess
        (hordered diagnostic (hwarnings.subset hlisted)))
    · rw [godotErrorList_eq, List.pairwise_map]
      exact (hsorted.sublist herrors).imp fun hless ↦ godotLine_mono (line_le_of_not_less hless)
    · rw [godotWarningList_eq, List.pairwise_map]
      exact (hsorted.sublist hwarnings).imp fun hless ↦
        godotLine_mono (line_le_of_not_less hless)
    · exact ⟨errorsOf snapshot, warningsOf snapshot, errors_append_warnings snapshot, herrors,
        hwarnings, godotErrorList_eq utf8 snapshot displayPath, godotWarningList_eq utf8 snapshot⟩
    · rw [godotErrorList_eq, List.map_eq_nil_iff, errorsOf_eq_nil]

/-! ### Runs -/

variable (stdSort : SortAlgorithm gzDiagnosticLess)

/-- Every list that a run stores is sorted and has its ranges in order. -/
theorem storedList_exec (ops : List StoreOp) (key : ByteString) (source : GzDiagnosticSource) :
    StoredList key (stored (exec (step stdSort) {} ops) key source) :=
  stored_exec stdSort StoredList storedList_nil ops
    (fun update _ key ↦ storedList_normalizeBatch stdSort update.diagnostics key) key source

theorem snapshotSource_diagnostics (store : GzDiagnosticStore) (path : ByteString)
    (source : GzDiagnosticSource) :
    (store.snapshotSource path source).diagnostics = storedUnder store path source := by
  unfold GzDiagnosticStore.snapshotSource storedUnder stored
  dsimp only
  cases store.documents.lookup (gzNormalizeDocumentPath path) with
  | none => rfl
  | some state => rfl

/-- What a snapshot holds was stored under one of the sources. -/
theorem mem_snapshotOf {store : GzDiagnosticStore} {snapshot : GzDiagnosticSnapshot}
    (hsnapshot : SnapshotOf store snapshot) {diagnostic : GzDiagnostic}
    (hmem : diagnostic ∈ snapshot.diagnostics) :
    ∃ key source, diagnostic ∈ stored store key source := by
  obtain ⟨path, rfl | ⟨source, rfl⟩⟩ := hsnapshot
  · rw [snapshot_diagnostics] at hmem
    obtain ⟨source, -, hstored⟩ := List.mem_flatMap.mp ((stableSort_perm _ _).subset hmem)
    exact ⟨gzNormalizeDocumentPath path, source, hstored⟩
  · rw [snapshotSource_diagnostics] at hmem
    exact ⟨gzNormalizeDocumentPath path, source, hmem⟩

theorem sorted_snapshotOf {ops : List StoreOp} {snapshot : GzDiagnosticSnapshot}
    (hsnapshot : SnapshotOf (exec (step stdSort) {} ops) snapshot) :
    SortedBy gzDiagnosticLess snapshot.diagnostics := by
  obtain ⟨path, rfl | ⟨source, rfl⟩⟩ := hsnapshot
  · rw [snapshot_diagnostics]
    exact stableSort_sorted gzDiagnosticLess_strictWeakOrder _
  · rw [snapshotSource_diagnostics]
    exact (storedList_exec stdSort ops _ source).sorted

/-- A range that is rewritten ends on its own line or on the line it starts on. -/
theorem fits_normalizeDiagnostic {diagnostic : GzDiagnostic} (hfits : Fits diagnostic)
    (key : ByteString) : Fits (normalizeDiagnostic key diagnostic) := by
  have hstart : (normalizeRange diagnostic.range).start = diagnostic.range.start := by
    unfold normalizeRange
    split_ifs <;> rfl
  have hstop : (normalizeRange diagnostic.range).stop = diagnostic.range.stop ∨
      (normalizeRange diagnostic.range).stop = diagnostic.range.start := by
    unfold normalizeRange
    split_ifs
    · exact Or.inr rfl
    · exact Or.inl rfl
  obtain ⟨hline, hrest⟩ := hfits
  simp only [Fits, normalizeDiagnostic, hstart]
  refine ⟨hline, ?_⟩
  split_ifs at hrest ⊢
  · exact hrest
  · rcases hstop with hstop | hstop
    · rw [hstop]
      exact hrest
    · rw [hstop]
      exact hline

theorem fits_exec {ops : List StoreOp}
    (hfits : ∀ update, StoreOp.replace update ∈ ops → ∀ diagnostic ∈ update.diagnostics,
      Fits diagnostic) (key : ByteString) (source : GzDiagnosticSource) :
    ∀ diagnostic ∈ stored (exec (step stdSort) {} ops) key source, Fits diagnostic := by
  refine stored_exec stdSort (fun _ contents ↦ ∀ diagnostic ∈ contents, Fits diagnostic)
    (fun _ _ hmem ↦ absurd hmem List.not_mem_nil) ops ?_ key source
  intro update hupdate key diagnostic hmem
  obtain ⟨original, horiginal, rfl⟩ := mem_normalizeBatch stdSort hmem
  exact fits_normalizeDiagnostic (hfits update hupdate original horiginal) key

/-- The lists of a snapshot that a run leads to are in order and in range exactly if the positions
they read fit, and they do if the run submits no others. -/
theorem editorLists_iff (ops : List StoreOp) (displayPath : GodotString)
    (snapshot : GzDiagnosticSnapshot)
    (hsnapshot : SnapshotOf (exec (step stdSort) {} ops) snapshot) :
    (EditorLists utf8 displayPath snapshot ↔
      ∀ diagnostic ∈ snapshot.diagnostics, Fits diagnostic) ∧
    ((∀ update, StoreOp.replace update ∈ ops → ∀ diagnostic ∈ update.diagnostics,
        Fits diagnostic) →
      EditorLists utf8 displayPath snapshot) := by
  have hiff : EditorLists utf8 displayPath snapshot ↔
      ∀ diagnostic ∈ snapshot.diagnostics, Fits diagnostic := by
    refine editorLists_iff_fits utf8 displayPath (sorted_snapshotOf stdSort hsnapshot) ?_
    intro diagnostic hmem
    obtain ⟨key, source, hstored⟩ := mem_snapshotOf hsnapshot hmem
    exact ((storedList_exec stdSort ops key source).forms diagnostic hstored).ordered
  refine ⟨hiff, fun hfits ↦ hiff.mpr fun diagnostic hmem ↦ ?_⟩
  obtain ⟨key, source, hstored⟩ := mem_snapshotOf hsnapshot hmem
  exact fits_exec stdSort hfits key source diagnostic hstored

/-- The snapshot of a document with one message at its start. -/
theorem editorLists_iff_sample :
    EditorLists id (ascii "res://a.zig") ((exec (step referenceSort) {}
      [.openDocument (ascii "/game/a.zig"), .replace sampleUpdate]).snapshot
        (ascii "/game/a.zig")) := by
  refine (editorLists_iff id referenceSort [.openDocument (ascii "/game/a.zig"),
    .replace sampleUpdate] (ascii "res://a.zig") _ ⟨_, Or.inl rfl⟩).2 ?_
  intro update hupdate diagnostic hmem
  obtain rfl : update = sampleUpdate := by simpa using hupdate
  obtain rfl : diagnostic = { message := ascii "a" } := List.mem_singleton.mp hmem
  decide

/-- An error on the last line that a position can name. -/
def lastLineUpdate : GzDiagnosticUpdate where
  documentPath := ascii "/game/a.zig"
  generation := 1
  diagnostics := [{ range := { start := { line := 4294967295 }, stop := { line := 4294967295 } }
                    message := ascii "a" }]

/-- The store after a document is registered and that error is reported. -/
def lastLineStore : GzDiagnosticStore :=
  exec (step referenceSort) {} [.openDocument (ascii "/game/a.zig"), .replace lastLineUpdate]

theorem last_line_out_of_range :
    (godotErrorList id (lastLineStore.snapshot (ascii "/game/a.zig"))
        (ascii "res://a.zig")).map GodotError.line = [2147483648] ∧
      ¬ EditorLists id (ascii "res://a.zig") (lastLineStore.snapshot (ascii "/game/a.zig")) := by
  have hline : (godotErrorList id (lastLineStore.snapshot (ascii "/game/a.zig"))
      (ascii "res://a.zig")).map GodotError.line = [2147483648] := by decide +kernel
  refine ⟨hline, fun hlists ↦ ?_⟩
  have hmem : (2147483648 : Int64) ∈ (godotErrorList id
      (lastLineStore.snapshot (ascii "/game/a.zig")) (ascii "res://a.zig")).map
        GodotError.line := by
    rw [hline]
    exact List.mem_cons_self
  obtain ⟨entry, hentry, hvalue⟩ := List.mem_map.mp hmem
  have hrange := (hlists.errorsInRange entry hentry).1
  rw [hvalue] at hrange
  exact absurd hrange.2 (by decide)

end Gzscript.Diagnostics.GodotAdapter
