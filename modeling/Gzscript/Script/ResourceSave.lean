import Mathlib.Data.Nat.Basic
import Mathlib.Logic.Function.Basic

/-!
# Saving a script

`saveTextSafely` writes a script to a temporary file, checks what was written, renames it onto the
script's file and at last syncs the directory. Until the rename the script's file is not touched,
and whatever fails removes the temporary file. The result of the last sync is the result of the
save, so an error from there comes back with the new contents in place
(`directory_error_after_replace`).

`SaveContract` says what a save leaves, and `saveTextSafely_contract` that it does so for every
pattern of failures. A caller that gets an error does nothing more with the script
(`save_error_effects`).
-/

set_option autoImplicit false
set_option relaxedAutoImplicit false

namespace Gzscript.Script.ResourceSave

inductive Error
  | ok | unavailable | invalidParameter | cantCreate | cantOpen | fileCantWrite | fileCorrupt
  | other (code : ℕ)
  deriving DecidableEq

/-- The files that there are, each with the text it is read as. -/
abbrev Files : Type := String → Option String

def remove (path : String) (files : Files) : Files := Function.update files path none

def write (path contents : String) (files : Files) : Files :=
  Function.update files path (some contents)

/-- A rename is atomic: the one file is gone and the other has its text. -/
def rename (source destination : String) (files : Files) : Files :=
  Function.update (remove source files) destination (files source)

/-- What the engine and the system answer in the course of one save. A write that is reported as a
success may have stored another text, but nothing is stored of no text. -/
structure Outcomes where
  globalizePath : String → String
  processId : ℕ
  ticksUsec : ℕ
  opens : Bool
  storeString : Bool
  stored : String → String
  stored_empty : stored "" = ""
  getError : Error
  syncFile : Error
  reads : Bool
  replaces : Bool
  syncParentDirectory : Error

namespace Outcomes

variable (outcomes : Outcomes)

def temporary (path : String) : String :=
  outcomes.globalizePath path ++ ".gzscript-" ++ toString outcomes.processId ++ "-" ++
    toString outcomes.ticksUsec ++ ".tmp"

/-- `gz_atomic_replace`. -/
def atomicReplace (source destination : String) (files : Files) : Error × Files :=
  if outcomes.replaces then (.ok, rename source destination files) else (.cantCreate, files)

/-- `FileAccess::get_file_as_string`, with no text for a file that cannot be read. -/
def getFileAsString (path : String) (files : Files) : String :=
  if outcomes.reads then (files path).getD "" else ""

end Outcomes

def saveTextSafely (outcomes : Outcomes) (path contents : String) (files : Files) :
    Error × Files :=
  let absolute := outcomes.globalizePath path
  let temporary := outcomes.temporary path
  let files := if outcomes.opens then write temporary (outcomes.stored contents) files else files
  if ¬ outcomes.opens ∨ ¬ outcomes.storeString then (.cantCreate, remove temporary files)
  else if outcomes.getError ≠ .ok then (outcomes.getError, remove temporary files)
  else if outcomes.syncFile ≠ .ok then (outcomes.syncFile, remove temporary files)
  else if outcomes.getFileAsString temporary files ≠ contents then
    (.fileCorrupt, remove temporary files)
  else
    let (publishError, files) := outcomes.atomicReplace temporary absolute files
    if publishError ≠ .ok then (publishError, remove temporary files)
    else (outcomes.syncParentDirectory, files)

/-! ### What a save leaves -/

/-- Every step succeeds up to the rename, and what is read back is what was to be written. -/
def Published (outcomes : Outcomes) (contents : String) : Prop :=
  outcomes.opens ∧ outcomes.storeString ∧ outcomes.getError = .ok ∧ outcomes.syncFile = .ok ∧
    (if outcomes.reads then outcomes.stored contents else "") = contents ∧ outcomes.replaces

/-- What a save leaves of the files, and what it returns. -/
structure SaveContract (outcomes : Outcomes) (path contents : String) (files : Files)
    (error : Error) (after : Files) : Prop where
  temporary : after (outcomes.temporary path) = none
  others : ∀ other, other ≠ outcomes.globalizePath path → other ≠ outcomes.temporary path →
    after other = files other
  saved : error = .ok → after (outcomes.globalizePath path) = some contents
  /-- An error of any step up to the rename leaves the file as it was. -/
  kept : ¬ Published outcomes contents →
    error ≠ .ok ∧ after (outcomes.globalizePath path) = files (outcomes.globalizePath path)
  /-- After the rename the new contents are there, and the result is that of the last sync. -/
  replaced : Published outcomes contents →
    error = outcomes.syncParentDirectory ∧ after (outcomes.globalizePath path) = some contents

theorem temporary_ne (outcomes : Outcomes) (path : String) :
    outcomes.temporary path ≠ outcomes.globalizePath path := by
  intro hsame
  have hlength := congrArg String.length hsame
  simp only [Outcomes.temporary, String.length_append] at hlength
  have hsuffix : ".tmp".length = 4 := rfl
  omega

variable {outcomes : Outcomes} {path contents : String} {files : Files}

/-- A save that ends with the removal of its temporary file has touched no other file. -/
theorem contract_of_removed {error : Error} {before : Files}
    (hbefore : ∀ other, other ≠ outcomes.temporary path → before other = files other)
    (herror : error ≠ .ok) (hfailed : ¬ Published outcomes contents) :
    SaveContract outcomes path contents files error
      (remove (outcomes.temporary path) before) := by
  have hothers : ∀ other, other ≠ outcomes.temporary path →
      remove (outcomes.temporary path) before other = files other := by
    intro other hother
    rw [remove, Function.update_of_ne hother, hbefore other hother]
  exact
    { temporary := Function.update_self _ _ _
      others := fun other _ hother ↦ hothers other hother
      saved := fun hok ↦ absurd hok herror
      kept := fun _ ↦ ⟨herror, hothers _ (temporary_ne outcomes path).symm⟩
      replaced := fun hpublished ↦ absurd hpublished hfailed }

/-- A save whose rename succeeds has put the text of its temporary file in place. -/
theorem contract_of_renamed {before : Files}
    (hbefore : ∀ other, other ≠ outcomes.temporary path → before other = files other)
    (hwritten : before (outcomes.temporary path) = some contents)
    (hpublished : Published outcomes contents) :
    SaveContract outcomes path contents files outcomes.syncParentDirectory
      (rename (outcomes.temporary path) (outcomes.globalizePath path) before) := by
  have hplaced : rename (outcomes.temporary path) (outcomes.globalizePath path) before
      (outcomes.globalizePath path) = some contents := by
    rw [rename, Function.update_self, hwritten]
  refine ⟨?_, fun other hother hother' ↦ ?_, fun _ ↦ hplaced, fun hfailed ↦ ?_,
    fun _ ↦ ⟨rfl, hplaced⟩⟩
  · rw [rename, Function.update_of_ne (temporary_ne outcomes path), remove,
      Function.update_self]
  · rw [rename, Function.update_of_ne hother, remove, Function.update_of_ne hother',
      hbefore other hother']
  · exact absurd hpublished hfailed

/-- Every save meets its contract, whatever fails. -/
theorem saveTextSafely_contract (outcomes : Outcomes) (path contents : String) (files : Files) :
    SaveContract outcomes path contents files
      (saveTextSafely outcomes path contents files).1
      (saveTextSafely outcomes path contents files).2 := by
  have hbefore : ∀ other, other ≠ outcomes.temporary path →
      (if outcomes.opens then write (outcomes.temporary path) (outcomes.stored contents) files
        else files) other = files other := by
    intro other hother
    split_ifs
    · exact Function.update_of_ne hother _ _
    · rfl
  have hstored : outcomes.opens →
      (if outcomes.opens then write (outcomes.temporary path) (outcomes.stored contents) files
        else files) (outcomes.temporary path) = some (outcomes.stored contents) := by
    intro hopens
    rw [if_pos hopens, write, Function.update_self]
  unfold saveTextSafely
  dsimp only
  generalize (if outcomes.opens then write (outcomes.temporary path) (outcomes.stored contents)
    files else files) = before at hbefore hstored
  by_cases hcreate : ¬ outcomes.opens ∨ ¬ outcomes.storeString
  · have herror : Error.cantCreate ≠ .ok := by decide
    rw [if_pos hcreate]
    exact contract_of_removed hbefore herror fun hpublished ↦
      hcreate.elim (· hpublished.1) (· hpublished.2.1)
  have hopens : outcomes.opens := not_not.mp fun h ↦ hcreate (Or.inl h)
  have hstore : outcomes.storeString := not_not.mp fun h ↦ hcreate (Or.inr h)
  rw [if_neg hcreate]
  by_cases hwrite : outcomes.getError ≠ .ok
  · rw [if_pos hwrite]
    exact contract_of_removed hbefore hwrite fun hpublished ↦ hwrite hpublished.2.2.1
  rw [if_neg hwrite]
  by_cases hsync : outcomes.syncFile ≠ .ok
  · rw [if_pos hsync]
    exact contract_of_removed hbefore hsync fun hpublished ↦ hsync hpublished.2.2.2.1
  rw [if_neg hsync]
  have hread : outcomes.getFileAsString (outcomes.temporary path) before =
      if outcomes.reads then outcomes.stored contents else "" := by
    rw [Outcomes.getFileAsString, hstored hopens, Option.getD_some]
  by_cases hcorrupt : outcomes.getFileAsString (outcomes.temporary path) before ≠ contents
  · have herror : Error.fileCorrupt ≠ .ok := by decide
    rw [if_pos hcorrupt]
    exact contract_of_removed hbefore herror fun hpublished ↦
      hcorrupt (hread.trans hpublished.2.2.2.2.1)
  rw [if_neg hcorrupt]
  have hcontents := hread.symm.trans (not_not.mp hcorrupt)
  -- A file that cannot be read passes for the empty text, and then nothing was stored.
  have hwritten : before (outcomes.temporary path) = some contents := by
    rw [hstored hopens]
    split_ifs at hcontents
    · rw [hcontents]
    · rw [← hcontents, outcomes.stored_empty]
  unfold Outcomes.atomicReplace
  by_cases hreplace : outcomes.replaces = true
  · rw [if_pos hreplace]
    exact contract_of_renamed hbefore hwritten
      ⟨hopens, hstore, not_not.mp hwrite, not_not.mp hsync, hcontents, hreplace⟩
  · have herror : Error.cantCreate ≠ .ok := by decide
    rw [if_neg hreplace]
    exact contract_of_removed hbefore herror fun hpublished ↦
      hreplace hpublished.2.2.2.2.2

/-- A save in which everything succeeds but the sync of the directory. -/
def unsynced : Outcomes where
  globalizePath := id
  processId := 1
  ticksUsec := 1
  opens := true
  storeString := true
  stored := id
  stored_empty := rfl
  getError := .ok
  syncFile := .ok
  reads := true
  replaces := true
  syncParentDirectory := .fileCantWrite

/-- The error of the last sync comes back with the new contents in place. -/
theorem directory_error_after_replace :
    (saveTextSafely unsynced "a.zig" "new" (write "a.zig" "old" fun _ ↦ none)).1 ≠ .ok ∧
      (saveTextSafely unsynced "a.zig" "new" (write "a.zig" "old" fun _ ↦ none)).2 "a.zig" ≠
        write "a.zig" "old" (fun _ ↦ none) "a.zig" := by
  decide +kernel

/-! ### The saver -/

/-- What the saver does with a script once it is saved. -/
inductive Effect
  | setActivePath (path : String)
  | deferApplyActivePath
  | setPathCache (path : String)
  | queueSaved (path : String)
  deriving DecidableEq

/-- The resource that is to be saved, as a script. -/
structure SavedScript where
  sourceCode : String
  activePath : String

/-- `_save`, with the effects on the script in their order. -/
def save (outcomes : Outcomes) (mainThread : Bool) (resource : Option SavedScript)
    (path : String) (changesPath : Bool) (files : Files) : Error × Files × List Effect :=
  if ¬ mainThread then (.unavailable, files, [])
  else
    match resource with
    | none => (.invalidParameter, files, [])
    | some script =>
      let (saveError, files) := saveTextSafely outcomes path script.sourceCode files
      if saveError ≠ .ok then (saveError, files, [])
      else
        let pathEffects :=
          if changesPath then [.setActivePath path, .deferApplyActivePath]
          else if script.activePath ≠ "" then [.setPathCache script.activePath]
          else []
        (.ok, files, pathEffects ++ [.queueSaved path])

/-- The script is touched, and its compilation requested, exactly if no error is returned. -/
theorem save_error_effects (outcomes : Outcomes) (mainThread : Bool)
    (resource : Option SavedScript) (path : String) (changesPath : Bool) (files : Files) :
    (save outcomes mainThread resource path changesPath files).1 ≠ .ok ↔
      (save outcomes mainThread resource path changesPath files).2.2 = [] := by
  unfold save
  by_cases hthread : mainThread = true
  · rw [if_neg (not_not_intro hthread)]
    cases resource with
    | none => exact iff_of_true (fun herror ↦ by cases herror) rfl
    | some script =>
      dsimp only
      by_cases herror : (saveTextSafely outcomes path script.sourceCode files).1 ≠ .ok
      · rw [if_pos herror]
        exact iff_of_true herror rfl
      · rw [if_neg herror]
        exact iff_of_false (fun hne ↦ hne rfl)
          (List.append_ne_nil_of_right_ne_nil _ (List.cons_ne_nil _ _))
  · rw [if_pos hthread]
    exact iff_of_true (fun herror ↦ by cases herror) rfl

end Gzscript.Script.ResourceSave
