import Gzscript.Build.SourceScan
import Gzscript.Library.Bytes
import Gzscript.Library.Worklist
import Mathlib.Algebra.GroupWithZero.Nat
import Mathlib.Algebra.Order.BigOperators.Group.List
import Mathlib.Algebra.Order.Group.Nat

/-!
# The files a script depends on

`appendDependencies` follows the operands of `@import` and `@embedFile` from a script and appends to
the fingerprint a record of the path and the content hash of every file it comes to. The loop is a
worklist search over pairs of a path and a kind, whose keys are the strings the source marks.
-/

set_option autoImplicit false
set_option relaxedAutoImplicit false

namespace Gzscript.Build.Dependencies

open Library.Bytes Library.Worklist SourceScan

/-- What the search uses of the engine's strings and files. -/
structure Godot where
  simplifyPath : String → String
  pathJoin : String → String → String
  getBaseDir : String → String
  getExtension : String → String
  /-- A path has the extension `zig` when it ends so. -/
  getExtension_zig : ∀ path, getExtension path = "zig" ↔ ".zig".toList <:+ path.toList
  /-- The text of a file's bytes. -/
  decode : ByteString → String
  /-- The hash of a file's bytes, in hexadecimal digits. -/
  sha256 : ByteString → String
  sha256_ne : ∀ bytes, sha256 bytes ≠ ""

/-- The files of a project, each a path and its bytes. -/
abbrev SourceTree : Type := List (String × ByteString)

variable (godot : Godot) (tree : SourceTree)

def content (path : String) : Option ByteString := tree.lookup path

/-- `FileAccess::get_sha256`, which is empty when there is no such file. -/
def getSha256 (path : String) : String := ((content tree path).map godot.sha256).getD ""

/-- `FileAccess::get_file_as_string`, which is empty when there is no such file. -/
def getFileAsString (path : String) : String := ((content tree path).map godot.decode).getD ""

/-- `append_identity`. -/
def appendIdentity (identity label value : String) : String :=
  identity ++ (label ++ ":" ++ toString value.length ++ ":" ++ value ++ "\n")

/-- The key under which a path and a kind are marked. -/
def visitKey (dependency : SourceDependency) : String :=
  dependency.path ++ if dependency.isImport then "#import" else "#embed"

/-- The state of the loop: whether the script itself is still to come, and the fingerprint. -/
structure LoopState where
  first : Bool
  fingerprint : String

/-- The record of a file, unless it is the script. -/
def recordDependency (dependency : SourceDependency) (state : LoopState) :
    Except String LoopState :=
  if state.first then
    .ok { state with first := false }
  else
    let hash := getSha256 godot tree dependency.path
    if hash = "" then
      .error ("Unable to fingerprint Zig dependency: " ++ dependency.path)
    else
      .ok { state with fingerprint := appendIdentity state.fingerprint dependency.path hash }

/-- An `@import` whose operand has no slash is passed over unless its extension is `zig`. -/
def skipped (operand : SourceDependency) : Bool :=
  operand.isImport && !operand.path.toList.contains '/' && godot.getExtension operand.path != "zig"

/-- What an operand in a file names. -/
def target (path : String) (operand : SourceDependency) : SourceDependency where
  path := godot.simplifyPath (godot.pathJoin (godot.getBaseDir path) operand.path)
  isImport := operand.isImport

/-- What is pushed after a file. An embedded file is not read. -/
def followed (dependency : SourceDependency) : Except String (List SourceDependency) :=
  if dependency.isImport then
    match sourceDependencies (getFileAsString godot tree dependency.path) with
    | none => .error ""
    | some operands =>
      .ok ((operands.filter fun operand ↦ !skipped godot operand).map
        (target godot dependency.path))
  else
    .ok []

/-! ### The search -/

theorem visitKey_injective : Function.Injective visitKey := by
  rintro ⟨firstPath, first⟩ ⟨secondPath, second⟩ h
  have hchars := congrArg String.toList h
  -- the last character of a key tells its kind
  have hkind : first = second := by
    have hlast := congrArg List.getLast? hchars
    cases first <;> cases second <;> simp [visitKey] at hlast ⊢
  subst hkind
  have hpath : firstPath.toList = secondPath.toList := by
    cases first <;> simpa [visitKey] using hchars
  rw [String.toList_inj.mp hpath]

theorem getSha256_eq_empty_iff (path : String) :
    getSha256 godot tree path = "" ↔ content tree path = none := by
  rw [getSha256]
  cases content tree path with
  | none => simp
  | some bytes => simpa using godot.sha256_ne bytes

theorem getFileAsString_of_none {path : String} (h : content tree path = none) :
    getFileAsString godot tree path = "" := by
  rw [getFileAsString, h]
  rfl

theorem sourceDependencies_empty : sourceDependencies "" = some [] := by
  rw [sourceDependencies, String.toList_empty, scan]

/-- Only a file of the tree has operands to follow. -/
theorem content_of_followed {dependency : SourceDependency} {nodes : List SourceDependency}
    (hfollowed : followed godot tree dependency = .ok nodes) (hnodes : nodes ≠ []) :
    dependency.isImport = true ∧ (content tree dependency.path).isSome := by
  rw [followed] at hfollowed
  split at hfollowed
  next himport =>
    refine ⟨himport, ?_⟩
    by_contra hmissing
    rw [Option.not_isSome_iff_eq_none] at hmissing
    rw [getFileAsString_of_none godot tree hmissing, sourceDependencies_empty] at hfollowed
    cases hfollowed
    exact hnodes rfl
  next =>
    cases hfollowed
    exact absurd rfl hnodes

/-- The loop of `append_dependencies`: a search whose nodes with children are files of the tree. -/
def dependencySearch : Search SourceDependency String LoopState String where
  key := visitKey
  key_injective := visitKey_injective
  record := recordDependency godot tree
  children := followed godot tree
  parents := (tree.map fun file ↦ visitKey ⟨file.1, true⟩).toFinset
  key_mem_parents dependency nodes hfollowed hnodes := by
    obtain ⟨himport, hcontent⟩ := content_of_followed godot tree hfollowed hnodes
    obtain ⟨bytes, hbytes⟩ := Option.isSome_iff_exists.mp hcontent
    obtain ⟨before, after, hsplit, -⟩ := List.lookup_eq_some_iff.mp hbytes
    rw [List.mem_toFinset, List.mem_map]
    exact ⟨(dependency.path, bytes), by simp [hsplit], by rw [← himport]⟩

/-- The pair that stands for a script. -/
def rootOf (sourcePath : String) : SourceDependency := ⟨godot.simplifyPath sourcePath, true⟩

/-- `append_dependencies`: the extended fingerprint, or the error. -/
def appendDependencies (sourcePath fingerprint : String) : Except String String :=
  ((dependencySearch godot tree).run [] ⟨true, fingerprint⟩ [rootOf godot sourcePath]).map
    LoopState.fingerprint

/-! ### The fingerprint -/

/-- The fingerprint after the records of some files. -/
def records (fingerprint : String) (order : List SourceDependency) : String :=
  order.foldl (fun fingerprint dependency ↦
    appendIdentity fingerprint dependency.path (getSha256 godot tree dependency.path)) fingerprint

/-- After the script, recording files appends their records, which needs the files to exist. -/
theorem recordAll_records {fingerprint : String} {order : List SourceDependency}
    {final : LoopState}
    (h : (dependencySearch godot tree).recordAll ⟨false, fingerprint⟩ order = .ok final) :
    final = ⟨false, records godot tree fingerprint order⟩ ∧
      ∀ dependency ∈ order, (content tree dependency.path).isSome := by
  induction order generalizing fingerprint with
  | nil =>
    cases h
    exact ⟨rfl, by simp⟩
  | cons dependency order ih =>
    rw [Search.recordAll_cons] at h
    by_cases hhash : getSha256 godot tree dependency.path = ""
    · have hrecord : (dependencySearch godot tree).record dependency ⟨false, fingerprint⟩ =
          .error ("Unable to fingerprint Zig dependency: " ++ dependency.path) := by
        simp [dependencySearch, recordDependency, hhash]
      rw [hrecord] at h
      cases h
    · have hrecord : (dependencySearch godot tree).record dependency ⟨false, fingerprint⟩ =
          .ok ⟨false, appendIdentity fingerprint dependency.path
            (getSha256 godot tree dependency.path)⟩ := by
        simp [dependencySearch, recordDependency, hhash]
      rw [hrecord] at h
      obtain ⟨hfinal, hcontent⟩ := ih h
      refine ⟨hfinal, fun visited hvisited ↦ ?_⟩
      rcases List.mem_cons.mp hvisited with rfl | hvisited
      · rw [getSha256_eq_empty_iff] at hhash
        exact Option.isSome_iff_ne_none.mpr hhash
      · exact hcontent visited hvisited

/-- The length of a record. -/
def recordLength (dependency : SourceDependency) : ℕ :=
  (appendIdentity "" dependency.path (getSha256 godot tree dependency.path)).length

theorem recordLength_pos (dependency : SourceDependency) :
    0 < recordLength godot tree dependency := by
  rw [recordLength, appendIdentity]
  simp only [String.length_append]
  have hnewline : "\n".length = 1 := rfl
  omega

theorem length_records (fingerprint : String) (order : List SourceDependency) :
    (records godot tree fingerprint order).length =
      fingerprint.length + (order.map (recordLength godot tree)).sum := by
  induction order generalizing fingerprint with
  | nil => rfl
  | cons dependency order ih =>
    rw [records, List.foldl_cons, ← records, ih, List.map_cons, List.sum_cons, recordLength,
      appendIdentity, appendIdentity]
    simp only [String.length_append, String.length_empty]
    omega

/-- Recording more files makes a longer fingerprint. -/
theorem records_ne {fewer more : List SourceDependency} (hfewer : fewer.Nodup)
    (hsubset : ∀ dependency ∈ fewer, dependency ∈ more) {extra : SourceDependency}
    (hextra : extra ∈ more) (hmissing : extra ∉ fewer) (fingerprint : String) :
    records godot tree fingerprint fewer ≠ records godot tree fingerprint more := by
  intro hequal
  have hsubperm : (extra :: fewer).Subperm more := by
    refine List.Nodup.subperm (List.nodup_cons.mpr ⟨hmissing, hfewer⟩) fun dependency h ↦ ?_
    rcases List.mem_cons.mp h with rfl | h
    · exact hextra
    · exact hsubset dependency h
  have hsum : ((extra :: fewer).map (recordLength godot tree)).sum ≤
      (more.map (recordLength godot tree)).sum := by
    obtain ⟨permuted, hperm, hsublist⟩ := hsubperm
    rw [← (hperm.map _).sum_eq]
    exact (hsublist.map _).sum_le_sum (by simp)
  have hlength := congrArg String.length hequal
  rw [length_records, length_records] at hlength
  rw [List.map_cons, List.sum_cons] at hsum
  have hpos := recordLength_pos godot tree extra
  omega

end Gzscript.Build.Dependencies
