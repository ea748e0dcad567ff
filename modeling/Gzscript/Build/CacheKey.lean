import Gzscript.Build.Dependencies
import Gzscript.Library.Records

/-!
# What the cache key determines

`prepare` writes the values that a compilation depends on into one text, a record after the other,
and takes the hash of it as the key of the cache. Each value stands behind its length, and the
labels are the same for every script, so the text determines the values whatever they are
(`identity_injective`).

The fingerprints among the values are written in the same way, but with the paths of files for
labels. A path can hold the text that ends a record. Two different lists of records have one
fingerprint exactly if they are the same once every path is cut at such texts
(`appendRecords_determined_iff`); `merged_records` are two files and one that look the same.
-/

set_option autoImplicit false
set_option relaxedAutoImplicit false

namespace Gzscript.Build.CacheKey

open Library.Records Dependencies

/-! ### Records in text -/

/-- One record after the other. -/
def appendRecords (identity : String) (entries : List (String × String)) : String :=
  entries.foldl (fun identity entry ↦ appendIdentity identity entry.1 entry.2) identity

/-- The fingerprint of a script is written so. -/
theorem records_eq_appendRecords (godot : Godot) (tree : SourceTree) (fingerprint : String)
    (order : List SourceScan.SourceDependency) :
    records godot tree fingerprint order = appendRecords fingerprint
      (order.map fun dependency ↦ (dependency.path, getSha256 godot tree dependency.path)) := by
  rw [records, appendRecords, List.foldl_map]

/-- The characters of some records. -/
def characters (entries : List (String × String)) : List (List Char × List Char) :=
  entries.map fun entry ↦ (entry.1.toList, entry.2.toList)

theorem characters_injective : Function.Injective characters := by
  refine List.map_injective_iff.mpr fun first second h ↦ ?_
  obtain ⟨hlabel, hvalue⟩ := Prod.mk.inj h
  exact Prod.ext (String.toList_injective hlabel) (String.toList_injective hvalue)

theorem appendIdentity_toList (identity label value : String) :
    (appendIdentity identity label value).toList =
      identity.toList ++ record label.toList value.toList := by
  simp [appendIdentity, record, measured, List.append_assoc, String.length_toList]

theorem appendRecords_toList (identity : String) (entries : List (String × String)) :
    (appendRecords identity entries).toList =
      identity.toList ++ recordsText (characters entries) := by
  induction entries generalizing identity with
  | nil => exact (List.append_nil _).symm
  | cons entry entries ih =>
    rw [appendRecords, List.foldl_cons]
    show (appendRecords _ entries).toList = _
    rw [ih, appendIdentity_toList, List.append_assoc]
    rfl

theorem appendRecords_eq_iff (identity : String) (entries others : List (String × String)) :
    appendRecords identity entries = appendRecords identity others ↔
      recordsText (characters entries) = recordsText (characters others) := by
  rw [← String.toList_inj, appendRecords_toList, appendRecords_toList, List.append_cancel_left_eq]

/-! ### The identity of a compilation -/

def cacheFormatVersion : String := "5"

def gzscriptAbiVersion : ℕ := 5

/-- The values that `prepare` has for a script, besides those that are always the same. -/
structure KeyValues where
  resourcePath : String
  source : String
  userTree : String
  sdkTree : String
  zigExecutable : String
  zigVersion : String
  platform : String
  architecture : String
  zigTarget : String
  optimization : String
  deriving DecidableEq

/-- The records of the identity. -/
def identityRecords (adapterSource : String) (values : KeyValues) : List (String × String) :=
  [("cache_format", cacheFormatVersion),
    ("resource_path", values.resourcePath),
    ("source", values.source),
    ("user_tree", values.userTree),
    ("sdk_tree", values.sdkTree),
    ("adapter", adapterSource),
    ("abi", toString gzscriptAbiVersion),
    ("zig_executable", values.zigExecutable),
    ("zig_version", values.zigVersion),
    ("platform", values.platform),
    ("architecture", values.architecture),
    ("zig_target", values.zigTarget),
    ("optimization", values.optimization)]

/-- The text whose hash is the key. -/
def identity (adapterSource : String) (values : KeyValues) : String :=
  appendRecords "" (identityRecords adapterSource values)

theorem identityRecords_injective (adapterSource : String) :
    Function.Injective (identityRecords adapterSource) := by
  rintro ⟨⟩ ⟨⟩ h
  simpa [identityRecords] using h

/-- The identity determines the values. -/
theorem identity_injective (adapterSource : String) :
    Function.Injective (identity adapterSource) := by
  intro first second h
  have htext := (appendRecords_eq_iff "" _ _).mp h
  have hlabels : (characters (identityRecords adapterSource first)).map Prod.fst =
      (characters (identityRecords adapterSource second)).map Prod.fst := rfl
  exact identityRecords_injective adapterSource
    (characters_injective (recordsText_inj hlabels htext))

/-! ### Records of files -/

def hexDigit (character : Char) : Bool :=
  character.isDigit || ('a' ≤ character && character ≤ 'f') ||
    ('A' ≤ character && character ≤ 'F')

/-- A content hash: 64 hexadecimal digits. -/
def IsHash (hash : String) : Prop := hash.length = 64 ∧ hash.toList.all hexDigit = true

/-- What a file system allows for a path. -/
def IsPath (path : String) : Prop := path ≠ "" ∧ Char.ofNat 0 ∉ path.toList

/-- Records of files, each a path and a content hash. -/
def FileRecords (entries : List (String × String)) : Prop :=
  ∀ entry ∈ entries, IsPath entry.1 ∧ IsHash entry.2

/-- What follows the path in a record. -/
def hashEnding (hash : List Char) : List Char := ":64:".toList ++ (hash ++ ['\n'])

/-- A text is what follows the path in some record. -/
def endsRecord (text : List Char) : Bool :=
  text.take 4 = ":64:".toList && ((text.drop 4).take 64).all hexDigit &&
    (text.drop 4).drop 64 = ['\n']

theorem endsRecord_iff (text : List Char) :
    endsRecord text = true ↔
      ∃ hash : List Char, hash.length = 64 ∧ hash.all hexDigit = true ∧ text = hashEnding hash := by
  simp only [endsRecord, Bool.and_eq_true, decide_eq_true_eq]
  constructor
  · rintro ⟨⟨hstart, hall⟩, hend⟩
    refine ⟨(text.drop 4).take 64, ?_, hall, ?_⟩
    · have hlength := congrArg List.length hend
      rw [List.length_drop, List.length_singleton] at hlength
      rw [List.length_take]
      omega
    · rw [hashEnding, ← hstart, ← hend, List.take_append_drop, List.take_append_drop]
  · rintro ⟨hash, hlength, hall, rfl⟩
    have htail : (hashEnding hash).drop 4 = hash ++ ['\n'] := rfl
    rw [htail, ← hlength, List.take_left, List.drop_left]
    exact ⟨⟨rfl, hall⟩, rfl⟩

theorem length_hashEnding {hash : List Char} (h : hash.length = 64) :
    (hashEnding hash).length = 69 := by
  rw [hashEnding, List.length_append, List.length_append, h]
  rfl

theorem colon_not_mem_hash {hash : List Char} (h : hash.all hexDigit = true) :
    ':' ∉ hash ++ ['\n'] := by
  intro hmem
  obtain hdigit | hnewline := List.mem_append.mp hmem
  · exact absurd (List.all_eq_true.mp h ':' hdigit) (by decide)
  · exact absurd hnewline (by decide)

/-- An ending has its last colon in its fourth place, so another one can start inside of it there
only, and digits have no colon behind the next two places. -/
theorem hashEnding_apart {before after hash other rest more : List Char}
    (hhash : hash.all hexDigit = true) (hbefore : before ≠ []) (hafter : after ≠ [])
    (heq : hashEnding hash = before ++ after) : after ++ rest ≠ hashEnding other ++ more := by
  have hcolon := colon_not_mem_hash hhash
  obtain ⟨head, tail, rfl⟩ := List.exists_cons_of_ne_nil hafter
  intro hstart
  obtain ⟨rfl, htail⟩ :
      head = ':' ∧ tail ++ rest = '6' :: '4' :: ':' :: (other ++ ['\n'] ++ more) :=
    List.cons.inj hstart
  match before, hbefore, heq with
  | [_], _, heq => exact absurd (List.cons.inj (List.cons.inj heq).2).1 (by decide)
  | [_, _], _, heq =>
    exact absurd (List.cons.inj (List.cons.inj (List.cons.inj heq).2).2).1 (by decide)
  | [_, _, _], _, heq =>
    obtain rfl : hash ++ ['\n'] = tail :=
      (List.cons.inj (List.cons.inj (List.cons.inj (List.cons.inj heq).2).2).2).2
    match hash, hcolon, htail with
    | [], _, htail => exact absurd (List.cons.inj htail).1 (by decide)
    | [_], _, htail => exact absurd (List.cons.inj (List.cons.inj htail).2).1 (by decide)
    | [_, _], _, htail =>
      exact absurd (List.cons.inj (List.cons.inj (List.cons.inj htail).2).2).1 (by decide)
    | _ :: _ :: third :: _, hcolon, htail =>
      obtain rfl : third = ':' := (List.cons.inj (List.cons.inj (List.cons.inj htail).2).2).1
      exact hcolon (by simp)
  | _ :: _ :: _ :: _ :: before, _, heq =>
    have hrest : hash ++ ['\n'] = before ++ ':' :: tail :=
      (List.cons.inj (List.cons.inj (List.cons.inj (List.cons.inj heq).2).2).2).2
    rw [hrest] at hcolon
    exact hcolon (List.mem_append_right _ List.mem_cons_self)

/-- The endings of records of files. -/
def recordEndings : Endings Char where
  isEnding text := endsRecord text = true
  front text :=
    if endsRecord (text.take 69) then some (text.take 69, text.drop 69) else none
  front_eq_some_iff text ending rest := by
    constructor
    · intro h
      split_ifs at h with hends
      obtain ⟨rfl, rfl⟩ := Prod.mk.inj (Option.some.inj h)
      exact ⟨hends, (List.take_append_drop 69 text).symm⟩
    · rintro ⟨hends, rfl⟩
      obtain ⟨hash, hlength, -, rfl⟩ := (endsRecord_iff ending).mp hends
      rw [← length_hashEnding hlength, List.take_left, List.drop_left, if_pos hends]
  not_nil := by decide
  apart before after ending other rest more h hother hbefore hafter heq := by
    obtain ⟨hash, -, hhash, rfl⟩ := (endsRecord_iff ending).mp h
    obtain ⟨otherHash, -, -, rfl⟩ := (endsRecord_iff other).mp hother
    exact hashEnding_apart hhash hbefore hafter heq

/-- The paths of some records as labels, with what ends each record. -/
def parts (entries : List (String × String)) : List (List Char × List Char) :=
  entries.map fun entry ↦ (entry.1.toList, hashEnding entry.2.toList)

/-- Some records with every path cut at the endings in it. -/
def cutRecords (entries : List (String × String)) : List (List Char × List Char) :=
  recordEndings.cut (parts entries)

/-- Different records that are the same once the paths are cut. -/
def Regrouped (entries others : List (String × String)) : Prop :=
  entries ≠ others ∧ cutRecords entries = cutRecords others

/-- A path holds the text that ends a record. -/
def HoldsEnding (path : String) : Prop :=
  ∃ before hash after, IsHash hash ∧ path = before ++ (":64:" ++ hash ++ "\n") ++ after

variable {entries others : List (String × String)}

theorem endsRecord_hash {hash : String} (h : IsHash hash) :
    endsRecord (hashEnding hash.toList) = true :=
  (endsRecord_iff _).mpr ⟨hash.toList, String.length_toList.trans h.1, h.2, rfl⟩

theorem recordsText_eq_joined (h : FileRecords entries) :
    recordsText (characters entries) = joined (parts entries) := by
  rw [recordsText, joined, characters, parts, List.flatMap_map, List.flatMap_map]
  refine List.flatMap_congr fun entry hentry ↦ ?_
  have hlength : entry.2.toList.length = 64 := String.length_toList.trans (h entry hentry).2.1
  show record entry.1.toList entry.2.toList = entry.1.toList ++ hashEnding entry.2.toList
  rw [record, measured, hlength]
  rfl

theorem isEnding_parts (h : FileRecords entries) :
    ∀ part ∈ parts entries, recordEndings.isEnding part.2 := by
  intro part hpart
  obtain ⟨entry, hentry, rfl⟩ := List.mem_map.mp hpart
  exact endsRecord_hash (h entry hentry).2

/-- A fingerprint determines the records as far as the paths are cut. -/
theorem appendRecords_eq_iff_cut (identity : String) (h : FileRecords entries)
    (hothers : FileRecords others) :
    appendRecords identity entries = appendRecords identity others ↔
      cutRecords entries = cutRecords others := by
  rw [appendRecords_eq_iff, recordsText_eq_joined h, recordsText_eq_joined hothers]
  exact Endings.joined_eq_iff (isEnding_parts h) (isEnding_parts hothers)

theorem free_of_path {path : String} (h : ¬ HoldsEnding path) : recordEndings.Free path.toList := by
  rintro before ending after hending hpath
  obtain ⟨hash, hlength, hall, rfl⟩ := (endsRecord_iff ending).mp hending
  refine h ⟨String.ofList before, String.ofList hash, String.ofList after, ⟨?_, ?_⟩, ?_⟩
  · rw [← String.length_toList, String.toList_ofList, hlength]
  · rw [String.toList_ofList, hall]
  · rw [← String.toList_inj, hpath]
    simp [hashEnding, List.append_assoc]

/-- Records whose paths hold no ending are not cut. -/
theorem cutRecords_of_free (h : FileRecords entries)
    (hfree : ∀ entry ∈ entries, ¬ HoldsEnding entry.1) : cutRecords entries = parts entries := by
  refine Endings.cut_of_plain fun part hpart ↦ ⟨?_, isEnding_parts h part hpart⟩
  obtain ⟨entry, hentry, rfl⟩ := List.mem_map.mp hpart
  exact free_of_path (hfree entry hentry)

theorem parts_injective : Function.Injective parts := by
  refine List.map_injective_iff.mpr fun first second h ↦ ?_
  obtain ⟨hlabel, hending⟩ := Prod.mk.inj h
  have hhash := List.append_cancel_right (List.append_cancel_left hending)
  exact Prod.ext (String.toList_injective hlabel) (String.toList_injective hhash)

/-- One fingerprint means the same records unless they are regrouped, which takes a path that holds
the text that ends a record. -/
theorem appendRecords_determined_iff (identity : String) (entries others : List (String × String))
    (h : FileRecords entries) (hothers : FileRecords others) :
    ((appendRecords identity entries = appendRecords identity others → entries = others) ↔
        ¬ Regrouped entries others) ∧
      ((∀ entry ∈ entries ++ others, ¬ HoldsEnding entry.1) → ¬ Regrouped entries others) := by
  rw [appendRecords_eq_iff_cut identity h hothers]
  refine ⟨⟨fun hsame hregrouped ↦ hregrouped.1 (hsame hregrouped.2), fun hregrouped hcut ↦ ?_⟩,
    fun hfree hregrouped ↦ hregrouped.1 (parts_injective ?_)⟩
  · by_contra hne
    exact hregrouped ⟨hne, hcut⟩
  · rw [← cutRecords_of_free h fun entry hentry ↦ hfree entry (List.mem_append_left _ hentry),
      ← cutRecords_of_free hothers fun entry hentry ↦ hfree entry (List.mem_append_right _ hentry)]
    exact hregrouped.2

/-- The hash of nothing but zeros. -/
def zeroHash : String := String.ofList (List.replicate 64 '0')

/-- A path that is two records but for the hash of the second. -/
def mergedPath : String := "a:64:" ++ zeroHash ++ "\nb"

theorem appendRecords_determined_iff_sample :
    ((appendRecords "" [("a", zeroHash), ("b", zeroHash)] =
            appendRecords "" [(mergedPath, zeroHash)] →
          [("a", zeroHash), ("b", zeroHash)] = [(mergedPath, zeroHash)]) ↔
        ¬ Regrouped [("a", zeroHash), ("b", zeroHash)] [(mergedPath, zeroHash)]) ∧
      ((∀ entry ∈ [("a", zeroHash), ("b", zeroHash)] ++ [(mergedPath, zeroHash)],
          ¬ HoldsEnding entry.1) →
        ¬ Regrouped [("a", zeroHash), ("b", zeroHash)] [(mergedPath, zeroHash)]) := by
  apply appendRecords_determined_iff
  all_goals
    simp only [FileRecords, IsPath, IsHash]
    decide +kernel

/-- The files `a` and `b`, and the file of the merged path, have one fingerprint. -/
theorem merged_records :
    FileRecords [("a", zeroHash), ("b", zeroHash)] ∧ FileRecords [(mergedPath, zeroHash)] ∧
      appendRecords "" [("a", zeroHash), ("b", zeroHash)] =
        appendRecords "" [(mergedPath, zeroHash)] ∧
      [("a", zeroHash), ("b", zeroHash)] ≠ [(mergedPath, zeroHash)] := by
  refine ⟨?_, ?_, ?_, ?_⟩
  · simp only [FileRecords, IsPath, IsHash]
    decide +kernel
  · simp only [FileRecords, IsPath, IsHash]
    decide +kernel
  · decide +kernel
  · decide +kernel

end Gzscript.Build.CacheKey
