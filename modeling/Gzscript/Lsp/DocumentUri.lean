import Gzscript.Diagnostics.FileUri
import Gzscript.Library.Utf8
import Gzscript.Lsp.Protocol

/-!
# Document URIs and document keys

The editor's paths are sent to the language server as URIs (`pathToUri`) and come back as such
(`uriToPath`), while the diagnostics of a document are stored under its normalised path. For an
absolute path, a URI is to lead back to the path and to the key of the path (`Agrees`).

A backslash, which is an ordinary character here, is sent as a slash, and two leading slashes are
taken for the start of a host: with a third one, the URI loses two of them, and with a colon further
on or nothing at all, the key is not that of an absolute path. For all other paths the URI agrees
(`agrees_iff`).

What the engine's `uri_encode` and `uri_decode` do is assumed (`PercentCodec`), as is that the
project's settings leave the path as it is.
-/

set_option autoImplicit false
set_option relaxedAutoImplicit false

namespace Gzscript.Lsp.DocumentUri

open Library.Bytes Library.Utf8 Diagnostics.Path Diagnostics.CanonicalPath Diagnostics.FileUri
  Protocol

/-! ### What is assumed of the engine -/

/-- The bytes that `uri_encode` keeps. -/
def unreserved (byte : UInt8) : Bool :=
  ('a'.toUInt8 ≤ byte ∧ byte ≤ 'z'.toUInt8) ∨ ('A'.toUInt8 ≤ byte ∧ byte ≤ 'Z'.toUInt8) ∨
    ('0'.toUInt8 ≤ byte ∧ byte ≤ '9'.toUInt8) ∨ byte = '-'.toUInt8 ∨ byte = '.'.toUInt8 ∨
    byte = '_'.toUInt8 ∨ byte = '~'.toUInt8

/-- The hexadecimal digit of a value below 16. -/
def hexDigit (value : ℕ) : Char := "0123456789ABCDEF".toList.getD value '0'

def escapeByte (byte : UInt8) : Text :=
  ['%', hexDigit (byte.toNat / 16), hexDigit (byte.toNat % 16)]

/-- The bytes as text, those that are kept as they are and the others as escapes. -/
def encodeWith (kept : UInt8 → Bool) (bytes : ByteString) : Text :=
  bytes.flatMap fun byte ↦ if kept byte then [Char.ofNat byte.toNat] else escapeByte byte

/-- The bytes that a URI has as they are. -/
def plainInUri (byte : UInt8) : Bool :=
  unreserved byte || byte = '/'.toUInt8 || byte = ':'.toUInt8

/-- `uri_encode` is the percent-encoding that keeps unreserved bytes, and `uri_decode` undoes it,
also where slashes and colons were left as they are. -/
structure PercentCodec (engine : Engine) : Prop where
  encode : ∀ text, engine.uriEncode text = encodeWith unreserved (utf8Bytes text)
  decode : ∀ text, engine.uriDecode (encodeWith plainInUri (utf8Bytes text)) = text

/-! ### Encoded texts -/

theorem replaceText_nil (what replacement : Text) : replaceText what replacement [] = [] := by
  rw [replaceText]

theorem replaceText_of_ne {first character : Char} (what replacement text : Text)
    (hne : character ≠ first) :
    replaceText (first :: what) replacement (character :: text) =
      character :: replaceText (first :: what) replacement text := by
  rw [replaceText, if_neg]
  simp [List.isPrefixOf, hne.symm]

theorem replaceText_prefix (what replacement text : Text) (hne : what ≠ []) :
    replaceText what replacement (what ++ text) =
      replacement ++ replaceText what replacement text := by
  obtain ⟨character, what, rfl⟩ := List.exists_cons_of_ne_nil hne
  have hprefix : (character :: what).isPrefixOf (character :: (what ++ text)) = true :=
    List.isPrefixOf_iff_prefix.mpr (List.prefix_append (character :: what) text)
  rw [List.cons_append, replaceText, if_pos hprefix, List.length_cons, Nat.add_sub_cancel,
    List.drop_left]

theorem replaceText_single (character replacement : Char) (text : Text) :
    replaceText [character] [replacement] text =
      text.map fun c ↦ if c = character then replacement else c := by
  induction text with
  | nil => exact replaceText_nil _ _
  | cons c text ih =>
    by_cases hsame : c = character
    · subst hsame
      have hstep := replaceText_prefix [c] [replacement] text (List.cons_ne_nil _ _)
      rw [List.singleton_append] at hstep
      rw [hstep, ih, List.map_cons, if_pos rfl]
      rfl
    · rw [replaceText_of_ne _ _ _ hsame, ih, List.map_cons, if_neg hsame]

theorem hexDigit_injective : ∀ first < 16, ∀ second < 16,
    hexDigit first = hexDigit second → first = second := by
  decide

theorem hexDigit_ne_percent : ∀ value < 16, hexDigit value ≠ '%' := by decide

theorem digits_lt (byte : UInt8) : byte.toNat / 16 < 16 ∧ byte.toNat % 16 < 16 := by
  have hlt := byte.toNat_lt
  omega

theorem escapeByte_injective : Function.Injective escapeByte := by
  intro first second hequal
  obtain ⟨-, hdigits⟩ := List.cons.inj hequal
  obtain ⟨hhigh, hdigits⟩ := List.cons.inj hdigits
  obtain ⟨hlow, -⟩ := List.cons.inj hdigits
  have hhigh := hexDigit_injective _ (digits_lt first).1 _ (digits_lt second).1 hhigh
  have hlow := hexDigit_injective _ (digits_lt first).2 _ (digits_lt second).2 hlow
  exact UInt8.toNat_inj.mp (by omega)

theorem literal_ne_percent {byte : UInt8} (hne : byte ≠ '%'.toUInt8) :
    Char.ofNat byte.toNat ≠ '%' := by
  have hliteral : ∀ n < 256, Char.ofNat n = '%' → n = 37 := by decide +kernel
  intro hpercent
  exact hne (UInt8.toNat_inj.mp (hliteral byte.toNat byte.toNat_lt hpercent))

theorem encodeWith_cons (kept : UInt8 → Bool) (byte : UInt8) (bytes : ByteString) :
    encodeWith kept (byte :: bytes) =
      (if kept byte then [Char.ofNat byte.toNat] else escapeByte byte) ++ encodeWith kept bytes :=
  List.flatMap_cons

/-- An escape of another byte holds no occurrence of the escape that is replaced. -/
theorem replaceText_escapeByte_of_ne {byte other : UInt8} (hne : other ≠ byte)
    (replacement text : Text) :
    replaceText (escapeByte byte) replacement (escapeByte other ++ text) =
      escapeByte other ++ replaceText (escapeByte byte) replacement text := by
  have hnoPrefix : ¬ (escapeByte byte).isPrefixOf (escapeByte other ++ text) = true := by
    intro hprefix
    have hequal := List.prefix_of_prefix_length_le (List.isPrefixOf_iff_prefix.mp hprefix)
      (List.prefix_append (escapeByte other) text) (Nat.le_refl 3)
    exact hne (escapeByte_injective (hequal.eq_of_length rfl)).symm
  have hdigits := digits_lt other
  rw [escapeByte, escapeByte] at hnoPrefix ⊢
  simp only [List.cons_append, List.nil_append] at hnoPrefix ⊢
  rw [replaceText, if_neg hnoPrefix, replaceText_of_ne _ _ _ (hexDigit_ne_percent _ hdigits.1),
    replaceText_of_ne _ _ _ (hexDigit_ne_percent _ hdigits.2)]

/-- Replacing the escapes of a byte by the byte keeps it in the encoding. -/
theorem replaceText_encodeWith (kept : UInt8 → Bool) (byte : UInt8)
    (hpercent : kept '%'.toUInt8 = false) (hbyte : kept byte = false) (bytes : ByteString) :
    replaceText (escapeByte byte) [Char.ofNat byte.toNat] (encodeWith kept bytes) =
      encodeWith (fun other ↦ kept other || other = byte) bytes := by
  induction bytes with
  | nil => exact replaceText_nil _ _
  | cons other bytes ih =>
    rw [encodeWith_cons, encodeWith_cons]
    by_cases hkept : kept other = true
    · have hne : other ≠ '%'.toUInt8 := by
        rintro rfl
        exact Bool.false_ne_true (hpercent.symm.trans hkept)
      rw [if_pos hkept, if_pos (by rw [hkept, Bool.true_or]), List.singleton_append,
        List.singleton_append]
      exact (replaceText_of_ne _ _ _ (literal_ne_percent hne)).trans (congrArg _ ih)
    · by_cases hsame : other = byte
      · subst hsame
        rw [if_neg hkept, if_pos (by simp),
          replaceText_prefix (escapeByte other) _ _ (List.cons_ne_nil _ _), ih]
      · rw [if_neg hkept, if_neg (by simp [hkept, hsame]), replaceText_escapeByte_of_ne hsame, ih]

/-- Slashes and colons are left as they are in a URI. -/
theorem replaceText_unreserved (bytes : ByteString) :
    replaceText "%3A".toList [':'] (replaceText "%2F".toList ['/']
        (encodeWith unreserved bytes)) = encodeWith plainInUri bytes := by
  have hslash := replaceText_encodeWith unreserved '/'.toUInt8 (by decide) (by decide) bytes
  have hcolon := replaceText_encodeWith (fun other ↦ unreserved other || other = '/'.toUInt8)
    ':'.toUInt8 (by decide) (by decide) bytes
  exact (congrArg (replaceText "%3A".toList [':']) hslash).trans hcolon

theorem utf8Bytes_append (first second : Text) :
    utf8Bytes (first ++ second) = utf8Bytes first ++ utf8Bytes second := List.flatMap_append

theorem plain_ascii : ∀ n < 256, plainInUri (UInt8.ofNat n) = true →
    (Char.ofNat n).val ≤ 127 ∧ (Char.ofNat n).toUInt8 = UInt8.ofNat n ∧
      UInt8.ofNat n ≠ '%'.toUInt8 := by
  decide +kernel

theorem hexDigit_ascii : ∀ value < 16, (hexDigit value).val ≤ 127 ∧
    (ascii "0123456789ABCDEF")[value]? = some (hexDigit value).toUInt8 := by
  decide

/-- What is sent for a path is an encoding of its bytes. -/
theorem encodes_encodeWith (bytes : ByteString) :
    Encodes bytes (utf8Bytes (encodeWith plainInUri bytes)) := by
  induction bytes with
  | nil => exact .nil
  | cons byte bytes ih =>
    rw [encodeWith_cons, utf8Bytes_append]
    by_cases hplain : plainInUri byte = true
    · have hascii := plain_ascii byte.toNat byte.toNat_lt
      rw [UInt8.ofNat_toNat] at hascii
      obtain ⟨hle, hbyte, hpercent⟩ := hascii hplain
      rw [if_pos hplain, utf8Bytes_cons, utf8EncodeChar_ascii hle, hbyte]
      exact .literal hpercent ih
    · obtain ⟨hhigh, hhighDigit⟩ := hexDigit_ascii _ (digits_lt byte).1
      obtain ⟨hlow, hlowDigit⟩ := hexDigit_ascii _ (digits_lt byte).2
      have hpercent : ('%' : Char).val ≤ 127 := by decide
      have hbyte : byte = UInt8.ofNat (16 * (byte.toNat / 16) + byte.toNat % 16) := by
        rw [Nat.div_add_mod, UInt8.ofNat_toNat]
      rw [if_neg hplain, escapeByte, utf8Bytes_cons, utf8Bytes_cons, utf8Bytes_cons,
        utf8EncodeChar_ascii hpercent, utf8EncodeChar_ascii hhigh, utf8EncodeChar_ascii hlow]
      conv => arg 1; rw [hbyte]
      exact .escape (Or.inr hhighDigit) (Or.inr hlowDigit) ih

/-! ### The way to a URI and back -/

variable {engine : Engine}

/-- The path with backslashes as slashes. -/
def slashed (path : Text) : Text := path.map fun c ↦ if c = '\\' then '/' else c

/-- What a URI has of a path behind `file://`: two leading slashes are those of the URI. -/
def behindScheme (path : Text) : Text :=
  if "//".toList.isPrefixOf (slashed path) then (slashed path).drop 2 else slashed path

/-- The path that is read from a URI with this text behind `file://`. -/
def readBack (behind : Text) : Text :=
  if behind.head? = some '/' then behind else "//".toList ++ behind

theorem head?_slashed {path : Text} (habsolute : path.head? = some '/') :
    (slashed path).head? = some '/' := by
  rw [slashed, List.head?_map, habsolute]
  rfl

theorem isPrefixOf_slash (text : Text) :
    "/".toList.isPrefixOf text = true ↔ text.head? = some '/' := by
  cases text with
  | nil => exact iff_of_false (fun h ↦ by cases h) (fun h ↦ by cases h)
  | cons c text =>
    rw [List.isPrefixOf_iff_prefix]
    change ['/'] <+: c :: text ↔ some c = some '/'
    rw [List.cons_prefix_cons, Option.some.injEq]
    exact ⟨fun h ↦ h.1.symm, fun h ↦ ⟨h.symm, List.nil_prefix⟩⟩

theorem head?_encodeWith (bytes : ByteString) :
    (encodeWith plainInUri bytes).head? = some '/' ↔ bytes.head? = some slash := by
  cases bytes with
  | nil => exact iff_of_false (fun h ↦ by cases h) (fun h ↦ by cases h)
  | cons byte bytes =>
    have hliteral : ∀ n < 256, Char.ofNat n = '/' ↔ UInt8.ofNat n = slash := by decide +kernel
    rw [encodeWith_cons, List.head?_cons, Option.some.injEq]
    by_cases hplain : plainInUri byte = true
    · have hbyte := hliteral byte.toNat byte.toNat_lt
      rw [UInt8.ofNat_toNat] at hbyte
      rw [if_pos hplain, List.singleton_append, List.head?_cons, Option.some.injEq, hbyte]
    · rw [if_neg hplain, escapeByte, List.cons_append, List.head?_cons, Option.some.injEq]
      refine iff_of_false (by decide) ?_
      rintro rfl
      exact hplain (by decide)

theorem pathToUri_eq (hcodec : PercentCodec engine) {path : Text}
    (hglobalize : engine.globalizePath path = path) (habsolute : path.head? = some '/') :
    pathToUri engine path = "file://".toList ++
      encodeWith plainInUri (utf8Bytes (behindScheme path)) := by
  have habsolute' := (isPrefixOf_slash _).mpr (head?_slashed habsolute)
  rw [pathToUri, hglobalize, replaceText_single, hcodec.encode, replaceText_unreserved]
  rw [behindScheme, slashed] at *
  split_ifs with hdouble
  · obtain ⟨rest, hrest⟩ := List.isPrefixOf_iff_prefix.mp hdouble
    rw [← hrest]
    rfl
  · rfl

theorem uriToPath_eq (hcodec : PercentCodec engine) (hposix : engine.isWindows = false)
    (behind : Text) :
    uriToPath engine ("file://".toList ++ encodeWith plainInUri (utf8Bytes behind)) =
      engine.localizePath (readBack behind) := by
  have hfile : "file://".toList.isPrefixOf
      ("file://".toList ++ encodeWith plainInUri (utf8Bytes behind)) = true :=
    List.isPrefixOf_iff_prefix.mpr (List.prefix_append _ _)
  have hpayload : ("file://".toList ++ encodeWith plainInUri (utf8Bytes behind)).drop 7 =
      encodeWith plainInUri (utf8Bytes behind) := rfl
  have hhead : "/".toList.isPrefixOf (encodeWith plainInUri (utf8Bytes behind)) = true ↔
      behind.head? = some '/' := by
    rw [isPrefixOf_slash, head?_encodeWith]
    exact head?_utf8Bytes_iff (by decide) behind
  have hdecoded : engine.uriDecode
      (if "/".toList.isPrefixOf (encodeWith plainInUri (utf8Bytes behind)) then
        encodeWith plainInUri (utf8Bytes behind)
      else "//".toList ++ encodeWith plainInUri (utf8Bytes behind)) = readBack behind := by
    rw [readBack]
    by_cases hrooted : behind.head? = some '/'
    · rw [if_pos (hhead.mpr hrooted), if_pos hrooted, hcodec.decode]
    · rw [if_neg (mt hhead.mp hrooted), if_neg hrooted]
      exact hcodec.decode ("//".toList ++ behind)
  rw [uriToPath, if_pos hfile, hpayload]
  dsimp only
  rw [hdecoded, hposix]
  rfl

/-! ### Agreement -/

/-- The URI of a path leads back to the path and to its key. -/
structure Agrees (engine : Engine) (path : Text) : Prop where
  back : uriToPath engine (pathToUri engine path) = path
  key : gzNormalizeDocumentPath (utf8Bytes (pathToUri engine path)) =
    gzNormalizeDocumentPath (utf8Bytes path)

/-- The path has no backslash and no three leading slashes, and behind two leading slashes there is
something without a colon. -/
def Unambiguous (path : Text) : Prop :=
  '\\' ∉ path ∧ ¬ "///".toList <+: path ∧
    ∀ rest, path = "//".toList ++ rest → rest ≠ [] ∧ ':' ∉ rest

theorem slashed_of_not_mem {path : Text} (hbackslash : '\\' ∉ path) : slashed path = path := by
  refine (List.map_congr_left fun c hc ↦ ?_).trans (List.map_id path)
  have hne : c ≠ '\\' := by
    rintro rfl
    exact hbackslash hc
  exact if_neg hne

theorem not_mem_slashed (path : Text) : '\\' ∉ slashed path := by
  intro hmem
  obtain ⟨c, -, hc⟩ := List.mem_map.mp hmem
  split_ifs at hc with hbackslash
  · exact absurd hc (by decide)
  · exact hbackslash hc

/-- Three leading slashes lose two. -/
theorem readBack_behindScheme {path : Text} (habsolute : path.head? = some '/') :
    readBack (behindScheme path) =
      if "///".toList.isPrefixOf (slashed path) then (slashed path).drop 2 else slashed path := by
  have habsolute' := head?_slashed habsolute
  rw [behindScheme]
  generalize slashed path = text at *
  obtain ⟨text, rfl⟩ := List.head?_eq_some_iff.mp habsolute'
  cases text with
  | nil => rfl
  | cons second text =>
    by_cases hsecond : second = '/'
    · subst hsecond
      change readBack text = if "///".toList.isPrefixOf ('/' :: '/' :: text) then text
        else '/' :: '/' :: text
      have hthird : "///".toList.isPrefixOf ('/' :: '/' :: text) = true ↔
          text.head? = some '/' := isPrefixOf_slash text
      rw [readBack]
      by_cases hhead : text.head? = some '/'
      · rw [if_pos hhead, if_pos (hthird.mpr hhead)]
      · rw [if_neg hhead, if_neg (mt hthird.mp hhead)]
        rfl
    · have hdouble : ¬ "//".toList.isPrefixOf ('/' :: second :: text) = true := by
        intro h
        exact hsecond (Option.some.inj ((isPrefixOf_slash (second :: text)).mp h))
      have htriple : ¬ "///".toList.isPrefixOf ('/' :: second :: text) = true := by
        intro hprefix
        have hlonger := List.isPrefixOf_iff_prefix.mp hprefix
        exact hdouble (List.isPrefixOf_iff_prefix.mpr
          ((List.prefix_append "//".toList ['/']).trans hlonger))
      rw [if_neg hdouble, if_neg htriple]
      rfl

/-- A path is read back exactly if it has no backslash and no three leading slashes. -/
theorem readBack_behindScheme_iff {path : Text} (habsolute : path.head? = some '/') :
    readBack (behindScheme path) = path ↔ '\\' ∉ path ∧ ¬ "///".toList <+: path := by
  rw [readBack_behindScheme habsolute, ← List.isPrefixOf_iff_prefix]
  constructor
  · intro hback
    have hbackslash : '\\' ∉ path := by
      rw [← hback]
      intro hmem
      split_ifs at hmem
      · exact not_mem_slashed path (List.mem_of_mem_drop hmem)
      · exact not_mem_slashed path hmem
    refine ⟨hbackslash, fun htriple ↦ ?_⟩
    rw [slashed_of_not_mem hbackslash, if_pos htriple] at hback
    have hlong := (List.isPrefixOf_iff_prefix.mp htriple).length_le
    have hlength := congrArg List.length hback
    rw [List.length_drop] at hlength
    change 3 ≤ path.length at hlong
    omega
  · rintro ⟨hbackslash, htriple⟩
    rw [slashed_of_not_mem hbackslash, if_neg htriple]

/-- A second leading separator does not matter to the key. -/
theorem normalize_double (path : ByteString) :
    gzNormalizeDocumentPath (slash :: slash :: path) = gzNormalizeDocumentPath (slash :: path) := by
  have hsame : lexicalResolution (slash :: slash :: path) = lexicalResolution (slash :: path) := by
    rw [← restParts_absolute rfl, ← restParts_absolute rfl, restParts, restParts,
      hasDrivePrefix_cons (by decide), hasDrivePrefix_cons (by decide)]
    simp only [Library.Segments.segments_cons_self]
    rfl
  exact (normalize_eq_iff rfl rfl).mpr hsame

theorem utf8Bytes_fileUri (behind : Text) :
    utf8Bytes ("file://".toList ++ encodeWith plainInUri (utf8Bytes behind)) =
      ascii "file://" ++ utf8Bytes (encodeWith plainInUri (utf8Bytes behind)) :=
  utf8Bytes_append _ _

theorem mem_colon_iff (text : Text) : ':'.toUInt8 ∈ utf8Bytes text ↔ ':' ∈ text :=
  mem_utf8Bytes_iff (by decide) text

theorem head?_slash_iff (text : Text) :
    (utf8Bytes text).head? = some slash ↔ text.head? = some '/' :=
  head?_utf8Bytes_iff (by decide) text

theorem utf8Bytes_ne_nil {text : Text} (hne : text ≠ []) : utf8Bytes text ≠ [] := by
  obtain ⟨c, text, rfl⟩ := List.exists_cons_of_ne_nil hne
  rw [utf8Bytes_cons]
  exact List.append_ne_nil_of_left_ne_nil String.utf8EncodeChar_ne_nil _

/-- The key of the URI of a path that has one leading slash only. -/
theorem key_of_single {path : Text} (habsolute : path.head? = some '/') :
    gzNormalizeDocumentPath (utf8Bytes
        ("file://".toList ++ encodeWith plainInUri (utf8Bytes path))) =
      gzNormalizeDocumentPath (utf8Bytes path) := by
  have hhead := (head?_slash_iff path).mpr habsolute
  have hne : utf8Bytes path ≠ [] := by
    intro hempty
    rw [hempty] at hhead
    cases hhead
  have hnames := namesAbsolute_of_fits hne (encodes_encodeWith _) (Or.inl hhead)
  rw [utf8Bytes_fileUri, hnames.2, absolutePath, if_pos hhead]

/-- The key of the URI of a path with two leading slashes. -/
theorem key_of_double_iff {rest : Text} (hhead : rest.head? ≠ some '/') :
    gzNormalizeDocumentPath (utf8Bytes
        ("file://".toList ++ encodeWith plainInUri (utf8Bytes rest))) =
      gzNormalizeDocumentPath (utf8Bytes ("//".toList ++ rest)) ↔ rest ≠ [] ∧ ':' ∉ rest := by
  have habsolute : gzNormalizeDocumentPath (utf8Bytes ("//".toList ++ rest)) =
      gzNormalizeDocumentPath (absolutePath (utf8Bytes rest)) := by
    rw [absolutePath, if_neg (mt (head?_slash_iff rest).mp hhead)]
    exact normalize_double (utf8Bytes rest)
  rw [utf8Bytes_fileUri, habsolute]
  by_cases hne : rest = []
  · subst hne
    refine iff_of_false ?_ fun h ↦ h.1 rfl
    decide +kernel
  · have hencodes := encodes_encodeWith (utf8Bytes rest)
    constructor
    · intro hkey
      have hcanonical := canonical_of_absolute (head?_absolutePath (utf8Bytes rest))
      have hfits := fits_of_absolute (utf8Bytes_ne_nil hne) hencodes
        (hkey ▸ hcanonical.absolute)
      rw [head?_slash_iff, mem_colon_iff] at hfits
      exact ⟨hne, hfits.resolve_left hhead⟩
    · rintro ⟨-, hcolon⟩
      rw [← mem_colon_iff] at hcolon
      exact (namesAbsolute_of_fits (utf8Bytes_ne_nil hne) hencodes (Or.inr hcolon)).2

/-- The URI of an absolute path leads back to the path and its key if the path is unambiguous, and
for no other path where `localize_path` makes no other path of its own to this one. -/
theorem agrees_iff (engine : Engine) (path : Text) (hposix : engine.isWindows = false)
    (hcodec : PercentCodec engine) (habsolute : path.head? = some '/')
    (hglobalize : engine.globalizePath path = path)
    (hlocalize : engine.localizePath path = path) :
    (Unambiguous path → Agrees engine path) ∧
      ((∀ other, engine.localizePath other = path → other = path) →
        Agrees engine path → Unambiguous path) := by
  have hback : uriToPath engine (pathToUri engine path) =
      engine.localizePath (readBack (behindScheme path)) := by
    rw [pathToUri_eq hcodec hglobalize habsolute, uriToPath_eq hcodec hposix]
  -- A path that is read back is sent as it is, or without two leading slashes.
  have hkey : '\\' ∉ path → ¬ "///".toList <+: path →
      (gzNormalizeDocumentPath (utf8Bytes (pathToUri engine path)) =
          gzNormalizeDocumentPath (utf8Bytes path) ↔
        ∀ rest, path = "//".toList ++ rest → rest ≠ [] ∧ ':' ∉ rest) := by
    intro hbackslash htriple
    rw [pathToUri_eq hcodec hglobalize habsolute, behindScheme, slashed_of_not_mem hbackslash]
    split_ifs with hdouble
    · obtain ⟨rest, rfl⟩ := List.isPrefixOf_iff_prefix.mp hdouble
      have hhead : rest.head? ≠ some '/' := by
        intro h
        obtain ⟨rest, rfl⟩ := List.head?_eq_some_iff.mp h
        exact htriple (List.prefix_append "///".toList rest)
      have hdrop : ("//".toList ++ rest).drop 2 = rest := rfl
      rw [hdrop, key_of_double_iff hhead]
      refine ⟨?_, fun h ↦ h rest rfl⟩
      rintro h other hother
      rwa [← List.append_cancel_left hother]
    · refine iff_of_true (key_of_single habsolute) ?_
      rintro rest rfl
      exact absurd (List.isPrefixOf_iff_prefix.mpr (List.prefix_append _ _)) hdouble
  constructor
  · rintro ⟨hbackslash, htriple, hrest⟩
    refine ⟨?_, (hkey hbackslash htriple).mpr hrest⟩
    rw [hback, (readBack_behindScheme_iff habsolute).mpr ⟨hbackslash, htriple⟩, hlocalize]
  · intro honly hagrees
    obtain ⟨hbackslash, htriple⟩ := (readBack_behindScheme_iff habsolute).mp
      (honly _ (hback.symm.trans hagrees.back))
    exact ⟨hbackslash, htriple, (hkey hbackslash htriple).mp hagrees.key⟩

/-- An engine that leaves paths as they are and encodes the bytes of a text. -/
def sampleEngine : Engine where
  globalizePath := id
  localizePath := id
  uriEncode text := encodeWith unreserved (utf8Bytes text)
  uriDecode text := ((String.fromUTF8? ⟨(uriDecode (utf8Bytes text)).toArray⟩).getD "").toList
  isWindows := false
  utf8 bytes := ((String.fromUTF8? ⟨bytes.toArray⟩).getD "").toList
  parseString _ := .null
  stringify _ := []
  integerOf _ := 0

theorem fromUTF8?_utf8Bytes (text : Text) :
    String.fromUTF8? ⟨(utf8Bytes text).toArray⟩ = some (String.ofList text) := by
  have hbytes : (⟨(utf8Bytes text).toArray⟩ : ByteArray) = (String.ofList text).toByteArray :=
    ByteArray.ext List.data_toByteArray.symm
  rw [hbytes, String.fromUTF8?, dif_pos (String.ofList text).isValidUTF8]
  rfl

theorem uriDecode_sampleEngine (text : Text) : sampleEngine.uriDecode text =
    ((String.fromUTF8? ⟨(uriDecode (utf8Bytes text)).toArray⟩).getD "").toList := rfl

theorem percentCodec_sampleEngine : PercentCodec sampleEngine where
  encode _ := rfl
  decode text := by
    rw [uriDecode_sampleEngine, uriDecode_of_encodes (encodes_encodeWith _),
      fromUTF8?_utf8Bytes, Option.getD_some, String.toList_ofList]

/-- A path with a blank and a colon. -/
theorem agrees_iff_blank : Agrees sampleEngine "/game/my dir/a:b.zig".toList := by
  refine (agrees_iff sampleEngine "/game/my dir/a:b.zig".toList rfl percentCodec_sampleEngine
    (by decide) rfl rfl).1 ⟨by decide, by decide, ?_⟩
  rintro rest hrest
  have hsecond : some 'g' = some '/' := congrArg (fun text : Text ↦ text[1]?) hrest
  exact absurd (Option.some.inj hsecond) (by decide)

/-- A file whose name has a backslash is sent to the server under another name. -/
theorem backslash_not_agrees :
    PercentCodec sampleEngine ∧
      uriToPath sampleEngine (pathToUri sampleEngine "/game/a\\b.zig".toList) =
        "/game/a/b.zig".toList ∧
      ¬ Agrees sampleEngine "/game/a\\b.zig".toList := by
  have hback : uriToPath sampleEngine (pathToUri sampleEngine "/game/a\\b.zig".toList) =
      "/game/a/b.zig".toList := by
    rw [pathToUri_eq percentCodec_sampleEngine rfl (by decide),
      uriToPath_eq percentCodec_sampleEngine rfl]
    decide
  refine ⟨percentCodec_sampleEngine, hback, fun hagrees ↦ ?_⟩
  have hsame := hagrees.back
  rw [hback] at hsame
  exact absurd hsame (by decide)

end Gzscript.Lsp.DocumentUri
