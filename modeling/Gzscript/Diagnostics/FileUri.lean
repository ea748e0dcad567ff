import Gzscript.Diagnostics.CanonicalPath

/-!
# File URIs name documents

A path is written in a `file://` URI with some of its bytes percent-encoded, and more than one such
text stands for the same path (`Encodes`). Decoding gives the path back from all of them
(`uriDecode_of_encodes`), and with a separator in front of a path that has none, the URI is to name
the absolute document of that path (`NamesAbsolute`).

The separator is left out for paths with a colon, so that a drive keeps its letter in front, but the
colon is looked for in the whole path. So a URI names its document exactly if the path starts with a
separator or has no colon at all (`namesAbsolute_iff`), and a colon further on makes the document
relative (`colon_not_absolute`).
-/

set_option autoImplicit false
set_option relaxedAutoImplicit false

namespace Gzscript.Diagnostics.FileUri

open Library.Bytes Diagnostics.Path CanonicalPath

/-! ### Percent-encodings -/

/-- A hexadecimal digit of a value. -/
def IsDigit (digit : UInt8) (value : ℕ) : Prop :=
  (ascii "0123456789abcdef")[value]? = some digit ∨
    (ascii "0123456789ABCDEF")[value]? = some digit

/-- The second string is the first with each byte as it is or as an escape of two digits, and each
percent sign as an escape. -/
inductive Encodes : ByteString → ByteString → Prop
  | nil : Encodes [] []
  | literal {byte : UInt8} {bytes encoded : ByteString} (hpercent : byte ≠ '%'.toUInt8)
      (hrest : Encodes bytes encoded) : Encodes (byte :: bytes) (byte :: encoded)
  | escape {bytes encoded : ByteString} {high low : ℕ} {highDigit lowDigit : UInt8}
      (hhigh : IsDigit highDigit high) (hlow : IsDigit lowDigit low)
      (hrest : Encodes bytes encoded) :
      Encodes (UInt8.ofNat (16 * high + low) :: bytes)
        ('%'.toUInt8 :: highDigit :: lowDigit :: encoded)

theorem IsDigit.lt {digit : UInt8} {value : ℕ} (hdigit : IsDigit digit value) : value < 16 := by
  rcases hdigit with hdigit | hdigit
  · exact (List.getElem?_eq_some_iff.mp hdigit).1
  · exact (List.getElem?_eq_some_iff.mp hdigit).1

theorem hexValue_digits : ∀ value < 16,
    ((ascii "0123456789abcdef")[value]?.bind hexValue) = some (UInt8.ofNat value) ∧
      ((ascii "0123456789ABCDEF")[value]?.bind hexValue) = some (UInt8.ofNat value) := by
  decide

theorem hexValue_of_isDigit {digit : UInt8} {value : ℕ} (hdigit : IsDigit digit value) :
    hexValue digit = some (UInt8.ofNat value) := by
  obtain ⟨hlower, hupper⟩ := hexValue_digits value hdigit.lt
  rcases hdigit with hdigit | hdigit
  · rwa [hdigit] at hlower
  · rwa [hdigit] at hupper

theorem digits_combine : ∀ high < 16, ∀ low < 16,
    UInt8.ofNat high <<< 4 ||| UInt8.ofNat low = UInt8.ofNat (16 * high + low) := by
  decide +kernel

theorem uriDecode_cons {byte : UInt8} (hpercent : byte ≠ '%'.toUInt8) (bytes : ByteString) :
    uriDecode (byte :: bytes) = byte :: uriDecode bytes := by
  match bytes with
  | [] => rfl
  | [_] => rfl
  | _ :: _ :: _ => rw [uriDecode, if_neg hpercent]

/-- Every encoding of a string is decoded to it. -/
theorem uriDecode_of_encodes {bytes encoded : ByteString} (hencodes : Encodes bytes encoded) :
    uriDecode encoded = bytes := by
  induction hencodes with
  | nil => rfl
  | literal hpercent _ ih => rw [uriDecode_cons hpercent, ih]
  | escape hhigh hlow _ ih =>
    rw [uriDecode, if_pos rfl, hexValue_of_isDigit hhigh, hexValue_of_isDigit hlow]
    dsimp only
    rw [ih, digits_combine _ hhigh.lt _ hlow.lt]

theorem encodes_self {bytes : ByteString} (hpercent : '%'.toUInt8 ∉ bytes) :
    Encodes bytes bytes := by
  induction bytes with
  | nil => exact .nil
  | cons byte bytes ih =>
    obtain ⟨hne, hrest⟩ := not_or.mp (List.mem_cons.not.mp hpercent)
    exact .literal (fun h ↦ hne h.symm) (ih hrest)

/-! ### Documents -/

/-- The absolute path of a document, which has a separator in front. -/
def absolutePath (path : ByteString) : ByteString :=
  if path.head? = some slash then path else slash :: path

theorem head?_absolutePath (path : ByteString) : (absolutePath path).head? = some slash := by
  rw [absolutePath]
  split_ifs with hhead
  · exact hhead
  · rfl

/-- The URI with an encoding of a path names the absolute document of the path. -/
def NamesAbsolute (path encoded : ByteString) : Prop :=
  (gzNormalizeDocumentPath (ascii "file://" ++ encoded)).head? = some slash ∧
    gzNormalizeDocumentPath (ascii "file://" ++ encoded) =
      gzNormalizeDocumentPath (absolutePath path)

theorem splitScheme_fileUri {path encoded : ByteString} (hnonempty : path ≠ [])
    (hencodes : Encodes path encoded) :
    splitScheme (ascii "file://" ++ encoded) =
      ([], if ':'.toUInt8 ∈ path then path else absolutePath path) := by
  have hfile : (ascii "file://").isPrefixOf (ascii "file://" ++ encoded) :=
    List.isPrefixOf_iff_prefix.mpr (List.prefix_append _ _)
  have hpayload : (ascii "file://" ++ encoded).drop 7 = encoded := rfl
  rw [splitScheme, if_pos hfile, hpayload, uriDecode_of_encodes hencodes, absolutePath]
  dsimp only
  by_cases hhead : path.head? = some slash
  · simp [hhead]
  · by_cases hcolon : ':'.toUInt8 ∈ path <;> simp [hhead, hcolon, hnonempty]

theorem normalize_absolutePath (path : ByteString) :
    gzNormalizeDocumentPath (absolutePath path) = normalizeRest (absolutePath path) := by
  rw [gzNormalizeDocumentPath_eq, splitScheme_absolute (head?_absolutePath path),
    List.nil_append]

theorem normalize_fileUri {path encoded : ByteString} (hnonempty : path ≠ [])
    (hencodes : Encodes path encoded) : gzNormalizeDocumentPath (ascii "file://" ++ encoded) =
      normalizeRest (if ':'.toUInt8 ∈ path then path else absolutePath path) := by
  rw [gzNormalizeDocumentPath_eq, splitScheme_fileUri hnonempty hencodes, List.nil_append]

/-- A path with a colon and no separator in front of it gets a relative document. -/
theorem fits_of_absolute {path encoded : ByteString} (hnonempty : path ≠ [])
    (hencodes : Encodes path encoded)
    (hhead : (gzNormalizeDocumentPath (ascii "file://" ++ encoded)).head? = some slash) :
    path.head? = some slash ∨ ':'.toUInt8 ∉ path := by
  rw [normalize_fileUri hnonempty hencodes] at hhead
  by_contra hcontra
  obtain ⟨hrelative, hcolon⟩ := not_or.mp hcontra
  rw [if_pos (not_not.mp hcolon)] at hhead
  have hrooted : isRooted (normalizeRest path) = true := decide_eq_true hhead
  rw [isRooted_normalizeRest] at hrooted
  exact hrelative (of_decide_eq_true hrooted)

theorem namesAbsolute_of_fits {path encoded : ByteString} (hnonempty : path ≠ [])
    (hencodes : Encodes path encoded)
    (hfits : path.head? = some slash ∨ ':'.toUInt8 ∉ path) : NamesAbsolute path encoded := by
  have hsame : (if ':'.toUInt8 ∈ path then path else absolutePath path) = absolutePath path := by
    split_ifs with hcolon
    · rw [absolutePath, if_pos (hfits.resolve_right (not_not_intro hcolon))]
    · rfl
  have hrooted : isRooted (absolutePath path) = true := decide_eq_true (head?_absolutePath path)
  rw [NamesAbsolute, normalize_fileUri hnonempty hencodes, normalize_absolutePath, hsame]
  exact ⟨of_decide_eq_true ((isRooted_normalizeRest _).trans hrooted), rfl⟩

/-- A URI names the absolute document of its path exactly if the path starts with a separator or
has no colon. -/
theorem namesAbsolute_iff (path encoded : ByteString) (hnonempty : path ≠ [])
    (hencodes : Encodes path encoded) :
    NamesAbsolute path encoded ↔ path.head? = some slash ∨ ':'.toUInt8 ∉ path :=
  ⟨fun hnames ↦ fits_of_absolute hnonempty hencodes hnames.1,
    namesAbsolute_of_fits hnonempty hencodes⟩

/-- A path with a blank that is escaped. -/
theorem namesAbsolute_iff_blank : NamesAbsolute (ascii " b") (ascii "%20b") := by
  have hblank : Encodes (ascii " b") (ascii "%20b") :=
    .escape (show IsDigit '2'.toUInt8 2 from Or.inl rfl)
      (show IsDigit '0'.toUInt8 0 from Or.inl rfl) (encodes_self (by decide))
  exact (namesAbsolute_iff (ascii " b") (ascii "%20b") (by decide) hblank).mpr
    (Or.inr (by decide))

theorem colon_not_absolute :
    hasDrivePrefix (ascii "host/a:b.zig") = false ∧
      Encodes (ascii "host/a:b.zig") (ascii "host/a:b.zig") ∧
      gzNormalizeDocumentPath (ascii "file://host/a:b.zig") = ascii "host/a:b.zig" ∧
      ¬ NamesAbsolute (ascii "host/a:b.zig") (ascii "host/a:b.zig") := by
  have hrelative : gzNormalizeDocumentPath (ascii "file://" ++ ascii "host/a:b.zig") =
      ascii "host/a:b.zig" := by
    decide
  refine ⟨rfl, encodes_self (by decide), hrelative, fun hnames ↦ ?_⟩
  have hhead := hnames.1
  rw [hrelative] at hhead
  exact absurd hhead (by decide)

end Gzscript.Diagnostics.FileUri
