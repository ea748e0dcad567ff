import Gzscript.Library.Bytes

/-!
# Document paths

`gzNormalizeDocumentPath` is the canonical key of a document: `file://` URIs are decoded, other
schemes are kept, duplicate separators collapse and `.` and `..` segments are resolved without the
file system. This is the branch of the source for systems other than Windows, where a backslash is
an ordinary character and a leading double slash is not kept.
-/

set_option autoImplicit false
set_option relaxedAutoImplicit false

namespace Gzscript.Diagnostics.Path

open Library.Bytes

/-- The separator of path segments. -/
def slash : UInt8 := '/'.toUInt8

/-- The value of a hexadecimal digit. -/
def hexValue (digit : UInt8) : Option UInt8 :=
  if '0'.toUInt8 ≤ digit ∧ digit ≤ '9'.toUInt8 then some (digit - '0'.toUInt8)
  else if 'a'.toUInt8 ≤ digit ∧ digit ≤ 'f'.toUInt8 then some (digit - 'a'.toUInt8 + 10)
  else if 'A'.toUInt8 ≤ digit ∧ digit ≤ 'F'.toUInt8 then some (digit - 'A'.toUInt8 + 10)
  else none

/-- Percent-decoding; malformed escapes are left untouched. -/
def uriDecode : ByteString → ByteString
  | [] => []
  | [first] => [first]
  | [first, second] => [first, second]
  | first :: second :: third :: rest =>
    if first = '%'.toUInt8 then
      match hexValue second, hexValue third with
      | some high, some low => (high <<< 4 ||| low) :: uriDecode rest
      | _, _ => first :: uriDecode (second :: third :: rest)
    else first :: uriDecode (second :: third :: rest)

/-- A character a scheme name may have at the position `index`. -/
def schemeCharacter (index : ℕ) (c : UInt8) : Bool :=
  ('a'.toUInt8 ≤ c ∧ c ≤ 'z'.toUInt8) ∨ ('A'.toUInt8 ≤ c ∧ c ≤ 'Z'.toUInt8) ∨
    (0 < index ∧ (('0'.toUInt8 ≤ c ∧ c ≤ '9'.toUInt8) ∨ c = '+'.toUInt8 ∨ c = '-'.toUInt8 ∨
      c = '.'.toUInt8))

/-- The scheme prefix to keep, and the rest of the path with `file://` URIs decoded. -/
def splitScheme (path : ByteString) : ByteString × ByteString :=
  if (ascii "file://").isPrefixOf path then
    let work := uriDecode (path.drop 7)
    -- file:///abs and file://host/abs both reduce to an absolute path.
    if work ≠ [] ∧ work.head? ≠ some slash ∧ ':'.toUInt8 ∉ work then ([], slash :: work)
    else ([], work)
  else
    match find (ascii "://") path with
    | none => ([], path)
    | some schemeEnd =>
      if 0 < schemeEnd ∧
          ((path.take schemeEnd).mapIdx schemeCharacter).all (fun ok ↦ ok) then
        let work := path.drop (schemeEnd + 3)
        (path.take (schemeEnd + 3), if work.head? = some slash then work.drop 1 else work)
      else ([], path)

/-- Drops every separator that follows a separator; `last` is the last character kept. -/
def collapseSeparators (last : Option UInt8) : ByteString → ByteString
  | [] => []
  | c :: rest =>
    if c = slash ∧ last = some slash then collapseSeparators last rest
    else c :: collapseSeparators (some c) rest

/-- A drive letter followed by a colon. -/
def hasDrivePrefix : ByteString → Bool
  | letter :: colon :: _ => colon = ':'.toUInt8 ∧
      (('a'.toUInt8 ≤ letter ∧ letter ≤ 'z'.toUInt8) ∨
        ('A'.toUInt8 ≤ letter ∧ letter ≤ 'Z'.toUInt8))
  | _ => false

/-- One segment of the lexical resolution of `.` and `..`. -/
def resolveSegment (rooted hasDrive : Bool) (parts : List ByteString) (segment : ByteString) :
    List ByteString :=
  if segment = [] ∨ segment = ascii "." then parts
  else if segment = ascii ".." then
    if parts ≠ [] ∧ parts.getLast? ≠ some (ascii "..") ∧ parts.getLast? ≠ some (ascii "/") ∧
        ¬ (parts.length = 1 ∧ hasDrive) then parts.dropLast
    else if ¬ rooted ∧ ¬ hasDrive then parts ++ [segment]
    else parts
  else parts ++ [segment]

/-- The canonical key of a document path. -/
def gzNormalizeDocumentPath (path : ByteString) : ByteString :=
  let (schemePrefix, work) := splitScheme path
  let work := collapseSeparators none work
  let rooted := work.head? = some slash
  let hasDrive := hasDrivePrefix work
  let parts := (work.splitOn slash).foldl (resolveSegment rooted hasDrive) []
  let result := (if rooted then [slash] else []) ++ [slash].intercalate parts
  let result := if result = [] then (if rooted then ascii "/" else ascii ".") else result
  schemePrefix ++ result

example : gzNormalizeDocumentPath (ascii "file:///game/my%20dir/./a/../p.zig") =
    ascii "/game/my dir/p.zig" := by decide

end Gzscript.Diagnostics.Path
