import Mathlib.Data.List.Basic
import Gzscript.Library.Bytes

/-!
# Queries and messages of the language server's client

A query is a position in the text of a document, made of the code that the editor passes, in which
`caretMarker` stands for the caret (`makeQuery`). The documents are named by URIs (`pathToUri`,
`uriToPath`). What the server answers is read as the options of a completion
(`completionOptions`) or as the place of a definition (`definitionResult`). `ClientMessage` is what
the client sends.

A Godot `String` is the list of its characters. The engine's own functions on paths and values are
a parameter (`Engine`).
-/

set_option autoImplicit false
set_option relaxedAutoImplicit false

namespace Gzscript.Lsp.Protocol

open Library.Bytes

/-- A Godot `String`. -/
abbrev Text : Type := List Char

/-- A value that `JSON::parse_string` returns. -/
inductive Json
  | null
  | bool (value : Bool)
  | number (value : Rat)
  | string (value : Text)
  | array (items : List Json)
  | dictionary (fields : List (Text × Json))

/-- What is used of the engine and of the project's settings. -/
structure Engine where
  globalizePath : Text → Text
  localizePath : Text → Text
  uriEncode : Text → Text
  uriDecode : Text → Text
  isWindows : Bool
  utf8 : ByteString → Text
  parseString : Text → Json
  /-- The conversion to a string of a value that is none. -/
  stringify : Json → Text
  /-- The conversion to an integer of a value that is no number. -/
  integerOf : Json → ℤ

variable (engine : Engine)

/-! ### Values -/

namespace Json

/-- The conversion to a `Dictionary`. -/
def toDictionary : Json → List (Text × Json)
  | .dictionary fields => fields
  | _ => []

/-- The conversion to an `Array`. -/
def toArray : Json → List Json
  | .array items => items
  | _ => []

/-- The conversion to a `String`. -/
def toText : Json → Text
  | .string value => value
  | value => engine.stringify value

/-- The conversion to an `int64_t`. -/
def toInteger : Json → ℤ
  | .number value => value.num.tdiv value.den
  | value => engine.integerOf value

end Json

/-- `Dictionary::get`. -/
def field (fields : List (Text × Json)) (key : String) (default : Json) : Json :=
  (fields.lookup key.toList).getD default

/-- `Dictionary::has`. -/
def hasField (fields : List (Text × Json)) (key : String) : Bool :=
  (fields.lookup key.toList).isSome

/-! ### Documents -/

/-- `String::replace`. -/
def replaceText (what replacement : Text) : Text → Text
  | [] => []
  | character :: characters =>
    if what.isPrefixOf (character :: characters) then
      replacement ++ replaceText what replacement (characters.drop (what.length - 1))
    else character :: replaceText what replacement characters
termination_by text => text.length
decreasing_by
  all_goals simp only [List.length_drop, List.length_cons]; omega

/-- `path_to_uri`. -/
def pathToUri (path : Text) : Text :=
  let absolute := replaceText ['\\'] ['/'] (engine.globalizePath path)
  let encoded := replaceText "%3A".toList [':']
    (replaceText "%2F".toList ['/'] (engine.uriEncode absolute))
  if "//".toList.isPrefixOf absolute then "file:".toList ++ encoded
  else if "/".toList.isPrefixOf absolute then "file://".toList ++ encoded
  else "file:///".toList ++ encoded

/-- `uri_to_path`. -/
def uriToPath (uri : Text) : Text :=
  if "file://".toList.isPrefixOf uri then
    let payload := uri.drop 7
    let absolute := engine.uriDecode
      (if "/".toList.isPrefixOf payload then payload else "//".toList ++ payload)
    if engine.isWindows && absolute[0]? = some '/' && absolute[2]? = some ':' then
      engine.localizePath (absolute.drop 1)
    else engine.localizePath absolute
  else []

/-! ### Queries -/

structure Query where
  code : Text
  path : Text
  source : Text
  uri : Text
  line : ℕ
  character : ℕ
  deriving DecidableEq

/-- A query that has just been declared. -/
def Query.empty : Query := ⟨[], [], [], [], 0, 0⟩

/-- U+FFFF, which stands for the caret. -/
def caretMarker : Char := Char.ofNat 0xFFFF

/-- The line and the column, in UTF-16 code units, after one more character. -/
def advance (position : ℕ × ℕ) (character : Char) : ℕ × ℕ :=
  if character = '\n' then (position.1 + 1, 0)
  else (position.1, position.2 + if 0xFFFF < character.toNat then 2 else 1)

/-- `make_query`. -/
def makeQuery (code path : Text) : Query :=
  let position := (code.takeWhile (· ≠ caretMarker)).foldl advance (0, 0)
  { code := code
    path := path
    source := code.filter (· ≠ caretMarker)
    uri := pathToUri engine path
    line := position.1
    character := position.2 }

/-- `same_query`. -/
def sameQuery (left right : Query) : Bool :=
  left.uri = right.uri && left.source = right.source && left.line = right.line &&
    left.character = right.character

/-! ### Answers -/

/-- The kinds of the editor's completion options. -/
inductive CompletionKind
  | functionItem
  | memberItem
  | variableItem
  | classItem
  | enumItem
  | keywordItem
  | constantItem
  | plainTextItem
  deriving DecidableEq

/-- `completion_kind`. -/
def completionKind (kind : ℤ) : CompletionKind :=
  if kind = 2 ∨ kind = 3 ∨ kind = 4 then .functionItem
  else if kind = 5 ∨ kind = 10 then .memberItem
  else if kind = 6 then .variableItem
  else if kind = 7 ∨ kind = 8 ∨ kind = 9 then .classItem
  else if kind = 13 then .enumItem
  else if kind = 14 then .keywordItem
  else if kind = 20 ∨ kind = 21 then .constantItem
  else .plainTextItem

/-- What the options differ in. The colour, the icon, the default value and the location are the
same for all. -/
structure CompletionOption where
  kind : CompletionKind
  display : Text
  insertText : Text
  deriving DecidableEq

/-- `MAX_COMPLETION_ITEMS`. -/
def maxCompletionItems : ℕ := 512

/-- The option of one item, if it becomes one. -/
def completionOption : Json → Option CompletionOption
  | .dictionary item =>
    let display := (field item "label" (.string [])).toText engine
    let suggested := (field item "insertText" (.string display)).toText engine
    let insertion :=
      match field item "textEdit" .null with
      | .dictionary edit => (field edit "newText" (.string suggested)).toText engine
      | _ => suggested
    if display.isEmpty || insertion.isEmpty ||
        (field item "insertTextFormat" (.number 1)).toInteger engine = 2 then none
    else some
      { kind := completionKind ((field item "kind" (.number 1)).toInteger engine)
        display := display
        insertText := insertion }
  | _ => none

/-- The items of a completion, which come as a list or within one. -/
def completionItems : Json → List Json
  | .array items => items
  | .dictionary list =>
    match field list "items" (.array []) with
    | .array items => items
    | _ => []
  | _ => []

/-- `completion_options`. -/
def completionOptions (result : Json) : List CompletionOption :=
  ((completionItems result).take maxCompletionItems).filterMap (completionOption engine)

/-- The entries of a definition. -/
structure Definition where
  scriptPath : Text
  location : ℤ
  deriving DecidableEq

/-- The first location of a definition's answer. -/
def definitionLocation : Json → Json
  | .array locations => locations.headD .null
  | value => value

/-- `definition_result`, with no definition for an empty dictionary. -/
def definitionResult (result : Json) : Option Definition :=
  match definitionLocation result with
  | .dictionary location =>
    let uri := (field location "uri" (.string [])).toText engine
    let range := (field location "range" (.dictionary [])).toDictionary
    let start := (field range "start" (.dictionary [])).toDictionary
    if uri.isEmpty || !hasField start "line" then none
    else some
      { scriptPath := uriToPath engine uri
        location := (field start "line" .null).toInteger engine + 1 }
  | _ => none

/-! ### Messages -/

/-- `++document.version`: an `int32_t` that is counted up has no value once it has overflowed. -/
def nextVersion : Option Int32 → Option Int32
  | none => none
  | some version => if version = Int32.maxValue then none else some (version + 1)

/-- What the client sends. A request names the URI and the position of its query, and the first
message describes the client, in the same way every time. -/
inductive ClientMessage
  | initializeRequest (id : ℤ)
  | initialized
  | didOpen (uri : Text) (version : Option Int32) (text : Text)
  | didChange (uri : Text) (version : Option Int32) (text : Text)
  | completion (id : ℤ) (query : Query)
  | definition (id : ℤ) (query : Query)
  /-- The answer to a request of the server: as many configurations as it asked for, or null. -/
  | response (id : Json) (configurations : Option ℕ)
  | exit

end Gzscript.Lsp.Protocol
