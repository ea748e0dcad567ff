import Gzscript.Bindings.Rendering
import Mathlib.Data.List.Induction
import Mathlib.Data.List.Perm.Basic

/-!
# Enums in the bindings

An enum of the API is rendered with a field for each number, under the first name of the number, and
with an alias for each further name. A name is written in lower case and without a prefix that the
name of the enum suggests; a keyword is quoted.

What a name sheds is said of the name and the prefixes of its enum (`Sheds`). Where the names of
the values are distinct, so are the fields and aliases as long as no two names shed down to one
rest, and they are identifiers as long as no rest starts with a digit or is a lone underscore
(`renderEnum_wellRendered_iff`). Nothing ensures either: the key of a digit is rendered as the digit
(`digit_key_rendered`).
-/

set_option autoImplicit false
set_option relaxedAutoImplicit false

namespace Gzscript.Bindings.EnumRendering

open Api Rendering

/-! ### Names of values -/

def upperString (text : List Char) : List Char := text.map Char.toUpper

def lowerString (text : List Char) : List Char := text.map Char.toLower

/-- `camelToSnake`, from a character on that has another one before it or none. -/
def camelToSnakeFrom (previous : Option Char) : List Char → List Char
  | [] => []
  | character :: rest =>
    (if character.isUpper && previous.any fun before ↦
          before.isLower || rest.head?.any Char.isLower then ['_']
      else []) ++
      character.toLower :: camelToSnakeFrom (some character) rest

def camelToSnake (name : List Char) : List Char := camelToSnakeFrom none name

/-- The prefix of the values that a part of the name of an enum suggests. -/
def upperPrefix (name : List Char) : List Char := upperString (camelToSnake name) ++ ['_']

def enumSuffixes : List String :=
  ["Mode", "Flags", "Direction", "Preset", "Order", "Filter", "Repeat"]

/-- The prefixes that an enum has for one ending of its name. -/
def suffixPrefixes (enumName : List Char) (suffix : String) : List (List Char) :=
  if suffix.toList.isSuffixOf enumName && suffix.length < enumName.length then
    upperPrefix (enumName.take (enumName.length - suffix.length)) ::
      (if suffix = "Flags" then [upperPrefix (enumName.take (enumName.length - 1))]
        else if suffix ∈ ["Filter", "Repeat", "Preset"] then
          [upperString suffix.toList ++ ['_']]
        else [])
  else []

/-- The prefixes that are tried for a value, in this order. -/
def enumPrefixes (upperField enumName : List Char) : List (List Char) :=
  (["PRESET_MODE_", "PRESET_"].map String.toList).filter (fun start ↦
      start.isPrefixOf upperField) ++
    upperPrefix enumName :: enumSuffixes.flatMap (suffixPrefixes enumName)

/-- A value without the first of its prefixes that leaves something. -/
def withoutPrefix (fieldName enumName : String) : List Char :=
  let upperField := upperString fieldName.toList
  match (enumPrefixes upperField enumName.toList).find? fun start ↦
      start.isPrefixOf upperField && start.length < fieldName.length with
  | some start => fieldName.toList.drop start.length
  | none => fieldName.toList

def cleanEnumFieldName (fieldName enumName : String) : String :=
  String.ofList (lowerString (withoutPrefix fieldName enumName))

/-! ### Enums -/

/-- What is written of an enum: its fields, the line that leaves it open, and its aliases. -/
structure RenderedEnum where
  name : String
  fields : List (String × ℤ)
  isOpen : Bool
  aliases : List (String × String)
  deriving DecidableEq

/-- The state of the loop over the values. An alias is kept as two names that are not quoted. -/
structure Progress where
  values : ℤ → Option String
  fields : List (String × ℤ)
  aliases : List (String × String)

def renderValue (enumName : String) (progress : Progress) (value : EnumValue) : Progress :=
  let cleanName := cleanEnumFieldName value.name enumName
  match progress.values value.value with
  | some canonical => { progress with aliases := progress.aliases ++ [(cleanName, canonical)] }
  | none =>
    { progress with
      values := Function.update progress.values value.value (some cleanName)
      fields := progress.fields ++ [(identifier cleanName, value.value)] }

def renderValues (enumName : String) (values : List EnumValue) : Progress :=
  values.foldl (renderValue enumName) ⟨fun _ ↦ none, [], []⟩

def renderEnum (entry : ApiEnum) : RenderedEnum :=
  let progress := renderValues entry.name entry.values
  { name := identifier entry.name
    fields := progress.fields
    isOpen := entry.isBitfield
    aliases := progress.aliases.map fun names ↦ (identifier names.1, identifier names.2) }

/-! ### What a rendered enum is to be -/

def nameChar (character : Char) : Bool := character.isAlphanum || character = '_'

/-- The words that the language keeps for itself. -/
def reservedWords : List String :=
  ["if", "else", "switch", "for", "while", "break", "continue", "return", "defer", "errdefer",
    "fn", "pub", "export", "extern", "inline", "noinline", "callconv", "test", "comptime", "asm",
    "const", "var", "volatile", "threadlocal", "linksection", "addrspace", "align", "allowzero",
    "noalias", "packed", "struct", "enum", "union", "opaque", "error", "try", "catch", "orelse",
    "and", "or", "unreachable", "anytype", "anyframe", "suspend", "resume", "nosuspend"]

/-- A name that is an identifier as it stands. -/
def isValidId (name : String) : Bool :=
  name ≠ "" && name ≠ "_" && name.toList.all nameChar && !name.toList.head?.any Char.isDigit &&
    name ∉ reservedWords

/-- An identifier, quoted or not. -/
def IsZigName (name : String) : Prop :=
  isValidId name = true ∨
    ∃ text, text ≠ "" ∧ text.toList.all nameChar = true ∧ name = "@\"" ++ text ++ "\""

/-- An identifier without a lower-case letter. -/
def IsUpperName (name : String) : Prop :=
  isValidId name = true ∧ ∀ character ∈ name.toList, character.isLower = false

/-- A name begins with a prefix and goes on behind it. -/
def GoesOnBehind (name start : List Char) : Prop := ∃ rest, rest ≠ [] ∧ name = start ++ rest

/-- What is left of a name when it sheds the first prefix that it goes on behind. -/
inductive Sheds (prefixes : List (List Char)) (name : List Char) : List Char → Prop
  | shed {before after : List (List Char)} {start rest : List Char}
      (hprefixes : prefixes = before ++ start :: after)
      (hbefore : ∀ other ∈ before, ¬GoesOnBehind name other)
      (hrest : rest ≠ []) (hname : name = start ++ rest) : Sheds prefixes name rest
  | kept (hnone : ∀ other ∈ prefixes, ¬GoesOnBehind name other) : Sheds prefixes name name

/-- The identifier of a value. -/
def valueId (enumName : String) (value : EnumValue) : String :=
  identifier (cleanEnumFieldName value.name enumName)

/-- A value stands in a list after some others. -/
def At (values before : List EnumValue) (value : EnumValue) : Prop :=
  ∃ after, values = before ++ value :: after

/-- The names that are written, of fields and of aliases. -/
def RenderedEnum.names (rendered : RenderedEnum) : List String :=
  rendered.fields.map Prod.fst ++ rendered.aliases.map Prod.fst

/-- The fields and aliases have distinct names that are identifiers. A number has one field, which
is its first value, and each later value of the number is an alias of it. -/
structure WellRendered (entry : ApiEnum) (rendered : RenderedEnum) : Prop where
  distinct : rendered.names.Nodup
  identifiers : ∀ name ∈ rendered.names, IsZigName name
  numbers : (rendered.fields.map Prod.snd).Nodup
  fields : ∀ field, field ∈ rendered.fields ↔ ∃ before value, At entry.values before value ∧
    (∀ earlier ∈ before, earlier.value ≠ value.value) ∧
    field = (valueId entry.name value, value.value)
  aliases : ∀ names, names ∈ rendered.aliases ↔ ∃ before value first,
    At entry.values before value ∧
    before.find? (fun earlier ↦ earlier.value = value.value) = some first ∧
    names = (valueId entry.name value, valueId entry.name first)

/-! ### The loop over the values -/

/-- A value stands in a longer list where it stood before, or at the end. -/
theorem at_concat_iff {values before : List EnumValue} {last value : EnumValue} :
    At (values ++ [last]) before value ↔
      At values before value ∨ before = values ∧ value = last := by
  constructor
  · rintro ⟨after, heq⟩
    rcases List.eq_nil_or_concat' after with rfl | ⟨rest, final, rfl⟩
    · obtain ⟨hvalues, hlast⟩ := List.append_inj' heq rfl
      exact .inr ⟨hvalues.symm, (List.singleton_inj.mp hlast).symm⟩
    · rw [← List.cons_append, ← List.append_assoc] at heq
      exact .inl ⟨rest, (List.append_inj' heq rfl).1⟩
  · rintro (⟨after, rfl⟩ | ⟨rfl, rfl⟩)
    · exact ⟨after ++ [last], by rw [List.append_assoc, List.cons_append]⟩
    · exact ⟨[], rfl⟩

/-- What the loop has written of the values it has seen. -/
structure Written (enumName : String) (values : List EnumValue) (progress : Progress) : Prop where
  names : ∀ number, progress.values number =
    (values.find? fun value ↦ value.value = number).map fun value ↦
      cleanEnumFieldName value.name enumName
  fields : ∀ field, field ∈ progress.fields ↔ ∃ before value, At values before value ∧
    (∀ earlier ∈ before, earlier.value ≠ value.value) ∧
    field = (valueId enumName value, value.value)
  aliases : ∀ names, names ∈ progress.aliases ↔ ∃ before value first, At values before value ∧
    before.find? (fun earlier ↦ earlier.value = value.value) = some first ∧
    names = (cleanEnumFieldName value.name enumName, cleanEnumFieldName first.name enumName)
  numbers : (progress.fields.map Prod.snd).Nodup
  all : (progress.fields.map Prod.fst ++
      progress.aliases.map fun names ↦ identifier names.1).Perm (values.map (valueId enumName))

theorem written_nil (enumName : String) : Written enumName [] ⟨fun _ ↦ none, [], []⟩ where
  names _ := rfl
  fields field := by simp [At]
  aliases names := by simp [At]
  numbers := List.nodup_nil
  all := List.Perm.nil

variable {enumName : String} {values : List EnumValue} {progress : Progress}

/-- A value whose number has been seen becomes an alias. -/
theorem Written.alias (h : Written enumName values progress) {value first : EnumValue}
    (hfirst : values.find? (fun earlier ↦ earlier.value = value.value) = some first) :
    Written enumName (values ++ [value]) { progress with
      aliases := progress.aliases ++
        [(cleanEnumFieldName value.name enumName, cleanEnumFieldName first.name enumName)] } where
  names number := by
    rw [h.names, List.find?_append]
    by_cases hnumber : value.value = number
    · subst hnumber
      rw [hfirst, Option.some_or]
    · rw [List.find?_singleton, if_neg (by simpa using hnumber), Option.or_none]
  fields field := by
    rw [h.fields]
    simp only [at_concat_iff, or_and_right, exists_or]
    refine (or_iff_left ?_).symm
    rintro ⟨before, last, ⟨rfl, rfl⟩, hfresh, -⟩
    have hnumber : first.value = last.value := by simpa using List.find?_some hfirst
    exact hfresh first (List.mem_of_find?_eq_some hfirst) hnumber
  aliases names := by
    rw [List.mem_append, h.aliases, List.mem_singleton]
    simp only [at_concat_iff, or_and_right, exists_or]
    refine or_congr_right ⟨fun heq ↦ ⟨values, value, first, ⟨rfl, rfl⟩, hfirst, heq⟩, ?_⟩
    rintro ⟨before, last, other, ⟨rfl, rfl⟩, hother, heq⟩
    obtain rfl := Option.some.inj (hfirst.symm.trans hother)
    exact heq
  numbers := h.numbers
  all := by
    rw [List.map_append, List.map_append, ← List.append_assoc]
    exact h.all.append_right _

/-- A value whose number is new becomes a field. -/
theorem Written.field (h : Written enumName values progress) {value : EnumValue}
    (hnew : values.find? (fun earlier ↦ earlier.value = value.value) = none) :
    Written enumName (values ++ [value]) { progress with
      values := Function.update progress.values value.value
        (some (cleanEnumFieldName value.name enumName))
      fields := progress.fields ++ [(valueId enumName value, value.value)] } where
  names number := by
    rw [List.find?_append]
    show Function.update progress.values value.value _ number = _
    by_cases hnumber : value.value = number
    · subst hnumber
      rw [Function.update_self, hnew, Option.none_or, List.find?_singleton,
        if_pos (decide_eq_true rfl)]
      rfl
    · rw [Function.update_of_ne (Ne.symm hnumber), h.names, List.find?_singleton,
        if_neg (by simpa using hnumber), Option.or_none]
  fields field := by
    have hfresh : ∀ earlier ∈ values, earlier.value ≠ value.value := by
      simpa using List.find?_eq_none.mp hnew
    rw [List.mem_append, h.fields, List.mem_singleton]
    simp only [at_concat_iff, or_and_right, exists_or]
    refine or_congr_right ⟨fun heq ↦ ⟨values, value, ⟨rfl, rfl⟩, hfresh, heq⟩, ?_⟩
    rintro ⟨before, last, ⟨rfl, rfl⟩, -, heq⟩
    exact heq
  aliases names := by
    rw [h.aliases]
    simp only [at_concat_iff, or_and_right, exists_or]
    refine (or_iff_left ?_).symm
    rintro ⟨before, last, first, ⟨rfl, rfl⟩, hfirst, -⟩
    exact absurd (hnew.symm.trans hfirst) (Option.some_ne_none first).symm
  numbers := by
    rw [List.map_append, List.nodup_append]
    refine ⟨h.numbers, List.nodup_singleton _, fun number hnumber other hother heq ↦ ?_⟩
    obtain rfl := List.mem_singleton.mp hother
    obtain ⟨field, hfield, rfl⟩ := List.mem_map.mp hnumber
    obtain ⟨before, earlier, ⟨after, rfl⟩, -, rfl⟩ := (h.fields field).mp hfield
    have hmem : earlier ∈ before ++ earlier :: after := List.mem_append_right _ List.mem_cons_self
    exact absurd heq (by simpa using List.find?_eq_none.mp hnew earlier hmem)
  all := by
    simp only [List.map_append, List.map_cons, List.map_nil, List.append_assoc]
    refine (List.perm_append_comm.append_left _).trans ?_
    rw [← List.append_assoc]
    exact h.all.append_right _

theorem written_renderValue (h : Written enumName values progress) (value : EnumValue) :
    Written enumName (values ++ [value]) (renderValue enumName progress value) := by
  have hnames := h.names value.value
  rcases hfirst : values.find? fun earlier ↦ earlier.value = value.value with _ | first
  · rw [hfirst, Option.map_none] at hnames
    simp only [renderValue, hnames]
    exact h.field hfirst
  · rw [hfirst, Option.map_some] at hnames
    simp only [renderValue, hnames]
    exact h.alias hfirst

theorem written_renderValues (enumName : String) (values : List EnumValue) :
    Written enumName values (renderValues enumName values) := by
  induction values using List.reverseRecOn with
  | nil => exact written_nil enumName
  | append_singleton values value ih =>
    rw [renderValues, List.foldl_append]
    exact written_renderValue ih value

/-- Whatever its names are, an enum has a field for each number and an alias for each further value
of it. -/
theorem renderEnum_names (entry : ApiEnum) :
    (renderEnum entry).names.Perm (entry.values.map (valueId entry.name)) := by
  have h := (written_renderValues entry.name entry.values).all
  rw [RenderedEnum.names, renderEnum, List.map_map]
  exact h

/-! ### Names in lower case -/

theorem nameChar_ascii {character : Char} (h : nameChar character = true) :
    character.toNat < 128 := by
  have hbelow : ∀ bound : Char, bound.toNat < 128 → character.val ≤ bound.val →
      character.toNat < 128 := fun bound hbound hle ↦ Nat.lt_of_le_of_lt hle hbound
  obtain hword | hunderscore := Bool.or_eq_true_iff.mp h
  · obtain hletter | hdigit := Bool.or_eq_true_iff.mp hword
    · obtain hupper | hlower := Bool.or_eq_true_iff.mp hletter
      · exact hbelow 'Z' (by decide) (of_decide_eq_true hupper).2
      · exact hbelow 'z' (by decide) (of_decide_eq_true (Bool.and_eq_true_iff.mp hlower).2)
    · exact hbelow '9' (by decide) (of_decide_eq_true (Bool.and_eq_true_iff.mp hdigit).2)
  · obtain rfl := of_decide_eq_true hunderscore
    decide

/-- A character of an upper-case name can be told from its lower case. -/
theorem toLower_upper {character : Char} (h : nameChar character = true)
    (hupper : character.isLower = false) :
    character.toLower.toUpper = character ∧ nameChar character.toLower = true ∧
      character.toLower.isDigit = character.isDigit := by
  have hall : ∀ n < 128, nameChar (Char.ofNat n) = true → (Char.ofNat n).isLower = false →
      (Char.ofNat n).toLower.toUpper = Char.ofNat n ∧ nameChar (Char.ofNat n).toLower = true ∧
        (Char.ofNat n).toLower.isDigit = (Char.ofNat n).isDigit := by decide +kernel
  rw [← Char.ofNat_toNat character] at h hupper ⊢
  exact hall character.toNat (by simpa using nameChar_ascii h) h hupper

theorem toUpper_upper {character : Char} (h : nameChar character = true)
    (hupper : character.isLower = false) : character.toUpper = character := by
  have hall : ∀ n < 128, nameChar (Char.ofNat n) = true → (Char.ofNat n).isLower = false →
      (Char.ofNat n).toUpper = Char.ofNat n := by decide +kernel
  rw [← Char.ofNat_toNat character] at h hupper ⊢
  exact hall character.toNat (by simpa using nameChar_ascii h) h hupper

/-- A text of which upper-case names consist. -/
structure UpperText (text : List Char) : Prop where
  nonempty : text ≠ []
  characters : ∀ character ∈ text, nameChar character = true ∧ character.isLower = false

variable {text other : List Char}

theorem UpperText.upperString_lowerString (h : UpperText text) :
    upperString (lowerString text) = text := by
  rw [upperString, lowerString, List.map_map]
  refine (List.map_congr_left fun character hmem ↦ ?_).trans (List.map_id text)
  obtain ⟨hname, hupper⟩ := h.characters character hmem
  exact (toLower_upper hname hupper).1

theorem UpperText.upperString_eq (h : UpperText text) : upperString text = text := by
  rw [upperString]
  refine (List.map_congr_left fun character hmem ↦ ?_).trans (List.map_id text)
  obtain ⟨hname, hupper⟩ := h.characters character hmem
  exact toUpper_upper hname hupper

theorem UpperText.lowerString_inj (h : UpperText text) (hother : UpperText other)
    (heq : lowerString text = lowerString other) : text = other := by
  rw [← h.upperString_lowerString, heq, hother.upperString_lowerString]

theorem UpperText.nameChars (h : UpperText text) : (lowerString text).all nameChar = true := by
  rw [List.all_eq_true]
  intro character hmem
  obtain ⟨before, hbefore, rfl⟩ := List.mem_map.mp hmem
  obtain ⟨hname, hupper⟩ := h.characters before hbefore
  exact (toLower_upper hname hupper).2.1

theorem UpperText.head_isDigit (h : UpperText text) :
    (lowerString text).head?.any Char.isDigit = text.head?.any Char.isDigit := by
  rcases text with _ | ⟨first, rest⟩
  · rfl
  · obtain ⟨hname, hupper⟩ := h.characters first List.mem_cons_self
    exact (toLower_upper hname hupper).2.2

theorem UpperText.lowerString_eq_underscore (h : UpperText text) :
    lowerString text = ['_'] ↔ text = ['_'] := by
  constructor
  · intro heq
    exact h.lowerString_inj ⟨List.cons_ne_nil _ _, List.forall_mem_singleton.mpr (by decide)⟩ heq
  · rintro rfl
    rfl

/-! ### Identifiers -/

/-- A quoted name starts with a character that no name has. -/
theorem quoted_ne {name quoted : String} (h : name.toList.all nameChar = true) :
    name ≠ "@\"" ++ quoted ++ "\"" := by
  rintro rfl
  rw [String.toList_append, String.toList_append, List.append_assoc] at h
  exact absurd (List.all_eq_true.mp h '@' (List.mem_append_left _ (by decide))) (by decide)

theorem identifier_inj {first second : String} (hfirst : first.toList.all nameChar = true)
    (hsecond : second.toList.all nameChar = true) (h : identifier first = identifier second) :
    first = second := by
  unfold identifier at h
  split_ifs at h
  · have hlists := congrArg String.toList h
    simp only [String.toList_append, List.append_assoc] at hlists
    exact String.toList_injective (List.append_cancel_right (List.append_cancel_left hlists))
  · exact absurd h.symm (quoted_ne hsecond)
  · exact absurd h (quoted_ne hfirst)
  · exact h

/-- Every word that the language keeps for itself is quoted. -/
theorem reservedWords_subset : reservedWords ⊆ zigKeywords := by decide

/-- The lower case of a text is made an identifier unless it starts with a digit or is a lone
underscore. -/
theorem UpperText.isZigName_iff (h : UpperText text) :
    IsZigName (identifier (String.ofList (lowerString text))) ↔
      text.head?.any Char.isDigit = false ∧ text ≠ ['_'] := by
  have hchars : (String.ofList (lowerString text)).toList.all nameChar = true := by
    rw [String.toList_ofList]
    exact h.nameChars
  have hnonempty : String.ofList (lowerString text) ≠ "" := by
    intro heq
    have hnil := congrArg String.toList heq
    rw [String.toList_ofList] at hnil
    exact h.nonempty (List.map_eq_nil_iff.mp hnil)
  have hunderscore : String.ofList (lowerString text) = "_" ↔ text = ['_'] := by
    rw [← h.lowerString_eq_underscore, ← String.toList_inj, String.toList_ofList]
    rfl
  rw [← h.head_isDigit, ne_eq, ← hunderscore]
  unfold identifier
  split_ifs with hkeyword
  · have hall : ∀ keyword ∈ zigKeywords,
        keyword.toList.head?.any Char.isDigit = false ∧ keyword ≠ "_" := by decide
    have hparts := hall _ hkeyword
    rw [String.toList_ofList] at hparts
    exact iff_of_true (.inr ⟨_, hnonempty, hchars, rfl⟩) hparts
  · have hbare : IsZigName (String.ofList (lowerString text)) ↔
        isValidId (String.ofList (lowerString text)) = true := by
      refine ⟨fun hname ↦ hname.resolve_right ?_, .inl⟩
      rintro ⟨quoted, -, -, heq⟩
      exact quoted_ne hchars heq
    have hfree : String.ofList (lowerString text) ∉ reservedWords := fun hreserved ↦
      hkeyword (reservedWords_subset hreserved)
    rw [hbare, isValidId, hchars, String.toList_ofList]
    simp [hnonempty, hfree, and_comm]

/-! ### When an enum is well rendered -/

/-- The names of the values are distinct and in upper case. -/
structure UpperNames (entry : ApiEnum) : Prop where
  distinct : (entry.values.map EnumValue.name).Nodup
  upper : ∀ value ∈ entry.values, IsUpperName value.name

/-- The name of a value sheds one of the prefixes of its enum. -/
def ValueSheds (enumName : String) (value : EnumValue) (rest : List Char) : Prop :=
  Sheds (enumPrefixes value.name.toList enumName.toList) value.name.toList rest

/-- No two names shed down to one rest, and no rest starts with a digit or is a lone underscore. -/
structure Separable (entry : ApiEnum) : Prop where
  apart : ∀ first ∈ entry.values, ∀ second ∈ entry.values, ∀ rest,
    ValueSheds entry.name first rest → ValueSheds entry.name second rest →
      first.name = second.name
  named : ∀ value ∈ entry.values, ∀ rest, ValueSheds entry.name value rest →
    rest.head?.any Char.isDigit = false ∧ rest ≠ ['_']

theorem goesOnBehind_iff {name start : List Char} :
    GoesOnBehind name start ↔ (start.isPrefixOf name && start.length < name.length) = true := by
  rw [Bool.and_eq_true, List.isPrefixOf_iff_prefix, decide_eq_true_eq]
  constructor
  · rintro ⟨rest, hrest, rfl⟩
    refine ⟨List.prefix_append start rest, ?_⟩
    rw [List.length_append]
    exact Nat.lt_add_of_pos_right (List.length_pos_iff.mpr hrest)
  · rintro ⟨⟨rest, rfl⟩, hlength⟩
    refine ⟨rest, ?_, rfl⟩
    rintro rfl
    rw [List.append_nil] at hlength
    exact Nat.lt_irrefl _ hlength

/-- A name sheds the prefix that a search through them finds. -/
theorem sheds_iff {prefixes : List (List Char)} {name rest : List Char} :
    Sheds prefixes name rest ↔
      rest = match prefixes.find? fun start ↦
          start.isPrefixOf name && start.length < name.length with
        | some start => name.drop start.length
        | none => name := by
  constructor
  · intro h
    cases h with
    | @shed before after start rest hprefixes hbefore hrest hname =>
      have hfind : prefixes.find? (fun start ↦
          start.isPrefixOf name && start.length < name.length) = some start := by
        rw [List.find?_eq_some_iff_append]
        refine ⟨goesOnBehind_iff.mp ⟨rest, hrest, hname⟩, before, after, hprefixes, ?_⟩
        intro other hother
        rw [Bool.not_eq_true', ← Bool.not_eq_true, ← goesOnBehind_iff]
        exact hbefore other hother
      rw [hfind, hname]
      exact List.drop_left.symm
    | kept hnone =>
      have hfind : prefixes.find? (fun start ↦
          start.isPrefixOf name && start.length < name.length) = none := by
        rw [List.find?_eq_none]
        intro other hother
        rw [← goesOnBehind_iff]
        exact hnone other hother
      rw [hfind]
  · rintro rfl
    split
    next start hfind =>
      obtain ⟨hstart, before, after, hprefixes, hbefore⟩ := List.find?_eq_some_iff_append.mp hfind
      obtain ⟨rest, hrest, rfl⟩ := goesOnBehind_iff.mpr hstart
      rw [List.drop_left]
      refine .shed hprefixes (fun other hother ↦ ?_) hrest rfl
      rw [goesOnBehind_iff, Bool.not_eq_true, ← Bool.not_eq_true']
      exact hbefore other hother
    next hfind =>
      refine .kept fun other hother ↦ ?_
      rw [goesOnBehind_iff]
      exact List.find?_eq_none.mp hfind other hother

theorem IsUpperName.upperText {name : String} (h : IsUpperName name) : UpperText name.toList := by
  obtain ⟨hvalid, hlower⟩ := h
  simp only [isValidId, Bool.and_eq_true, decide_eq_true_eq] at hvalid
  refine ⟨fun hnil ↦ hvalid.1.1.1.1 (String.toList_eq_nil_iff.mp hnil), fun character hmem ↦ ?_⟩
  exact ⟨List.all_eq_true.mp hvalid.1.1.2 character hmem, hlower character hmem⟩

/-- What is written of an upper-case name is what it sheds down to, in lower case. -/
theorem valueSheds_iff {enumName : String} {value : EnumValue} (h : IsUpperName value.name)
    {rest : List Char} :
    ValueSheds enumName value rest ↔ rest = withoutPrefix value.name enumName := by
  rw [ValueSheds, sheds_iff, withoutPrefix]
  simp only [h.upperText.upperString_eq, String.length_toList]

theorem Sheds.upperText {prefixes : List (List Char)} {name rest : List Char}
    (h : Sheds prefixes name rest) (hname : UpperText name) : UpperText rest := by
  cases h with
  | shed _ _ hrest heq =>
    refine ⟨hrest, fun character hmem ↦ hname.characters character ?_⟩
    rw [heq]
    exact List.mem_append_right _ hmem
  | kept _ => exact hname

variable {entry : ApiEnum}

theorem UpperNames.upperText (h : UpperNames entry) {value : EnumValue}
    (hvalue : value ∈ entry.values) :
    UpperText (withoutPrefix value.name entry.name) :=
  ((valueSheds_iff (h.upper value hvalue)).mpr rfl).upperText (h.upper value hvalue).upperText

/-- The names are written differently exactly if they differ behind their prefixes. -/
theorem UpperNames.valueId_eq_iff (h : UpperNames entry) {first second : EnumValue}
    (hfirst : first ∈ entry.values) (hsecond : second ∈ entry.values) :
    valueId entry.name first = valueId entry.name second ↔
      withoutPrefix first.name entry.name = withoutPrefix second.name entry.name := by
  unfold valueId cleanEnumFieldName
  constructor
  · intro heq
    have hclean :=
      identifier_inj (by rw [String.toList_ofList]; exact (h.upperText hfirst).nameChars)
      (by rw [String.toList_ofList]; exact (h.upperText hsecond).nameChars) heq
    exact (h.upperText hfirst).lowerString_inj (h.upperText hsecond)
      (String.ofList_injective hclean)
  · intro heq
    rw [heq]

theorem UpperNames.distinct_iff (h : UpperNames entry) :
    (renderEnum entry).names.Nodup ↔ ∀ first ∈ entry.values, ∀ second ∈ entry.values, ∀ rest,
      ValueSheds entry.name first rest → ValueSheds entry.name second rest →
        first.name = second.name := by
  rw [(renderEnum_names entry).nodup_iff,
    List.nodup_map_iff_inj_on (List.Nodup.of_map _ h.distinct)]
  refine forall₂_congr fun first hfirst ↦ forall₂_congr fun second hsecond ↦ ?_
  rw [h.valueId_eq_iff hfirst hsecond]
  simp only [valueSheds_iff (h.upper first hfirst), valueSheds_iff (h.upper second hsecond),
    forall_eq]
  refine imp_congr_right fun _ ↦ ⟨congrArg EnumValue.name, fun hname ↦ ?_⟩
  exact List.inj_on_of_nodup_map h.distinct hfirst hsecond hname

theorem UpperNames.identifiers_iff (h : UpperNames entry) :
    (∀ name ∈ (renderEnum entry).names, IsZigName name) ↔ ∀ value ∈ entry.values, ∀ rest,
      ValueSheds entry.name value rest →
        rest.head?.any Char.isDigit = false ∧ rest ≠ ['_'] := by
  simp only [(renderEnum_names entry).mem_iff, List.mem_map, forall_exists_index, and_imp,
    forall_apply_eq_imp_iff₂]
  refine forall₂_congr fun value hvalue ↦ ?_
  simp only [valueSheds_iff (h.upper value hvalue), forall_eq]
  exact (h.upperText hvalue).isZigName_iff

/-- An enum with distinct upper-case names is well rendered exactly if no two of them shed down to
one rest, and none sheds down to a rest that is no identifier. -/
theorem renderEnum_wellRendered_iff (entry : ApiEnum) (hnames : UpperNames entry) :
    WellRendered entry (renderEnum entry) ↔ Separable entry := by
  have hwritten := written_renderValues entry.name entry.values
  constructor
  · intro hwell
    exact ⟨hnames.distinct_iff.mp hwell.distinct, hnames.identifiers_iff.mp hwell.identifiers⟩
  · intro hseparable
    refine ⟨hnames.distinct_iff.mpr hseparable.apart, hnames.identifiers_iff.mpr hseparable.named,
      hwritten.numbers, hwritten.fields, fun names ↦ ?_⟩
    show names ∈ (renderValues entry.name entry.values).aliases.map _ ↔ _
    rw [List.mem_map]
    constructor
    · rintro ⟨plain, hplain, rfl⟩
      obtain ⟨before, value, first, hat, hfirst, rfl⟩ := (hwritten.aliases plain).mp hplain
      exact ⟨before, value, first, hat, hfirst, rfl⟩
    · rintro ⟨before, value, first, hat, hfirst, rfl⟩
      exact ⟨_, (hwritten.aliases _).mpr ⟨before, value, first, hat, hfirst, rfl⟩, rfl⟩

/-- Two flags of one number and a third one. -/
def flagsEnum : ApiEnum :=
  ⟨"Flags", true, [⟨"FLAGS_NONE", 0⟩, ⟨"FLAGS_DEFAULT", 0⟩, ⟨"FLAGS_VISIBLE", 1⟩]⟩

instance (name : String) : Decidable (IsUpperName name) :=
  @instDecidableAnd _ _ (inferInstanceAs (Decidable (isValidId name = true)))
    (List.decidableBAll _ _)

theorem renderEnum_wellRendered_iff_flags :
    WellRendered flagsEnum (renderEnum flagsEnum) ↔ Separable flagsEnum :=
  renderEnum_wellRendered_iff flagsEnum ⟨by decide, by decide +kernel⟩

/-- No key, and the key of a digit. -/
def keyEnum : ApiEnum := ⟨"Key", false, [⟨"KEY_NONE", 0⟩, ⟨"KEY_0", 48⟩]⟩

/-- The key of a digit is rendered as the digit, which is no identifier. -/
theorem digit_key_rendered :
    UpperNames keyEnum ∧ ¬ WellRendered keyEnum (renderEnum keyEnum) := by
  have hupper : UpperNames keyEnum := ⟨by decide, by decide +kernel⟩
  refine ⟨hupper, fun hwell ↦ ?_⟩
  have hdigit := (hupper.identifiers_iff.mp hwell.identifiers) ⟨"KEY_0", 48⟩ (by decide) ['0']
    ((valueSheds_iff (by decide +kernel)).mpr (by decide +kernel))
  exact absurd hdigit.1 (by decide)

end Gzscript.Bindings.EnumRendering
