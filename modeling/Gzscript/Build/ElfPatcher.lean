import Gzscript.Library.Fallible
import Gzscript.Library.LittleEndian

/-!
# Keeping the library loaded

`set_elf_nodelete` sets `DF_1_NODELETE` in the dynamic section of the built library. `patch` is its
parser: the tables of the file are found by offsets, sizes and counts that the file itself gives, so
each access and each sum that the code leaves unchecked is a step that may be `illegal` here.

`patch_safe_and_minimal` is the result: for no input is a step illegal, and the output is the input
with the one bit set in the value of the first `DT_FLAGS_1` entry of the first `PT_DYNAMIC` segment.
-/

set_option autoImplicit false
set_option relaxedAutoImplicit false

namespace Gzscript.Build.ElfPatcher

open Library.Bytes Library.LittleEndian Library.Fallible

def ptDynamic : ℕ := 2
def dtNull : ℕ := 0
def dtFlags1 : ℕ := 0x6ffffffb
def df1Nodelete : ℕ := 0x8

/-! ### Steps of the program -/

inductive Error where
  | invalidArguments
  | unreadable
  | unsupportedElf
  | invalidElf
  | missingFlags1
  | missingDynamicSegment
  | outOfMemory
  deriving DecidableEq

/-- How a run ends without an output: with an error of the program, or in a step that has no
meaning, an index past the end of a buffer or a sum that does not fit `usize`. -/
inductive Failure where
  | error (error : Error)
  | illegal
  deriving DecidableEq

abbrev Run := Except Failure

/-- The machine the tool runs on. The input is still held when its copy is made, so both lie in the
address space. -/
structure Host where
  bits : ℕ
  dupes : ℕ → Bool
  disjoint : ∀ length, dupes length = true → 2 * length ≤ 2 ^ bits

def fail {α : Type} (error : Error) : Run α := .error (.error error)

/-- An unchecked `a + b` of `usize`. -/
def plus (host : Host) (a b : ℕ) : Run ℕ :=
  if a + b < 2 ^ host.bits then .ok (a + b) else .error .illegal

/-- An unchecked `a - b` of `usize`. -/
def minus (a b : ℕ) : Run ℕ := if b ≤ a then .ok (a - b) else .error .illegal

def byteAt (bytes : ByteString) (offset : ℕ) : Run UInt8 :=
  if hinside : offset < bytes.length then .ok (bytes.get ⟨offset, hinside⟩) else .error .illegal

def slice (bytes : ByteString) (start stop : ℕ) : Run ByteString :=
  if start ≤ stop ∧ stop ≤ bytes.length then .ok ((bytes.drop start).take (stop - start))
  else .error .illegal

def setByte (bytes : ByteString) (offset : ℕ) (byte : UInt8) : Run ByteString :=
  if offset < bytes.length then .ok (bytes.set offset byte) else .error .illegal

def require (bytes : ByteString) (offset size : ℕ) : Run Unit :=
  if offset > bytes.length then fail .invalidElf
  else do
    if size > (← minus bytes.length offset) then fail .invalidElf else pure ()

def add (host : Host) (a b : ℕ) : Run ℕ :=
  if a + b < 2 ^ host.bits then .ok (a + b) else fail .invalidElf

def multiply (host : Host) (a : ℕ) (b : UInt16) : Run ℕ :=
  if a * b.toNat < 2 ^ host.bits then .ok (a * b.toNat) else fail .invalidElf

def toUsize (host : Host) (value : UInt64) : Run ℕ :=
  if value.toNat < 2 ^ host.bits then .ok value.toNat else fail .invalidElf

def readU16 (host : Host) (bytes : ByteString) (offset : ℕ) : Run UInt16 := do
  let low ← byteAt bytes offset
  let high ← byteAt bytes (← plus host offset 1)
  pure (low.toUInt16 ||| high.toUInt16 <<< 8)

def readU32 (host : Host) (bytes : ByteString) (offset : ℕ) : Run UInt32 := do
  let low ← readU16 host bytes offset
  let high ← readU16 host bytes (← plus host offset 2)
  pure (low.toUInt32 ||| high.toUInt32 <<< 16)

def readU64 (host : Host) (bytes : ByteString) (offset : ℕ) : Run UInt64 := do
  let low ← readU32 host bytes offset
  let high ← readU32 host bytes (← plus host offset 4)
  pure (low.toUInt64 ||| high.toUInt64 <<< 32)

def writeU64 (host : Host) (bytes : ByteString) (offset : ℕ) (value : UInt64) : Run ByteString :=
  (List.range 8).foldlM (fun bytes index ↦ do
    setByte bytes (← plus host offset index) (value >>> UInt64.ofNat (index * 8)).toUInt8) bytes

/-! ### The parser -/

def checkHeader (input : ByteString) : Run Unit :=
  if input.length < 64 then fail .unsupportedElf
  else do
    let magic ← slice input 0 4
    if magic ≠ 0x7f :: ascii "ELF" then fail .unsupportedElf
    else do
      let bitness ← byteAt input 4
      if bitness ≠ 2 then fail .unsupportedElf
      else do
        let endianness ← byteAt input 5
        if endianness ≠ 1 then fail .unsupportedElf else pure ()

def dupe (host : Host) (input : ByteString) : Run ByteString :=
  if host.dupes input.length then .ok input else fail .outOfMemory

/-- The loop over the entries of the dynamic section, from `offset`. -/
def searchEntries (host : Host) (bytes : ByteString) (stop offset : ℕ) : Run ByteString :=
  if 2 ^ host.bits ≤ offset + 16 then .error .illegal
  else if offset + 16 ≤ stop then do
    let tag ← readU64 host bytes offset
    if tag.toNat = dtNull then fail .missingFlags1
    else if tag.toNat = dtFlags1 then do
      let flags ← readU64 host bytes (← plus host offset 8)
      writeU64 host bytes (← plus host offset 8) (flags ||| UInt64.ofNat df1Nodelete)
    else searchEntries host bytes stop (offset + 16)
  else fail .missingFlags1
termination_by stop - offset

/-- The loop over the program headers, the next of which is `programIndex` and of which `remaining`
are left. -/
def searchHeaders (host : Host) (bytes : ByteString) (programOffset : ℕ)
    (programEntrySize : UInt16) : ℕ → ℕ → Run ByteString
  | 0, _ => fail .missingDynamicSegment
  | remaining + 1, programIndex => do
    let headerOffset ← add host programOffset (← multiply host programIndex programEntrySize)
    require bytes headerOffset programEntrySize.toNat
    let kind ← readU32 host bytes headerOffset
    if kind.toNat ≠ ptDynamic then
      searchHeaders host bytes programOffset programEntrySize remaining (programIndex + 1)
    else do
      let dynamicOffset ← toUsize host (← readU64 host bytes (← plus host headerOffset 8))
      let dynamicSize ← toUsize host (← readU64 host bytes (← plus host headerOffset 32))
      require bytes dynamicOffset dynamicSize
      let stop ← add host dynamicOffset dynamicSize
      searchEntries host bytes stop dynamicOffset

/-- What `main` computes of the bytes it has read. -/
def patch (host : Host) (input : ByteString) : Run ByteString := do
  checkHeader input
  let bytes ← dupe host input
  let programOffset ← toUsize host (← readU64 host bytes 32)
  let programEntrySize ← readU16 host bytes 54
  let programCount ← readU16 host bytes 56
  if programEntrySize.toNat < 56 then fail .invalidElf
  else searchHeaders host bytes programOffset programEntrySize programCount.toNat 0

/-- The file that `main` writes, with its bytes. -/
def main {Path : Type} (host : Host) (readFile : Path → Option ByteString) (args : List Path) :
    Run (Path × ByteString) :=
  match args with
  | [_, source, target] =>
    match readFile source with
    | none => fail .unreadable
    | some input => do
      let bytes ← patch host input
      pure (target, bytes)
  | _ => fail .invalidArguments

/-! ### What the patch is to be -/

/-- Where the header of a program segment lies. -/
def headerAt (bytes : ByteString) (index : ℕ) : ℕ := field bytes 32 8 + index * field bytes 54 2

/-- The header lies in the file and is of the kind. -/
def IsHeader (bytes : ByteString) (index kind : ℕ) : Prop :=
  headerAt bytes index + 56 ≤ bytes.length ∧ field bytes (headerAt bytes index) 4 = kind

structure IsFirstDynamic (bytes : ByteString) (index : ℕ) : Prop where
  counted : index < field bytes 56 2
  dynamic : IsHeader bytes index ptDynamic
  first : ∀ earlier < index, ∃ kind, IsHeader bytes earlier kind ∧ kind ≠ ptDynamic

def segmentOffset (bytes : ByteString) (index : ℕ) : ℕ := field bytes (headerAt bytes index + 8) 8
def segmentSize (bytes : ByteString) (index : ℕ) : ℕ := field bytes (headerAt bytes index + 32) 8

/-- Entry `number` of the dynamic section at `start` is the first `DT_FLAGS_1`, and no `DT_NULL`
ends the section before it. -/
structure IsFirstFlags (bytes : ByteString) (start size number : ℕ) : Prop where
  inside : 16 * number + 16 ≤ size ∧ start + size ≤ bytes.length
  flags : field bytes (start + 16 * number) 8 = dtFlags1
  first : ∀ earlier < number, field bytes (start + 16 * earlier) 8 ≠ dtNull ∧
    field bytes (start + 16 * earlier) 8 ≠ dtFlags1

/-- The output is the input but for the value of the entry at `entry`, which has the bit set. -/
structure SetsNodelete (input output : ByteString) (entry : ℕ) : Prop where
  length : output.length = input.length
  unchanged : ∀ position, position < entry + 8 ∨ entry + 16 ≤ position →
    output[position]? = input[position]?
  value : field output (entry + 8) 8 = field input (entry + 8) 8 ||| df1Nodelete

def Patched (input output : ByteString) : Prop :=
  ∃ index number, IsFirstDynamic input index ∧
    IsFirstFlags input (segmentOffset input index) (segmentSize input index) number ∧
    SetsNodelete input output (segmentOffset input index + 16 * number)

/-! ### The steps are legal -/

/-- The step is legal, and what it gives meets the condition. -/
abbrev Legal {α : Type} (condition : α → Prop) (run : Run α) : Prop :=
  Meets (· ≠ Failure.illegal) condition run

theorem legal_fail {α : Type} {condition : α → Prop} (error : Error) :
    Legal condition (fail error) := by
  show Failure.error error ≠ Failure.illegal
  exact Failure.noConfusion

section Steps

variable {host : Host} {bytes : ByteString} {offset : ℕ}

theorem legal_plus {a b : ℕ} (hfits : a + b < 2 ^ host.bits) :
    Legal (fun sum ↦ sum = a + b) (plus host a b) := by
  rw [plus, if_pos hfits]
  rfl

theorem legal_add (a b : ℕ) : Legal (fun sum ↦ sum = a + b) (add host a b) := by
  rw [add]
  split
  · rfl
  · exact legal_fail _

theorem legal_multiply (a : ℕ) (b : UInt16) :
    Legal (fun product ↦ product = a * b.toNat) (multiply host a b) := by
  rw [multiply]
  split
  · rfl
  · exact legal_fail _

theorem legal_toUsize (value : UInt64) :
    Legal (fun size ↦ size = value.toNat) (toUsize host value) := by
  rw [toUsize]
  split
  · rfl
  · exact legal_fail _

theorem legal_require (size : ℕ) :
    Legal (fun _ ↦ offset + size ≤ bytes.length) (require bytes offset size) := by
  rw [require]
  split
  next => exact legal_fail _
  next hoffset =>
    have hle : offset ≤ bytes.length := Nat.le_of_not_lt hoffset
    rw [minus, if_pos hle]
    show Legal _ (if size > bytes.length - offset then fail .invalidElf else pure ())
    split
    · exact legal_fail _
    next hsize =>
      show offset + size ≤ bytes.length
      omega

theorem legal_byteAt (hinside : offset < bytes.length) :
    Legal (fun byte ↦ bytes[offset]? = some byte) (byteAt bytes offset) := by
  rw [byteAt, dif_pos hinside]
  exact List.getElem?_eq_getElem hinside

theorem legal_slice {start stop : ℕ} (hle : start ≤ stop) (hinside : stop ≤ bytes.length) :
    Legal (fun _ ↦ True) (slice bytes start stop) := by
  rw [slice, if_pos ⟨hle, hinside⟩]
  trivial

theorem legal_readU16 (hroom : bytes.length + 16 < 2 ^ host.bits)
    (hinside : offset + 2 ≤ bytes.length) :
    Legal (fun number ↦ number.toNat = field bytes offset 2) (readU16 host bytes offset) := by
  refine meets_bind (legal_byteAt (by omega)) fun low hlow ↦ ?_
  refine meets_bind (legal_plus (by omega)) ?_
  rintro next rfl
  refine meets_bind (legal_byteAt (by omega)) fun high hhigh ↦ ?_
  have hshift : (high.toUInt16 <<< 8).toNat = high.toNat <<< 8 := by
    have hcount : (8 : UInt16).toNat % 16 = 8 := by decide
    have hlt : high.toNat * 2 ^ 8 < 2 ^ 16 := by have := high.toNat_lt; omega
    rw [UInt16.toNat_shiftLeft, UInt8.toNat_toUInt16, hcount, Nat.shiftLeft_eq,
      Nat.mod_eq_of_lt hlt]
  show (low.toUInt16 ||| high.toUInt16 <<< 8).toNat = field bytes offset 2
  rw [UInt16.toNat_or, UInt8.toNat_toUInt16, hshift]
  exact or_shiftLeft_eq_field 1 (by omega) (field_one hlow).symm (field_one hhigh).symm

theorem legal_readU32 (hroom : bytes.length + 16 < 2 ^ host.bits)
    (hinside : offset + 4 ≤ bytes.length) :
    Legal (fun number ↦ number.toNat = field bytes offset 4) (readU32 host bytes offset) := by
  refine meets_bind (legal_readU16 hroom (by omega)) fun low hlow ↦ ?_
  refine meets_bind (legal_plus (by omega)) ?_
  rintro next rfl
  refine meets_bind (legal_readU16 hroom (by omega)) fun high hhigh ↦ ?_
  have hshift : (high.toUInt32 <<< 16).toNat = high.toNat <<< 16 := by
    have hcount : (16 : UInt32).toNat % 32 = 16 := by decide
    have hlt : high.toNat * 2 ^ 16 < 2 ^ 32 := by have := high.toNat_lt; omega
    rw [UInt32.toNat_shiftLeft, UInt16.toNat_toUInt32, hcount, Nat.shiftLeft_eq,
      Nat.mod_eq_of_lt hlt]
  show (low.toUInt32 ||| high.toUInt32 <<< 16).toNat = field bytes offset 4
  rw [UInt32.toNat_or, UInt16.toNat_toUInt32, hshift]
  exact or_shiftLeft_eq_field 2 (by omega) hlow hhigh

theorem legal_readU64 (hroom : bytes.length + 16 < 2 ^ host.bits)
    (hinside : offset + 8 ≤ bytes.length) :
    Legal (fun number ↦ number.toNat = field bytes offset 8) (readU64 host bytes offset) := by
  refine meets_bind (legal_readU32 hroom (by omega)) fun low hlow ↦ ?_
  refine meets_bind (legal_plus (by omega)) ?_
  rintro next rfl
  refine meets_bind (legal_readU32 hroom (by omega)) fun high hhigh ↦ ?_
  have hshift : (high.toUInt64 <<< 32).toNat = high.toNat <<< 32 := by
    have hcount : (32 : UInt64).toNat % 64 = 32 := by decide
    have hlt : high.toNat * 2 ^ 32 < 2 ^ 64 := by have := high.toNat_lt; omega
    rw [UInt64.toNat_shiftLeft, UInt32.toNat_toUInt64, hcount, Nat.shiftLeft_eq,
      Nat.mod_eq_of_lt hlt]
  show (low.toUInt64 ||| high.toUInt64 <<< 32).toNat = field bytes offset 8
  rw [UInt64.toNat_or, UInt32.toNat_toUInt64, hshift]
  exact or_shiftLeft_eq_field 4 (by omega) hlow hhigh

/-! ### Writing a value -/

theorem byte_of_value (value : UInt64) {index : ℕ} (hindex : index < 8) :
    (value >>> UInt64.ofNat (index * 8)).toUInt8 = UInt8.ofNat (value.toNat / 256 ^ index) := by
  have hbits : (2 : ℕ) ^ (index * 8) = 256 ^ index := by rw [Nat.mul_comm, Nat.pow_mul]
  have hcount : (UInt64.ofNat (index * 8)).toNat % 64 = index * 8 := by
    rw [UInt64.toNat_ofNat']
    omega
  apply UInt8.toNat_inj.mp
  rw [UInt64.toNat_toUInt8, UInt64.toNat_shiftRight, hcount, Nat.shiftRight_eq_div_pow, hbits,
    UInt8.toNat_ofNat']

/-- The bytes after `count` passes of the write of `value` at `offset`. -/
structure Written (before : ByteString) (offset : ℕ) (value : UInt64) (count : ℕ)
    (after : ByteString) : Prop where
  length : after.length = before.length
  unchanged : ∀ position, position < offset ∨ offset + count ≤ position →
    after[position]? = before[position]?
  digits : ∀ index < count, after[offset + index]? =
    some (UInt8.ofNat (value.toNat / 256 ^ index))

theorem Written.step {value : UInt64} {count : ℕ} {after : ByteString}
    (hwritten : Written bytes offset value count after) (hinside : offset + count < bytes.length) :
    Written bytes offset value (count + 1)
      (after.set (offset + count) (UInt8.ofNat (value.toNat / 256 ^ count))) where
  length := by rw [List.length_set, hwritten.length]
  unchanged := by
    intro position hposition
    rw [List.getElem?_set_ne (by omega)]
    exact hwritten.unchanged position (by omega)
  digits := by
    intro index hindex
    obtain hlt | rfl := Nat.lt_succ_iff_lt_or_eq.mp hindex
    · rw [List.getElem?_set_ne (by omega)]
      exact hwritten.digits index hlt
    · exact List.getElem?_set_self (by rw [hwritten.length]; exact hinside)

theorem legal_writeU64 (hroom : bytes.length + 16 < 2 ^ host.bits)
    (hinside : offset + 8 ≤ bytes.length) (value : UInt64) :
    Legal (Written bytes offset value 8) (writeU64 host bytes offset value) := by
  refine meets_foldlM_range (Written bytes offset value) ?_ 8 ?_
  · exact ⟨rfl, fun _ _ ↦ rfl, fun index hindex ↦ absurd hindex (Nat.not_lt_zero index)⟩
  · intro index hindex state hstate
    refine meets_bind (legal_plus (by omega)) ?_
    rintro position rfl
    have hlt : offset + index < state.length := by rw [hstate.length]; omega
    rw [setByte, if_pos hlt, byte_of_value value hindex]
    exact hstate.step (by omega)

/-- The entry's value is read, and written back with the bit. -/
theorem Written.setsNodelete {entry : ℕ} {flags : UInt64} {output : ByteString}
    (hflags : flags.toNat = field bytes (entry + 8) 8)
    (hwritten : Written bytes (entry + 8) (flags ||| UInt64.ofNat df1Nodelete) 8 output) :
    SetsNodelete bytes output entry where
  length := hwritten.length
  unchanged := hwritten.unchanged
  value := by
    have hlt : (flags ||| UInt64.ofNat df1Nodelete).toNat < 256 ^ 8 := UInt64.toNat_lt _
    rw [field_eq_of_digits 8 hwritten.digits, Nat.mod_eq_of_lt hlt, UInt64.toNat_or, hflags]
    rfl

/-! ### The loops -/

/-- The entries before `number` are neither the end of the section nor the one looked for. -/
def EntriesPassed (bytes : ByteString) (start number : ℕ) : Prop :=
  ∀ earlier < number, field bytes (start + 16 * earlier) 8 ≠ dtNull ∧
    field bytes (start + 16 * earlier) 8 ≠ dtFlags1

theorem EntriesPassed.step {start number : ℕ} (hpassed : EntriesPassed bytes start number)
    (hnull : field bytes (start + 16 * number) 8 ≠ dtNull)
    (hflags : field bytes (start + 16 * number) 8 ≠ dtFlags1) :
    EntriesPassed bytes start (number + 1) := by
  intro earlier hearlier
  obtain hlt | rfl := Nat.lt_succ_iff_lt_or_eq.mp hearlier
  · exact hpassed earlier hlt
  · exact ⟨hnull, hflags⟩

theorem legal_searchEntries (hroom : bytes.length + 16 < 2 ^ host.bits) {start size : ℕ}
    (hinside : start + size ≤ bytes.length) (number : ℕ) (hnumber : 16 * number ≤ size)
    (hpassed : EntriesPassed bytes start number) :
    Legal (fun output ↦ ∃ number, IsFirstFlags bytes start size number ∧
        SetsNodelete bytes output (start + 16 * number))
      (searchEntries host bytes (start + size) (start + 16 * number)) := by
  have hlegal : ¬ 2 ^ host.bits ≤ start + 16 * number + 16 := by omega
  rw [searchEntries, if_neg hlegal]
  split
  next hentry =>
    refine meets_bind (legal_readU64 hroom (by omega)) fun tag htag ↦ ?_
    rw [htag]
    split
    next => exact legal_fail _
    next hnull =>
      split
      next hflags =>
        refine meets_bind (legal_plus (by omega)) ?_
        rintro position rfl
        refine meets_bind (legal_readU64 hroom (by omega)) fun flags hvalue ↦ ?_
        refine meets_bind (legal_plus (by omega)) ?_
        rintro position rfl
        refine meets_mono (legal_writeU64 hroom (by omega) _) fun output hwritten ↦ ?_
        exact ⟨number, ⟨⟨by omega, hinside⟩, hflags, hpassed⟩, hwritten.setsNodelete hvalue⟩
      next hflags =>
        rw [Nat.add_assoc start, ← Nat.mul_succ]
        exact legal_searchEntries hroom hinside (number + 1) (by omega) (hpassed.step hnull hflags)
  next => exact legal_fail _
termination_by size - 16 * number

theorem legal_searchHeaders (hroom : bytes.length + 16 < 2 ^ host.bits) {programOffset : ℕ}
    {programEntrySize : UInt16} (hoffset : programOffset = field bytes 32 8)
    (hsize : programEntrySize.toNat = field bytes 54 2) (hlarge : 56 ≤ programEntrySize.toNat)
    (remaining index : ℕ) (hcount : index + remaining = field bytes 56 2)
    (hpassed : ∀ earlier < index, ∃ kind, IsHeader bytes earlier kind ∧ kind ≠ ptDynamic) :
    Legal (Patched bytes)
      (searchHeaders host bytes programOffset programEntrySize remaining index) := by
  induction remaining generalizing index with
  | zero => exact legal_fail _
  | succ remaining ih =>
    refine meets_bind (legal_multiply _ _) ?_
    rintro product rfl
    refine meets_bind (legal_add _ _) ?_
    rintro header hheader
    rw [hoffset, hsize] at hheader
    obtain rfl : header = headerAt bytes index := hheader
    refine meets_bind (legal_require _) fun _ hfits ↦ ?_
    refine meets_bind (legal_readU32 hroom (by omega)) fun kind hkind ↦ ?_
    have his : IsHeader bytes index kind.toNat := ⟨by omega, hkind.symm⟩
    split
    next hother =>
      refine ih (index + 1) (by omega) fun earlier hearlier ↦ ?_
      obtain hlt | rfl := Nat.lt_succ_iff_lt_or_eq.mp hearlier
      · exact hpassed earlier hlt
      · exact ⟨kind.toNat, his, hother⟩
    next hdynamic =>
      rw [not_not.mp hdynamic] at his
      refine meets_bind (legal_plus (by omega)) ?_
      rintro position rfl
      refine meets_bind (legal_readU64 hroom (by omega)) fun offset hstart ↦ ?_
      refine meets_bind (legal_toUsize _) ?_
      rintro dynamicOffset rfl
      refine meets_bind (legal_plus (by omega)) ?_
      rintro position rfl
      refine meets_bind (legal_readU64 hroom (by omega)) fun size hlength ↦ ?_
      refine meets_bind (legal_toUsize _) ?_
      rintro dynamicSize rfl
      refine meets_bind (legal_require _) fun _ hinside ↦ ?_
      refine meets_bind (legal_add _ _) ?_
      rintro stop rfl
      refine meets_mono (legal_searchEntries hroom hinside 0 (Nat.zero_le _) ?_) ?_
      · exact fun earlier hearlier ↦ absurd hearlier (Nat.not_lt_zero earlier)
      · rintro output ⟨number, hfirst, hset⟩
        rw [hstart, hlength] at hfirst
        rw [hstart] at hset
        exact ⟨index, number, ⟨by omega, his, hpassed⟩, hfirst, hset⟩

end Steps

/-! ### The parser -/

theorem legal_checkHeader (input : ByteString) :
    Legal (fun _ ↦ 64 ≤ input.length) (checkHeader input) := by
  rw [checkHeader]
  split
  next => exact legal_fail _
  next hlength =>
    refine meets_bind (legal_slice (Nat.zero_le 4) (by omega)) fun magic _ ↦ ?_
    split
    · exact legal_fail _
    · refine meets_bind (legal_byteAt (by omega)) fun bitness _ ↦ ?_
      split
      · exact legal_fail _
      · refine meets_bind (legal_byteAt (by omega)) fun endianness _ ↦ ?_
        split
        · exact legal_fail _
        · exact Nat.le_of_not_lt hlength

theorem legal_dupe (host : Host) {input : ByteString} (hlength : 64 ≤ input.length) :
    Legal (fun bytes ↦ bytes = input ∧ bytes.length + 16 < 2 ^ host.bits) (dupe host input) := by
  rw [dupe]
  split
  next hdupes =>
    have hroom := host.disjoint input.length hdupes
    exact ⟨rfl, by omega⟩
  next => exact legal_fail _

theorem legal_patch (host : Host) (input : ByteString) :
    Legal (Patched input) (patch host input) := by
  refine meets_bind (legal_checkHeader input) fun _ hlength ↦ ?_
  refine meets_bind (legal_dupe host hlength) ?_
  rintro bytes ⟨rfl, hroom⟩
  refine meets_bind (legal_readU64 hroom (by omega)) fun offset hoffset ↦ ?_
  refine meets_bind (legal_toUsize _) ?_
  rintro programOffset rfl
  refine meets_bind (legal_readU16 hroom (by omega)) fun programEntrySize hsize ↦ ?_
  refine meets_bind (legal_readU16 hroom (by omega)) fun programCount hcount ↦ ?_
  split
  next => exact legal_fail _
  next hlarge =>
    refine legal_searchHeaders hroom hoffset hsize (by omega) _ 0 (by omega) ?_
    exact fun earlier hearlier ↦ absurd hearlier (Nat.not_lt_zero earlier)

/-- No input makes a step of the parser illegal, and what it gives is the input patched. -/
theorem patch_safe_and_minimal (host : Host) (input : ByteString) :
    patch host input ≠ .error .illegal ∧
      ∀ output, patch host input = .ok output → Patched input output :=
  ⟨not_error_of_meets (legal_patch host input) (not_not.mpr rfl),
    fun _ houtput ↦ of_meets (legal_patch host input) houtput⟩

/-- The tool writes the patched input under the name it was given, and nothing else. -/
theorem main_writes {Path : Type} {host : Host} {readFile : Path → Option ByteString}
    {args : List Path} {target : Path} {output : ByteString}
    (h : main host readFile args = .ok (target, output)) :
    ∃ program source input, args = [program, source, target] ∧ readFile source = some input ∧
      Patched input output := by
  match args with
  | [program, source, last] =>
    rw [main] at h
    split at h
    next => cases h
    next input hread =>
      obtain ⟨bytes, hbytes, heq⟩ := bind_eq_ok.mp h
      cases heq
      exact ⟨program, source, input, rfl, hread, of_meets (legal_patch host input) hbytes⟩
  | [] | [_] | [_, _] | _ :: _ :: _ :: _ :: _ => cases h

/-- A file of one segment, the dynamic section, whose first entry has the flag `DF_1_NOW`. -/
def sampleElf : ByteString :=
  0x7f :: ascii "ELF" ++ [2, 1] ++ List.replicate 26 0 ++ [64, 0, 0, 0, 0, 0, 0, 0] ++
  List.replicate 14 0 ++ [56, 0, 1, 0] ++ List.replicate 6 0 ++
  [2, 0, 0, 0, 0, 0, 0, 0, 120, 0, 0, 0, 0, 0, 0, 0] ++ List.replicate 16 0 ++ [32] ++
  List.replicate 23 0 ++
  [0xfb, 0xff, 0xff, 0x6f, 0, 0, 0, 0, 1, 0, 0, 0, 0, 0, 0, 0] ++ List.replicate 16 0

def sampleHost : Host where
  bits := 64
  dupes := fun length ↦ decide (length ≤ 2 ^ 32)
  disjoint := fun _ hlength ↦ by
    have hle := of_decide_eq_true hlength
    omega

example : patch sampleHost sampleElf = .ok (sampleElf.set 128 9) := by decide +kernel

end Gzscript.Build.ElfPatcher
