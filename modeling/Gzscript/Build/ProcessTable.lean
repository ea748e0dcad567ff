import Gzscript.Build.Descendants
import Gzscript.Library.Decimal
import Gzscript.Lsp.Frames
import Mathlib.Data.Int.Order.Basic

/-!
# The table of processes

`processTree` reads the parent of every process in `/proc`: the fields of a line are separated by
spaces, but the second one is the name of the command, in parentheses, and may hold anything. The
reader looks for the last parenthesis. So the table is right whatever parentheses and spaces the
names hold (`statParent_stat`), and the processes below a compiler are the ones that are killed with
it (`kills_processes_below`).

A name may also hold a line feed, and there the reader stops: such a process is left out, or is
entered as a child of any process that its name says (`forged_parent`).
-/

set_option autoImplicit false
set_option relaxedAutoImplicit false

namespace Gzscript.Build.ProcessTable

open Library.Bytes Library.Decimal Library.Descent Descendants Relation
open Lsp.Frames (decimal decimal_of_ge decimal_of_lt decimal_range decimal_ne_nil
  digitChar_toUInt8)

/-! ### Reading numbers -/

/-- `isspace`. -/
def isSpace (byte : UInt8) : Bool := byte = 32 || 9 ≤ byte && byte ≤ 13

/-- A sign, and what is behind it. -/
def readSign : ByteString → Bool × ByteString
  | 45 :: text => (true, text)
  | 43 :: text => (false, text)
  | text => (false, text)

/-- The number at the start of a text, behind spaces and with a sign, and what follows it. -/
def readInteger (text : ByteString) : Option (ℤ × ByteString) :=
  let (negative, unsigned) := readSign (text.dropWhile isSpace)
  let digits := unsigned.takeWhile fun byte ↦ decide (IsDigit byte)
  let rest := unsigned.dropWhile fun byte ↦ decide (IsDigit byte)
  if digits = [] then none
  else some (if negative then -decimalValue digits else decimalValue digits, rest)

/-- `std::strtol`: the number, as far as a `long` holds it, and what is at the end pointer. -/
def strtol (text : ByteString) : ℤ × ByteString :=
  match readInteger text with
  | none => (0, text)
  | some (number, rest) => (max (-2 ^ 63) (min number (2 ^ 63 - 1)), rest)

/-! ### Reading the table -/

/-- `std::getline`: the first line, if there is anything to read. -/
def getline (file : ByteString) : Option ByteString :=
  if file = [] then none else some (file.takeWhile (· ≠ 10))

/-- `rfind`: what is behind the last place of a byte, if it has one. -/
def behindLast (byte : UInt8) : ByteString → Option ByteString
  | [] => none
  | first :: text =>
    match behindLast byte text with
    | some rest => some rest
    | none => if first = byte then some text else none

/-- The parent that a line names. The stream fails on a number that is no `int32_t`. -/
def statParent (line : ByteString) : Option Int32 :=
  match behindLast 41 line with
  | none => none
  | some behind =>
    if behind.length ≤ 1 then none
    else
      match (behind.drop 1).dropWhile isSpace with
      | [] => none
      | _ :: fields =>
        match readInteger fields with
        | none => none
        | some (parent, _) =>
          if -2 ^ 31 ≤ parent ∧ parent < 2 ^ 31 then some (.ofInt parent) else none

/-- The pair of a directory entry, if it is a process whose file can be read. -/
def entryPair (stat : ℤ → Option ByteString) (entry : ByteString) : Option (Int32 × Int32) :=
  let (pid, rest) := strtol entry
  if rest ≠ [] ∨ pid ≤ 0 then none
  else (((stat pid).bind getline).bind statParent).map fun parent ↦ (parent, .ofInt pid)

/-- `process_tree`, for the entries of `/proc` and the files of the processes. -/
def processTree (entries : List ByteString) (stat : ℤ → Option ByteString) : ProcessTree :=
  entries.filterMap (entryPair stat)

/-! ### Processes -/

/-- A process as the system shows it. The fields behind the parent are numbers. -/
structure Process where
  pid : ℕ
  command : ByteString
  state : UInt8
  parent : ℕ
  fields : ByteString
  pid_pos : 0 < pid
  pid_lt : pid < 2 ^ 31
  parent_lt : parent < 2 ^ 31
  state_letter : isSpace state = false ∧ state ≠ 41
  fields_spaced : ∃ rest, fields = 32 :: rest
  fields_plain : 41 ∉ fields

/-- The contents of its file. -/
def Process.stat (process : Process) : ByteString :=
  decimal process.pid ++ ascii " (" ++ process.command ++ ascii ") " ++ process.state ::
    ascii " " ++ decimal process.parent ++ process.fields

/-! ### Numbers are read back -/

theorem decimalValue_concat (digits : ByteString) (digit : UInt8) :
    decimalValue (digits ++ [digit]) = decimalValue digits * 10 + digitValue digit := by
  induction digits with
  | nil => simp [decimalValue_cons]
  | cons first digits ih =>
    rw [List.cons_append, decimalValue_cons, ih, decimalValue_cons, List.length_append,
      List.length_singleton, Nat.pow_succ]
    ring

theorem decimalValue_decimal (n : ℕ) : decimalValue (decimal n) = n := by
  have hdigit {digit : ℕ} (hlt : digit < 10) :
      digitValue (Nat.digitChar digit).toUInt8 = digit := by
    rw [digitValue, digitChar_toUInt8 digit hlt, Nat.add_sub_cancel_left]
  induction n using Nat.strong_induction_on with
  | _ n ih =>
    by_cases hn : n < 10
    · rw [decimal_of_lt hn, decimalValue_cons, hdigit hn]
      simp
    · rw [decimal_of_ge (not_lt.mp hn), decimalValue_concat, ih (n / 10) (by omega),
        hdigit (Nat.mod_lt n (by decide))]
      omega

theorem isDigit_of_mem_decimal {n : ℕ} {byte : UInt8} (h : byte ∈ decimal n) : IsDigit byte := by
  obtain ⟨hlow, hhigh⟩ := decimal_range h
  exact ⟨UInt8.le_iff_toNat_le.mpr hlow, UInt8.le_iff_toNat_le.mpr hhigh⟩

/-- A digit is no space and no sign. -/
theorem readSign_digit {byte : UInt8} (hdigit : IsDigit byte) (text : ByteString) :
    readSign ((byte :: text).dropWhile isSpace) = (false, byte :: text) := by
  have hlow : 48 ≤ byte.toNat := UInt8.le_iff_toNat_le.mp hdigit.1
  have hne {other : UInt8} (hother : other.toNat < 48) : byte ≠ other := by
    rintro rfl
    omega
  have hspace : isSpace byte = false := by
    have hhigh : ¬ byte ≤ 13 := fun hle ↦ by
      have hle' : byte.toNat ≤ 13 := UInt8.le_iff_toNat_le.mp hle
      omega
    simp [isSpace, hne (show (32 : UInt8).toNat < 48 by decide), hhigh]
  rw [List.dropWhile_cons_of_neg (by simp [hspace])]
  unfold readSign
  split
  · exact absurd (List.cons.inj (by assumption)).1 (hne (by decide))
  · exact absurd (List.cons.inj (by assumption)).1 (hne (by decide))
  · rfl

/-- A number is read back in front of anything but a digit. -/
theorem readInteger_decimal (n : ℕ) {rest : ByteString}
    (hrest : ∀ byte ∈ rest.head?, ¬ IsDigit byte) :
    readInteger (decimal n ++ rest) = some ((n : ℤ), rest) := by
  have hdigits : ∀ byte ∈ decimal n, decide (IsDigit byte) = true := fun byte hbyte ↦
    decide_eq_true (isDigit_of_mem_decimal hbyte)
  have htake : (decimal n ++ rest).takeWhile (fun byte ↦ decide (IsDigit byte)) = decimal n := by
    rw [List.takeWhile_append_of_pos hdigits]
    cases rest with
    | nil => simp
    | cons first rest =>
      have hfirst := hrest first rfl
      rw [List.takeWhile_cons_of_neg (by simpa using hfirst), List.append_nil]
  have hdrop : (decimal n ++ rest).dropWhile (fun byte ↦ decide (IsDigit byte)) = rest := by
    rw [List.dropWhile_append_of_pos hdigits]
    cases rest with
    | nil => rfl
    | cons first rest => exact List.dropWhile_cons_of_neg (by simpa using hrest first rfl)
  have hsign : readSign ((decimal n ++ rest).dropWhile isSpace) = (false, decimal n ++ rest) := by
    cases hdecimal : decimal n with
    | nil => exact absurd hdecimal (decimal_ne_nil n)
    | cons first digits =>
      have hfirst : first ∈ decimal n := by simp [hdecimal]
      exact readSign_digit (isDigit_of_mem_decimal hfirst) (digits ++ rest)
  simp only [readInteger, hsign, htake, hdrop, if_neg (decimal_ne_nil n), decimalValue_decimal,
    Bool.false_eq_true, if_false]

theorem readInteger_space (text : ByteString) : readInteger (32 :: text) = readInteger text := by
  rw [readInteger, readInteger, List.dropWhile_cons_of_pos (by decide)]

theorem strtol_decimal {n : ℕ} (hn : n < 2 ^ 31) : strtol (decimal n) = ((n : ℤ), []) := by
  have hread : readInteger (decimal n) = some ((n : ℤ), []) := by
    have h := readInteger_decimal n
      (show ∀ byte ∈ ([] : ByteString).head?, ¬ IsDigit byte by simp)
    rwa [List.append_nil] at h
  simp only [strtol, hread]
  congr 1
  omega

/-! ### The line of a process -/

theorem behindLast_append (byte : UInt8) (front : ByteString) {rest : ByteString}
    (hrest : byte ∉ rest) : behindLast byte (front ++ byte :: rest) = some rest := by
  have hnone : ∀ text : ByteString, byte ∉ text → behindLast byte text = none := by
    intro text htext
    induction text with
    | nil => rfl
    | cons first text ih =>
      rw [List.mem_cons, not_or] at htext
      rw [behindLast, ih htext.2]
      exact if_neg fun heq ↦ htext.1 heq.symm
  induction front with
  | nil =>
    rw [List.nil_append, behindLast, hnone rest hrest]
    exact if_pos rfl
  | cons first front ih => rw [List.cons_append, behindLast, ih]

/-- The parent is read behind the last parenthesis, whatever stands before it. -/
theorem statParent_eq (front : ByteString) {state : UInt8} (hstate : isSpace state = false)
    (hletter : state ≠ 41) {parent : ℕ} (hparent : parent < 2 ^ 31) {rest : ByteString}
    (hspaced : ∀ byte ∈ rest.head?, ¬ IsDigit byte) (hplain : 41 ∉ rest) :
    statParent (front ++ 41 :: 32 :: state :: 32 :: (decimal parent ++ rest)) =
      some (.ofInt parent) := by
  have hbehind : (41 : UInt8) ∉ 32 :: state :: 32 :: (decimal parent ++ rest) := by
    have hdigits : (41 : UInt8) ∉ decimal parent := fun h ↦ by
      have hlow := (decimal_range h).1
      revert hlow
      decide
    simp [hdigits, hplain, hletter.symm]
  have hfits : -2 ^ 31 ≤ (parent : ℤ) ∧ (parent : ℤ) < 2 ^ 31 := by omega
  rw [statParent, behindLast_append 41 front hbehind]
  simp only [List.length_cons, List.drop_succ_cons, List.drop_zero]
  rw [if_neg (by omega), List.dropWhile_cons_of_neg (by simp [hstate])]
  simp only [readInteger_space, readInteger_decimal parent hspaced, if_pos hfits]

/-- The file up to the fields behind the parent. -/
def Process.front (process : Process) : ByteString :=
  decimal process.pid ++ ascii " (" ++ process.command

theorem Process.stat_eq (process : Process) : process.stat = process.front ++
    41 :: 32 :: process.state :: 32 :: (decimal process.parent ++ process.fields) := by
  have hclose : ascii ") " = [41, 32] := by decide
  have hspace : ascii " " = [32] := by decide
  simp [Process.stat, Process.front, hclose, hspace]

theorem not_mem_decimal (n : ℕ) {byte : UInt8} (hbyte : byte.toNat < 48) : byte ∉ decimal n :=
  fun h ↦ absurd (decimal_range h).1 (by omega)

/-- The parent of a process is read from its file if there is no line feed in its name. -/
theorem statParent_stat (process : Process) (hcommand : 10 ∉ process.command) :
    (getline process.stat).bind statParent = some (.ofInt process.parent) := by
  have hopen : ascii " (" = [32, 40] := by decide
  have hfront : ∀ byte ∈ process.front ++ 41 :: 32 :: process.state :: 32 ::
      decimal process.parent, decide (byte ≠ 10) = true := by
    intro byte hbyte
    refine decide_eq_true ?_
    rintro rfl
    have hstate : (10 : UInt8) ≠ process.state := by
      intro heq
      have hletter := process.state_letter.1
      rw [← heq] at hletter
      exact absurd hletter (by decide)
    simp [Process.front, hopen, hcommand, hstate, not_mem_decimal _ (show (10 : UInt8).toNat < 48 by
      decide)] at hbyte
  obtain ⟨rest, hrest⟩ := process.fields_spaced
  have hline : process.stat.takeWhile (fun byte ↦ decide (byte ≠ 10)) =
      process.front ++ 41 :: 32 :: process.state :: 32 ::
        (decimal process.parent ++ process.fields.takeWhile fun byte ↦ decide (byte ≠ 10)) := by
    have hsplit : process.stat = (process.front ++ 41 :: 32 :: process.state :: 32 ::
        decimal process.parent) ++ process.fields := by simp [process.stat_eq]
    rw [hsplit, List.takeWhile_append_of_pos hfront]
    simp
  have hnonempty : process.stat ≠ [] := by simp [process.stat_eq]
  rw [getline, if_neg hnonempty, Option.bind_some, hline]
  refine statParent_eq _ process.state_letter.1 process.state_letter.2 process.parent_lt ?_ ?_
  · rw [hrest]
    simp only [List.takeWhile_cons]
    simp [IsDigit]
  · exact fun h ↦ process.fields_plain ((List.takeWhile_sublist _).subset h)

/-- With a line feed in its name a process names its parent itself. -/
theorem forged_parent (process : Process) {claimed : ℕ} (hclaimed : claimed < 2 ^ 31)
    {rest : ByteString}
    (hcommand : process.command = ascii ") S " ++ decimal claimed ++ 10 :: rest) :
    (getline process.stat).bind statParent = some (.ofInt claimed) := by
  have hopen : ascii " (" = [32, 40] := by decide
  have hname : ascii ") S " = [41, 32, 83, 32] := by decide
  have hstat : process.stat = (decimal process.pid ++ [32, 40] ++
      41 :: 32 :: 83 :: 32 :: (decimal claimed ++ [])) ++ 10 :: (rest ++ 41 :: 32 ::
        process.state :: 32 :: (decimal process.parent ++ process.fields)) := by
    rw [Process.stat_eq, Process.front, hcommand, hopen, hname]
    simp
  have hfirst : ∀ byte ∈ decimal process.pid ++ [32, 40] ++
      41 :: 32 :: 83 :: 32 :: (decimal claimed ++ []), decide (byte ≠ 10) = true := by
    intro byte hbyte
    refine decide_eq_true ?_
    rintro rfl
    simp [not_mem_decimal _ (show (10 : UInt8).toNat < 48 by decide)] at hbyte
  rw [getline, if_neg (by simp [hstat]), Option.bind_some, hstat,
    List.takeWhile_append_of_pos hfirst, List.takeWhile_cons_of_neg (by decide), List.append_nil]
  exact statParent_eq _ (by decide) (by decide) hclaimed (by simp) (by simp)

/-! ### The table -/

/-- What there is to read while the table is made: every process is listed by its number and has its
file, and nothing else can be read as a process. -/
structure Snapshot (entries : List ByteString) (stat : ℤ → Option ByteString)
    (processes : List Process) : Prop where
  listed : ∀ process ∈ processes,
    decimal process.pid ∈ entries ∧ stat process.pid = some process.stat
  only : ∀ entry ∈ entries, ∀ pid file, strtol entry = (pid, []) → 0 < pid →
    stat pid = some file → ∃ process ∈ processes, (process.pid : ℤ) = pid

/-- The second number is the one of a process whose parent has the first. -/
def ChildOf (processes : List Process) (parent child : ℕ) : Prop :=
  ∃ process ∈ processes, process.parent = parent ∧ process.pid = child

section Table

variable {entries : List ByteString} {stat : ℤ → Option ByteString} {processes : List Process}

theorem entryPair_eq_some {entry : ByteString} {pair : Int32 × Int32}
    (hpair : entryPair stat entry = some pair) :
    ∃ pid file, strtol entry = (pid, []) ∧ 0 < pid ∧ stat pid = some file ∧
      ∃ parent, (getline file).bind statParent = some parent ∧ pair = (parent, .ofInt pid) := by
  cases hentry : strtol entry with
  | mk pid rest =>
    simp only [entryPair, hentry] at hpair
    split at hpair
    · cases hpair
    next hnumber =>
      rw [not_or, not_not, not_le] at hnumber
      obtain ⟨hrest, hpos⟩ := hnumber
      obtain ⟨parent, hparent, rfl⟩ := Option.map_eq_some_iff.mp hpair
      rw [Option.bind_assoc] at hparent
      obtain ⟨file, hfile, hline⟩ := Option.bind_eq_some_iff.mp hparent
      exact ⟨pid, file, by rw [hrest], hpos, hfile, parent, hline, rfl⟩

/-- The table has every process with its parent, and nothing else. -/
theorem mem_processTree (h : Snapshot entries stat processes)
    (hnames : ∀ process ∈ processes, 10 ∉ process.command) {parent child : Int32} :
    (parent, child) ∈ processTree entries stat ↔
      ∃ process ∈ processes, parent = .ofInt process.parent ∧ child = .ofInt process.pid := by
  rw [processTree, List.mem_filterMap]
  constructor
  · rintro ⟨entry, hentry, hpair⟩
    obtain ⟨pid, file, hnumber, hpos, hfile, other, hline, heq⟩ := entryPair_eq_some hpair
    obtain ⟨hparent, hchild⟩ := Prod.mk.inj heq
    obtain ⟨process, hprocess, hpid⟩ := h.only entry hentry pid file hnumber hpos hfile
    subst hpid
    rw [(h.listed process hprocess).2] at hfile
    obtain rfl := Option.some.inj hfile
    rw [statParent_stat process (hnames process hprocess)] at hline
    exact ⟨process, hprocess, hparent.trans (Option.some.inj hline).symm, hchild⟩
  · rintro ⟨process, hprocess, rfl, rfl⟩
    obtain ⟨hentry, hfile⟩ := h.listed process hprocess
    refine ⟨_, hentry, ?_⟩
    have hpos : ¬ (([] : ByteString) ≠ [] ∨ (process.pid : ℤ) ≤ 0) := by
      have := process.pid_pos
      simp
      omega
    simp only [entryPair, strtol_decimal process.pid_lt]
    rw [if_neg hpos, hfile, Option.bind_some, statParent_stat process (hnames process hprocess)]
    rfl

theorem lt_of_childOf {root pid : ℕ} (h : pid < 2 ^ 31 ∨ TransGen (ChildOf processes) root pid) :
    pid < 2 ^ 31 := by
  rcases h with hlt | hbelow
  · exact hlt
  · obtain ⟨parent, -, process, -, -, rfl⟩ := TransGen.tail'_iff.mp hbelow
    exact process.pid_lt

theorem ofInt_inj {first second : ℕ} (hfirst : first < 2 ^ 31) (hsecond : second < 2 ^ 31)
    (h : Int32.ofInt first = Int32.ofInt second) : first = second := by
  have htoInt := congrArg Int32.toInt h
  rw [Int32.toInt_ofInt_of_le (by omega) (by omega),
    Int32.toInt_ofInt_of_le (by omega) (by omega)] at htoInt
  exact_mod_cast htoInt

variable (h : Snapshot entries stat processes)
  (hnames : ∀ process ∈ processes, 10 ∉ process.command)

include h hnames

theorem childIn_iff {parent : ℕ} (hparent : parent < 2 ^ 31) {child : Int32} :
    ChildIn (processTree entries stat) (.ofInt parent) child ↔
      ∃ pid : ℕ, pid < 2 ^ 31 ∧ child = .ofInt pid ∧ ChildOf processes parent pid := by
  rw [ChildIn, mem_processTree h hnames]
  constructor
  · rintro ⟨process, hprocess, heq, rfl⟩
    exact ⟨process.pid, process.pid_lt, rfl, process, hprocess,
      (ofInt_inj hparent process.parent_lt heq).symm, rfl⟩
  · rintro ⟨pid, -, rfl, process, hprocess, rfl, rfl⟩
    exact ⟨process, hprocess, rfl, rfl⟩

theorem transGen_childIn_iff {root : ℕ} (hroot : root < 2 ^ 31) {child : Int32} :
    TransGen (ChildIn (processTree entries stat)) (.ofInt root) child ↔
      ∃ pid : ℕ, pid < 2 ^ 31 ∧ child = .ofInt pid ∧ TransGen (ChildOf processes) root pid := by
  constructor
  · intro hbelow
    induction hbelow with
    | single hchild =>
      obtain ⟨pid, hlt, rfl, hof⟩ := (childIn_iff h hnames hroot).mp hchild
      exact ⟨pid, hlt, rfl, .single hof⟩
    | tail _ hchild ih =>
      obtain ⟨parent, hparent, rfl, habove⟩ := ih
      obtain ⟨pid, hlt, rfl, hof⟩ := (childIn_iff h hnames hparent).mp hchild
      exact ⟨pid, hlt, rfl, habove.tail hof⟩
  · rintro ⟨pid, -, rfl, hbelow⟩
    refine hbelow.lift (fun number : ℕ ↦ Int32.ofInt number) fun parent child hchild ↦ ?_
    obtain ⟨process, hprocess, rfl, rfl⟩ := hchild
    exact (mem_processTree h hnames).mpr ⟨process, hprocess, rfl, rfl⟩

theorem noCycleBelow_processTree {root : ℕ} (hroot : root < 2 ^ 31) :
    NoCycleBelow (equalRange (processTree entries stat)) (.ofInt root) ↔
      ∀ pid, ReflTransGen (ChildOf processes) root pid →
        ¬ TransGen (ChildOf processes) pid pid := by
  have hbelow : ∀ pid, ReflTransGen (ChildOf processes) root pid → pid < 2 ^ 31 := fun pid hpid ↦
    lt_of_childOf ((reflTransGen_iff_eq_or_transGen.mp hpid).imp_left fun heq ↦ by rwa [heq])
  have hreaches {other : Int32} :
      ReflTransGen (ChildIn (processTree entries stat)) (.ofInt root) other ↔
        ∃ pid : ℕ, other = .ofInt pid ∧ ReflTransGen (ChildOf processes) root pid := by
    rw [reflTransGen_iff_eq_or_transGen, transGen_childIn_iff h hnames hroot]
    constructor
    · rintro (rfl | ⟨pid, -, rfl, hpid⟩)
      · exact ⟨root, rfl, .refl⟩
      · exact ⟨pid, rfl, hpid.to_reflTransGen⟩
    · rintro ⟨pid, rfl, hpid⟩
      obtain rfl | hbelow' := reflTransGen_iff_eq_or_transGen.mp hpid
      · exact .inl rfl
      · exact .inr ⟨pid, hbelow pid hpid, rfl, hbelow'⟩
  rw [NoCycleBelow, child_equalRange]
  constructor
  · intro hacyclic pid hpid hcycle
    exact hacyclic (.ofInt pid) (hreaches.mpr ⟨pid, rfl, hpid⟩)
      ((transGen_childIn_iff h hnames (hbelow pid hpid)).mpr
        ⟨pid, hbelow pid hpid, rfl, hcycle⟩)
  · intro hacyclic other hother hcycle
    obtain ⟨pid, rfl, hpid⟩ := hreaches.mp hother
    obtain ⟨again, hagain, hsame, hdown⟩ :=
      (transGen_childIn_iff h hnames (hbelow pid hpid)).mp hcycle
    obtain rfl := ofInt_inj (hbelow pid hpid) hagain hsame
    exact hacyclic pid hpid hdown

/-- From the files of `/proc` to the signals. A compiler is terminated with exactly the processes
below it, whatever parentheses and spaces are in their names, unless a process below it is, in the
table, below itself. -/
theorem kills_processes_below {root : ℕ} (hpos : 0 < root) (hroot : root < 2 ^ 31) :
    (∃ depth kills, gzTerminateProcessTree (processTree entries stat) depth (.ofInt root) =
        some kills ∧ ∀ kill, kill ∈ kills ↔
          kill = .group (.ofInt root) ∨ kill = .process (.ofInt root) ∨
            ∃ pid : ℕ, TransGen (ChildOf processes) root pid ∧ kill = .process (.ofInt pid)) ↔
      ∀ pid, ReflTransGen (ChildOf processes) root pid →
        ¬ TransGen (ChildOf processes) pid pid := by
  have hpositive : ¬ Int32.ofInt root ≤ 0 := by
    rw [Int32.not_le, Int32.lt_iff_toInt_lt, Int32.toInt_ofInt_of_le (by omega) (by omega)]
    show (0 : ℤ) < root
    omega
  rw [← noCycleBelow_processTree h hnames hroot, ← collects_iff]
  constructor
  · rintro ⟨depth, kills, hkills, -⟩
    rw [gzTerminateProcessTree, if_neg hpositive] at hkills
    obtain ⟨result, hresult, -⟩ := Option.map_eq_some_iff.mp hkills
    exact ⟨depth, result, hresult⟩
  · rintro ⟨depth, result, hresult⟩
    refine ⟨depth, .group (.ofInt root) :: .process (.ofInt root) :: result.map .process, ?_, ?_⟩
    · rw [gzTerminateProcessTree, if_neg hpositive, hresult]
      rfl
    · intro kill
      have hcollected : ∀ other, other ∈ result ↔
          TransGen (ChildIn (processTree entries stat)) (.ofInt root) other := by
        intro other
        rw [collectDescendants_eq_descend] at hresult
        rw [mem_descend hresult, child_equalRange]
        exact or_iff_right List.not_mem_nil
      rw [List.mem_cons, List.mem_cons, List.mem_map]
      refine or_congr_right (or_congr_right ⟨?_, ?_⟩)
      · rintro ⟨other, hother, rfl⟩
        rw [hcollected, transGen_childIn_iff h hnames hroot] at hother
        obtain ⟨pid, -, rfl, hbelow⟩ := hother
        exact ⟨pid, hbelow, rfl⟩
      · rintro ⟨pid, hbelow, rfl⟩
        refine ⟨.ofInt pid, ?_, rfl⟩
        rw [hcollected, transGen_childIn_iff h hnames hroot]
        exact ⟨pid, lt_of_childOf (.inr hbelow), rfl, hbelow⟩

end Table

/-- A shell, and a child of it with a parenthesis in its name. -/
def shell : Process where
  pid := 7
  command := ascii "sh"
  state := 83
  parent := 1
  fields := ascii " 7 0"
  pid_pos := by decide
  pid_lt := by decide
  parent_lt := by decide
  state_letter := by decide
  fields_spaced := ⟨ascii "7 0", by decide⟩
  fields_plain := by decide

@[inherit_doc shell]
def shellChild : Process where
  pid := 8
  command := ascii "a) S 9"
  state := 82
  parent := 7
  fields := ascii " 7 0"
  pid_pos := by decide
  pid_lt := by decide
  parent_lt := by decide
  state_letter := by decide
  fields_spaced := ⟨ascii "7 0", by decide⟩
  fields_plain := by decide

def shellStat (pid : ℤ) : Option ByteString :=
  if pid = 7 then some shell.stat else if pid = 8 then some shellChild.stat else none

theorem shell_snapshot :
    Snapshot [ascii "self", decimal 7, decimal 8] shellStat [shell, shellChild] where
  listed process hprocess := by
    rw [List.mem_pair] at hprocess
    obtain rfl | rfl := hprocess
    · exact ⟨by simp [shell], rfl⟩
    · exact ⟨by simp [shellChild], rfl⟩
  only entry hentry pid file hnumber hpos hfile := by
    have hpid : pid = 7 ∨ pid = 8 := by
      rw [shellStat] at hfile
      split at hfile
      · exact .inl (by assumption)
      · split at hfile
        · exact .inr (by assumption)
        · cases hfile
    rcases hpid with rfl | rfl
    · exact ⟨shell, List.mem_cons_self, rfl⟩
    · exact ⟨shellChild, List.mem_cons_of_mem _ List.mem_cons_self, rfl⟩

theorem shell_kills :
    ∃ depth kills, gzTerminateProcessTree
        (processTree [ascii "self", decimal 7, decimal 8] shellStat) depth 7 = some kills ∧
      ∀ kill, kill ∈ kills ↔ kill = .group 7 ∨ kill = .process 7 ∨
        ∃ pid : ℕ, TransGen (ChildOf [shell, shellChild]) 7 pid ∧ kill = .process (.ofInt pid) := by
  have hnames : ∀ process ∈ [shell, shellChild], (10 : UInt8) ∉ process.command := by
    intro process hprocess
    rw [List.mem_pair] at hprocess
    obtain rfl | rfl := hprocess
    · decide
    · decide
  refine (kills_processes_below shell_snapshot hnames (show 0 < 7 by decide) (by decide)).mpr ?_
  intro pid _ hcycle
  have hlt : ∀ parent child, ChildOf [shell, shellChild] parent child → parent < child := by
    rintro parent child ⟨process, hprocess, rfl, rfl⟩
    rw [List.mem_pair] at hprocess
    obtain rfl | rfl := hprocess
    · decide
    · decide
  exact lt_irrefl pid (transGen_minimal hlt pid pid hcycle)

end Gzscript.Build.ProcessTable
