import Gzscript.Diagnostics.Path
import Gzscript.Library.Segments

/-!
# Normalised paths are canonical

What `gzNormalizeDocumentPath` does with a path behind its scheme is a resolution of its segments
(`normalizeRest`), which are pushed on a stack of names with `..` left at the bottom where there is
nothing to pop (`Resolved`). The stack is written back with one separator between two segments, and
reading it again gives the same stack.

For paths that start with a separator there is no scheme, so the result is canonical, and two of
them agree exactly if the paths have the same lexical resolution (`absolute_canonical`).

A scheme is kept in front, together with at most one separator less than the path had behind it.
So normalising is idempotent except for a path with two or more separators behind a scheme
(`normalize_idempotent_iff`), where each pass takes one more away
(`resource_path_not_idempotent`).
-/

set_option autoImplicit false
set_option relaxedAutoImplicit false

namespace Gzscript.Diagnostics.CanonicalPath

open Library.Bytes Library.Segments Diagnostics.Path

/-! ### Stacks of segments -/

/-- A segment that is a name. -/
structure IsName (segment : ByteString) : Prop extends IsSegment slash segment where
  notDot : segment ≠ ascii "."
  notDotDot : segment ≠ ascii ".."

/-- A stack of resolved segments: steps up, none of them from the root, below names. -/
def Resolved (rooted : Bool) (parts : List ByteString) : Prop :=
  ∃ ups names, parts = ups ++ names ∧ (∀ up ∈ ups, up = ascii "..") ∧
    (∀ name ∈ names, IsName name) ∧ (rooted → ups = [])

theorem resolveSegment_skip (rooted hasDrive : Bool) (parts : List ByteString)
    {segment : ByteString} (hskip : segment = [] ∨ segment = ascii ".") :
    resolveSegment rooted hasDrive parts segment = parts := if_pos hskip

theorem resolveSegment_name (rooted hasDrive : Bool) (parts : List ByteString)
    {segment : ByteString} (hname : IsName segment) :
    resolveSegment rooted hasDrive parts segment = parts ++ [segment] := by
  rw [resolveSegment, if_neg (not_or.mpr ⟨hname.nonempty, hname.notDot⟩), if_neg hname.notDotDot]

theorem resolved_nil (rooted : Bool) : Resolved rooted [] :=
  ⟨[], [], rfl, fun _ h ↦ absurd h List.not_mem_nil, fun _ h ↦ absurd h List.not_mem_nil,
    fun _ ↦ rfl⟩

/-- The last of a stack of names is neither a step up nor a separator. -/
theorem getLast?_names {names : List ByteString} (hnames : ∀ name ∈ names, IsName name) :
    names.getLast? ≠ some (ascii "..") ∧ names.getLast? ≠ some (ascii "/") := by
  constructor
  · intro hlast
    exact (hnames _ (List.mem_of_getLast? hlast)).notDotDot rfl
  · intro hlast
    exact (hnames _ (List.mem_of_getLast? hlast)).plain List.mem_cons_self

theorem resolved_step {rooted hasDrive : Bool} {parts : List ByteString} {segment : ByteString}
    (hresolved : Resolved rooted parts) (hsegment : IsSegment slash segment) :
    Resolved rooted (resolveSegment rooted hasDrive parts segment) := by
  obtain ⟨ups, names, rfl, hups, hnames, hrooted⟩ := hresolved
  have hsame : Resolved rooted (ups ++ names) := ⟨ups, names, rfl, hups, hnames, hrooted⟩
  by_cases hdot : segment = ascii "."
  · rw [resolveSegment_skip rooted hasDrive _ (Or.inr hdot)]
    exact hsame
  by_cases hdotdot : segment = ascii ".."
  · rw [resolveSegment, if_neg (not_or.mpr ⟨hsegment.nonempty, hdot⟩), if_pos hdotdot]
    split_ifs with hpop hpush
    · -- What is popped is no step up, so there is a name.
      have hnone : names ≠ [] := by
        rintro rfl
        rw [List.append_nil] at hpop
        obtain ⟨hne, hlast, -⟩ := hpop
        exact hlast (by rw [List.getLast?_eq_some_getLast hne, hups _ (List.getLast_mem hne)])
      refine ⟨ups, names.dropLast, List.dropLast_append_of_ne_nil hnone, hups, ?_, hrooted⟩
      exact fun name hname ↦ hnames name ((List.dropLast_sublist names).subset hname)
    · -- A step up is pushed onto steps up only.
      have hnone : names = [] := by
        by_contra hne
        obtain ⟨hlast, hlast'⟩ := getLast?_names hnames
        refine hpop ⟨List.append_ne_nil_of_right_ne_nil _ hne, ?_, ?_, fun h ↦ hpush.2 h.2⟩
        · rwa [List.getLast?_append_of_ne_nil _ hne]
        · rwa [List.getLast?_append_of_ne_nil _ hne]
      subst hnone
      refine ⟨ups ++ [segment], [], by simp, ?_, hnames, fun h ↦ absurd h hpush.1⟩
      intro up hup
      rcases List.mem_append.mp hup with hup | hup
      · exact hups up hup
      · rw [List.mem_singleton.mp hup, hdotdot]
    · exact hsame
  · have hname : IsName segment := ⟨hsegment, hdot, hdotdot⟩
    rw [resolveSegment_name rooted hasDrive _ hname]
    refine ⟨ups, names ++ [segment], List.append_assoc .., hups, ?_, hrooted⟩
    intro name hmem
    rcases List.mem_append.mp hmem with hmem | hmem
    · exact hnames name hmem
    · rw [List.mem_singleton.mp hmem]
      exact hname

theorem resolved_foldl {rooted hasDrive : Bool} {parts : List ByteString}
    (hresolved : Resolved rooted parts) {pieces : List ByteString}
    (hpieces : ∀ piece ∈ pieces, IsSegment slash piece) :
    Resolved rooted (pieces.foldl (resolveSegment rooted hasDrive) parts) := by
  induction pieces generalizing parts with
  | nil => exact hresolved
  | cons piece pieces ih =>
    rw [List.foldl_cons]
    exact ih (resolved_step hresolved (hpieces piece List.mem_cons_self))
      fun other hother ↦ hpieces other (List.mem_cons_of_mem piece hother)

theorem foldl_names (rooted hasDrive : Bool) (parts : List ByteString) {names : List ByteString}
    (hnames : ∀ name ∈ names, IsName name) :
    names.foldl (resolveSegment rooted hasDrive) parts = parts ++ names := by
  induction names generalizing parts with
  | nil => rw [List.foldl_nil, List.append_nil]
  | cons name names ih =>
    rw [List.foldl_cons, resolveSegment_name _ _ _ (hnames name List.mem_cons_self),
      ih _ fun other hother ↦ hnames other (List.mem_cons_of_mem name hother),
      List.append_assoc, List.singleton_append]

/-- Steps up that cannot be resolved are kept. -/
theorem foldl_ups {parts ups : List ByteString} (hparts : ∀ up ∈ parts, up = ascii "..")
    (hups : ∀ up ∈ ups, up = ascii "..") :
    ups.foldl (resolveSegment false false) parts = parts ++ ups := by
  induction ups generalizing parts with
  | nil => rw [List.foldl_nil, List.append_nil]
  | cons up ups ih =>
    obtain rfl := hups up List.mem_cons_self
    have hpush : resolveSegment false false parts (ascii "..") = parts ++ [ascii ".."] := by
      rw [resolveSegment, if_neg (by decide), if_pos rfl]
      rw [if_neg, if_pos (by decide)]
      rintro ⟨hne, hlast, -⟩
      exact hlast (by rw [List.getLast?_eq_some_getLast hne, hparts _ (List.getLast_mem hne)])
    rw [List.foldl_cons, hpush, ih _ fun other hother ↦ hups other (List.mem_cons_of_mem _ hother),
      List.append_assoc, List.singleton_append]
    intro other hother
    rcases List.mem_append.mp hother with hother | hother
    · exact hparts other hother
    · exact List.mem_singleton.mp hother

/-- A resolved stack is resolved to itself. -/
theorem foldl_resolved {rooted hasDrive : Bool} {parts : List ByteString}
    (hresolved : Resolved rooted parts)
    (hdrive : hasDrive → parts.head? ≠ some (ascii "..")) :
    parts.foldl (resolveSegment rooted hasDrive) [] = parts := by
  obtain ⟨ups, names, rfl, hups, hnames, hrooted⟩ := hresolved
  have hups' : ups.foldl (resolveSegment rooted hasDrive) [] = ups := by
    cases ups with
    | nil => rfl
    | cons up ups =>
      have hnotRooted : rooted = false := by
        by_contra h
        exact List.cons_ne_nil _ _ (hrooted (Bool.not_eq_false _ ▸ h))
      have hnoDrive : hasDrive = false := by
        by_contra h
        refine hdrive (Bool.not_eq_false _ ▸ h) ?_
        rw [List.cons_append, List.head?_cons, hups up List.mem_cons_self]
      rw [hnotRooted, hnoDrive]
      exact foldl_ups (fun _ h ↦ absurd h List.not_mem_nil) hups
  rw [List.foldl_append, hups', foldl_names _ _ _ hnames]

/-! ### The path behind a scheme -/

/-- The path starts with a separator. -/
def isRooted (work : ByteString) : Bool := work.head? = some slash

/-- The stack that the segments of a path leave. -/
def restParts (work : ByteString) : List ByteString :=
  (segments slash work).foldl (resolveSegment (isRooted work) (hasDrivePrefix work)) []

/-- A stack as a path. -/
def render (rooted : Bool) (parts : List ByteString) : ByteString :=
  if rooted then slash :: [slash].intercalate parts
  else if parts = [] then ascii "." else [slash].intercalate parts

/-- What normalising makes of the path behind a scheme. -/
def normalizeRest (work : ByteString) : ByteString := render (isRooted work) (restParts work)

theorem collapseSeparators_eq_collapse (last : Option UInt8) (work : ByteString) :
    collapseSeparators last work = collapse slash last work := by
  induction work generalizing last with
  | nil => rfl
  | cons c work ih => rw [collapseSeparators, collapse, ih, ih]

theorem isRooted_collapse (work : ByteString) :
    isRooted (collapse slash none work) = isRooted work := by
  cases work with
  | nil => rfl
  | cons c work =>
    rw [collapse, if_neg (by simp)]
    rfl

theorem hasDrivePrefix_cons {c : UInt8}
    (hletter : ¬ (('a'.toUInt8 ≤ c ∧ c ≤ 'z'.toUInt8) ∨ ('A'.toUInt8 ≤ c ∧ c ≤ 'Z'.toUInt8)))
    (work : ByteString) : hasDrivePrefix (c :: work) = false := by
  cases work with
  | nil => rfl
  | cons d work => exact decide_eq_false fun hdrive ↦ hletter hdrive.2

theorem hasDrivePrefix_collapse (work : ByteString) :
    hasDrivePrefix (collapse slash none work) = hasDrivePrefix work := by
  cases work with
  | nil => rfl
  | cons c work =>
    rw [collapse, if_neg (by simp)]
    cases work with
    | nil => rfl
    | cons d work =>
      by_cases hskip : d = slash ∧ some c = some slash
      · obtain rfl : c = slash := Option.some.inj hskip.2
        rw [hasDrivePrefix_cons (by decide), hasDrivePrefix_cons (by decide)]
      · rw [collapse, if_neg hskip]
        rfl

theorem resolved_restParts (work : ByteString) : Resolved (isRooted work) (restParts work) :=
  resolved_foldl (resolved_nil _) fun _ hpiece ↦ isSegment_of_mem_segments slash hpiece

theorem Resolved.isSegment {rooted : Bool} {parts : List ByteString}
    (hresolved : Resolved rooted parts) : ∀ part ∈ parts, IsSegment slash part := by
  obtain ⟨ups, names, rfl, hups, hnames, -⟩ := hresolved
  intro part hpart
  rcases List.mem_append.mp hpart with hup | hname
  · rw [hups part hup]
    exact ⟨by decide, by decide⟩
  · exact (hnames part hname).toIsSegment

theorem intercalate_ne_nil {parts : List ByteString}
    (hparts : ∀ part ∈ parts, IsSegment slash part) (hne : parts ≠ []) :
    [slash].intercalate parts ≠ [] := by
  intro hempty
  have hsegments := segments_intercalate hparts
  rw [hempty, segments_nil] at hsegments
  exact hne hsegments.symm

theorem gzNormalizeDocumentPath_eq (path : ByteString) :
    gzNormalizeDocumentPath path =
      (splitScheme path).1 ++ normalizeRest (splitScheme path).2 := by
  unfold gzNormalizeDocumentPath
  rcases splitScheme path with ⟨schemePrefix, work⟩
  have hrooted : decide ((collapseSeparators none work).head? = some slash) = isRooted work := by
    rw [collapseSeparators_eq_collapse, ← isRooted_collapse, isRooted]
  have hdrive : hasDrivePrefix (collapseSeparators none work) = hasDrivePrefix work := by
    rw [collapseSeparators_eq_collapse, hasDrivePrefix_collapse]
  have hparts : ((collapseSeparators none work).splitOn slash).foldl
      (resolveSegment (isRooted work) (hasDrivePrefix work)) [] = restParts work := by
    rw [collapseSeparators_eq_collapse, foldl_splitOn slash fun parts ↦
      resolveSegment_skip _ _ parts (Or.inl rfl), segments_collapse, restParts]
  dsimp only
  rw [hrooted, hdrive, hparts, normalizeRest, render]
  congr 1
  by_cases hroot : isRooted work = true
  · have hhead := of_decide_eq_true (hrooted.trans hroot)
    simp [hroot, hhead]
  · have hhead : ¬ (collapseSeparators none work).head? = some slash :=
      of_decide_eq_false (hrooted.trans (Bool.not_eq_true _ ▸ hroot))
    have hparts' := (resolved_restParts work).isSegment
    by_cases hnone : restParts work = []
    · simp [hroot, hhead, hnone]
    · simp [hroot, hhead, hnone, intercalate_ne_nil hparts' hnone]

/-! ### A normalised path is read as its stack -/

/-- A joined list of segments starts like its first segment. -/
theorem head?_intercalate {part : ByteString} (hpart : IsSegment slash part)
    (parts : List ByteString) :
    ∃ c rest, [slash].intercalate (part :: parts) = c :: rest ∧ c ≠ slash ∧
      part.head? = some c := by
  obtain ⟨c, tail, rfl⟩ := List.exists_cons_of_ne_nil hpart.nonempty
  have hne : c ≠ slash := fun h ↦ hpart.plain (h ▸ List.mem_cons_self)
  cases parts with
  | nil => exact ⟨c, tail, List.intercalate_singleton, hne, rfl⟩
  | cons other parts => exact ⟨c, _, List.intercalate_cons_cons, hne, rfl⟩

theorem isRooted_render {rooted : Bool} {parts : List ByteString}
    (hresolved : Resolved rooted parts) : isRooted (render rooted parts) = rooted := by
  cases rooted with
  | true => exact decide_eq_true rfl
  | false =>
    cases parts with
    | nil => rfl
    | cons part parts =>
      obtain ⟨c, rest, hjoined, hne, -⟩ :=
        head?_intercalate (hresolved.isSegment part List.mem_cons_self) parts
      rw [render, if_neg Bool.false_ne_true, if_neg (List.cons_ne_nil _ _), hjoined]
      exact decide_eq_false fun h ↦ hne (Option.some.inj h)

theorem hasDrivePrefix_render {rooted : Bool} {parts : List ByteString}
    (hresolved : Resolved rooted parts)
    (hdrive : hasDrivePrefix (render rooted parts) = true) : parts.head? ≠ some (ascii "..") := by
  intro hhead
  cases rooted with
  | true =>
    rw [render, if_pos rfl, hasDrivePrefix_cons (by decide)] at hdrive
    exact Bool.false_ne_true hdrive
  | false =>
    cases parts with
    | nil => cases hhead
    | cons part parts =>
      obtain ⟨c, rest, hjoined, -, hfirst⟩ :=
        head?_intercalate (hresolved.isSegment part List.mem_cons_self) parts
      obtain rfl : part = ascii ".." := Option.some.inj hhead
      obtain rfl : '.'.toUInt8 = c := Option.some.inj hfirst
      rw [render, if_neg Bool.false_ne_true, if_neg (List.cons_ne_nil _ _), hjoined,
        hasDrivePrefix_cons (by decide)] at hdrive
      exact Bool.false_ne_true hdrive

theorem restParts_render {rooted : Bool} {parts : List ByteString}
    (hresolved : Resolved rooted parts) : restParts (render rooted parts) = parts := by
  have hsegments := segments_intercalate hresolved.isSegment
  have hfixed := foldl_resolved hresolved (hasDrivePrefix_render hresolved)
  rw [restParts, isRooted_render hresolved]
  cases rooted with
  | true =>
    rw [render, if_pos rfl] at hfixed ⊢
    rw [segments_cons_self, hsegments, hfixed]
  | false =>
    by_cases hnone : parts = []
    · rw [hnone]
      rfl
    · rw [render, if_neg Bool.false_ne_true, if_neg hnone] at hfixed ⊢
      rw [hsegments, hfixed]

theorem normalizeRest_idem (work : ByteString) :
    normalizeRest (normalizeRest work) = normalizeRest work := by
  have hresolved := resolved_restParts work
  rw [normalizeRest, normalizeRest, isRooted_render hresolved, restParts_render hresolved]

theorem render_injective {rooted other : Bool} {parts others : List ByteString}
    (hparts : Resolved rooted parts) (hothers : Resolved other others)
    (hrender : render rooted parts = render other others) : rooted = other ∧ parts = others := by
  refine ⟨?_, ?_⟩
  · rw [← isRooted_render hparts, hrender, isRooted_render hothers]
  · rw [← restParts_render hparts, hrender, restParts_render hothers]

/-! ### Absolute paths -/

theorem splitScheme_absolute {path : ByteString} (habsolute : path.head? = some slash) :
    splitScheme path = ([], path) := by
  obtain ⟨rest, rfl⟩ : ∃ rest, path = slash :: rest := by
    cases path with
    | nil => cases habsolute
    | cons c rest => exact ⟨rest, congrArg (· :: rest) (Option.some.inj habsolute)⟩
  have hfile : (ascii "file://").isPrefixOf (slash :: rest) = false := rfl
  rw [splitScheme, if_neg (by rw [hfile]; exact Bool.false_ne_true)]
  cases hfind : find (ascii "://") (slash :: rest) with
  | none => rfl
  | some schemeEnd =>
    refine if_neg ?_
    rintro ⟨hpositive, hscheme⟩
    obtain ⟨before, rfl⟩ := Nat.exists_eq_succ_of_ne_zero (Nat.ne_of_gt hpositive)
    have hfirst : schemeCharacter 0 slash = false := by decide
    simp [List.mapIdx_cons, hfirst] at hscheme

theorem normalize_absolute {path : ByteString} (habsolute : path.head? = some slash) :
    gzNormalizeDocumentPath path = render true (restParts path) := by
  have hroot : isRooted path = true := decide_eq_true habsolute
  rw [gzNormalizeDocumentPath_eq, splitScheme_absolute habsolute, List.nil_append, normalizeRest,
    hroot]

/-- One segment of the resolution of a path, with nothing above the root. -/
def lexicalStep (names : List ByteString) (segment : ByteString) : List ByteString :=
  if segment = [] ∨ segment = ascii "." then names
  else if segment = ascii ".." then names.dropLast
  else names ++ [segment]

/-- The names that a path leads through from the root, by its text alone. -/
def lexicalResolution (path : ByteString) : List ByteString :=
  (path.splitOn slash).foldl lexicalStep []

/-- On a stack of names below the root the source's step is the lexical one. -/
theorem resolveSegment_rooted {parts : List ByteString} (hresolved : Resolved true parts)
    (segment : ByteString) :
    resolveSegment true false parts segment = lexicalStep parts segment := by
  obtain ⟨ups, names, rfl, -, hnames, hrooted⟩ := hresolved
  obtain rfl := hrooted rfl
  obtain ⟨hlast, hlast'⟩ := getLast?_names hnames
  rw [List.nil_append, resolveSegment, lexicalStep]
  by_cases hnone : names = []
  · simp [hnone]
  · simp [hnone, hlast, hlast']

theorem foldl_rooted {parts : List ByteString} (hresolved : Resolved true parts)
    {pieces : List ByteString} (hpieces : ∀ piece ∈ pieces, IsSegment slash piece) :
    pieces.foldl (resolveSegment true false) parts = pieces.foldl lexicalStep parts := by
  induction pieces generalizing parts with
  | nil => rfl
  | cons piece pieces ih =>
    have hpiece := hpieces piece List.mem_cons_self
    rw [List.foldl_cons, List.foldl_cons, ← resolveSegment_rooted hresolved]
    exact ih (resolved_step hresolved hpiece)
      fun other hother ↦ hpieces other (List.mem_cons_of_mem piece hother)

theorem restParts_absolute {path : ByteString} (habsolute : path.head? = some slash) :
    restParts path = lexicalResolution path := by
  have hroot : isRooted path = true := decide_eq_true habsolute
  have hdrive : hasDrivePrefix path = false := by
    cases path with
    | nil => rfl
    | cons c rest =>
      rw [Option.some.inj habsolute]
      exact hasDrivePrefix_cons (by decide) rest
  have hskip : ∀ names, lexicalStep names [] = names := fun _ ↦ if_pos (Or.inl rfl)
  rw [restParts, hroot, hdrive, lexicalResolution, foldl_splitOn slash hskip]
  exact foldl_rooted (resolved_nil true) fun _ hpiece ↦ isSegment_of_mem_segments slash hpiece

/-- A normalised absolute path: no segment of it is empty or a dot segment, and it ends in a
separator only if it is the root. -/
structure Canonical (path : ByteString) : Prop where
  absolute : path.head? = some slash
  segments : path ≠ [slash] → ∀ segment ∈ path.tail.splitOn slash,
    segment ≠ [] ∧ segment ≠ ascii "." ∧ segment ≠ ascii ".."
  trailing : path.getLast? = some slash → path = [slash]

theorem canonical_render {parts : List ByteString} (hresolved : Resolved true parts) :
    Canonical (render true parts) := by
  obtain ⟨ups, names, rfl, -, hnames, hrooted⟩ := hresolved
  obtain rfl := hrooted rfl
  rw [List.nil_append, render, if_pos rfl]
  by_cases hnone : names = []
  · subst hnone
    exact ⟨rfl, fun hne ↦ absurd rfl hne, fun _ ↦ rfl⟩
  · have hsplit : ([slash].intercalate names).splitOn slash = names :=
      List.splitOn_intercalate slash (fun name hname ↦ (hnames name hname).plain) hnone
    refine ⟨rfl, fun _ name hname ↦ ?_, fun hlast ↦ ?_⟩
    · rw [List.tail_cons, hsplit] at hname
      exact ⟨(hnames name hname).nonempty, (hnames name hname).notDot,
        (hnames name hname).notDotDot⟩
    · -- A separator at the end would leave an empty name behind it.
      have hjoined := intercalate_ne_nil (fun name hname ↦ (hnames name hname).toIsSegment) hnone
      rw [← List.singleton_append, List.getLast?_append_of_ne_nil _ hjoined] at hlast
      obtain ⟨before, hbefore⟩ := List.getLast?_eq_some_iff.mp hlast
      have hempty : [] ∈ names := by
        rw [← hsplit, hbefore, List.splitOn_append_cons_self]
        exact List.mem_append_right _ List.mem_cons_self
      exact absurd rfl (hnames [] hempty).nonempty

theorem resolved_absolute {path : ByteString} (habsolute : path.head? = some slash) :
    Resolved true (restParts path) := by
  have hrooted : isRooted path = true := decide_eq_true habsolute
  exact hrooted ▸ resolved_restParts path

theorem canonical_of_absolute {path : ByteString} (habsolute : path.head? = some slash) :
    Canonical (gzNormalizeDocumentPath path) := by
  rw [normalize_absolute habsolute]
  exact canonical_render (resolved_absolute habsolute)

theorem normalize_eq_iff {path other : ByteString} (hpath : path.head? = some slash)
    (hother : other.head? = some slash) :
    gzNormalizeDocumentPath path = gzNormalizeDocumentPath other ↔
      lexicalResolution path = lexicalResolution other := by
  rw [normalize_absolute hpath, normalize_absolute hother, ← restParts_absolute hpath,
    ← restParts_absolute hother]
  constructor
  · intro hequal
    exact (render_injective (resolved_absolute hpath) (resolved_absolute hother) hequal).2
  · exact congrArg (render true)

/-- Absolute paths are normalised to canonical ones, which agree exactly if the paths have the same
lexical resolution. -/
theorem absolute_canonical (path other : ByteString) (hpath : path.head? = some slash)
    (hother : other.head? = some slash) :
    Canonical (gzNormalizeDocumentPath path) ∧ Canonical (gzNormalizeDocumentPath other) ∧
      (gzNormalizeDocumentPath path = gzNormalizeDocumentPath other ↔
        lexicalResolution path = lexicalResolution other) :=
  ⟨canonical_of_absolute hpath, canonical_of_absolute hother, normalize_eq_iff hpath hother⟩

/-- Two spellings of one path. -/
theorem absolute_canonical_spellings :
    gzNormalizeDocumentPath (ascii "/game/./scripts//player.zig") =
      gzNormalizeDocumentPath (ascii "/game/a/../scripts/player.zig/") :=
  (absolute_canonical (ascii "/game/./scripts//player.zig")
    (ascii "/game/a/../scripts/player.zig/") rfl rfl).2.2.mpr (by decide)

/-! ### Normalising twice -/

theorem not_infix_render {rooted : Bool} {parts : List ByteString}
    (hresolved : Resolved rooted parts) : ¬ ascii "//" <:+: render rooted parts := by
  rintro ⟨before, behind, hslashes⟩
  -- Two separators in a row have an empty piece between them, which is not the first piece.
  have hpieces : (render rooted parts).splitOn slash =
      before.splitOn slash ++ [] :: behind.splitOn slash := by
    rw [← hslashes, List.append_assoc]
    change (before ++ slash :: slash :: behind).splitOn slash = _
    rw [List.splitOn_append_cons_self, splitOn_cons_self]
  obtain ⟨first, rest, hbefore⟩ := exists_splitOn_cons slash before
  obtain ⟨other, others, hbehind⟩ := exists_splitOn_cons slash behind
  rw [hbefore, hbehind, List.cons_append] at hpieces
  have hsegments := hresolved.isSegment
  have hjoined : parts ≠ [] → ([slash].intercalate parts).splitOn slash = parts :=
    List.splitOn_intercalate slash fun part hpart ↦ (hsegments part hpart).plain
  by_cases hnone : parts = []
  · have hlength := congrArg List.length hpieces
    rw [List.length_cons, List.length_append, List.length_cons, List.length_cons] at hlength
    have hshort : ((render rooted parts).splitOn slash).length ≤ 2 := by
      rw [hnone]
      cases rooted <;> decide
    omega
  · have hempty : [] ∈ parts := by
      cases rooted with
      | true =>
        rw [render, if_pos rfl, splitOn_cons_self, hjoined hnone] at hpieces
        rw [(List.cons.inj hpieces).2]
        exact List.mem_append_right _ List.mem_cons_self
      | false =>
        rw [render, if_neg Bool.false_ne_true, if_neg hnone, hjoined hnone] at hpieces
        rw [hpieces]
        exact List.mem_cons_of_mem _ (List.mem_append_right _ List.mem_cons_self)
    exact (hsegments [] hempty).nonempty rfl

/-- Without two separators in a row there is no scheme. -/
theorem splitScheme_of_not_infix {path : ByteString} (hslashes : ¬ ascii "//" <:+: path) :
    splitScheme path = ([], path) := by
  have hfile : ¬ (ascii "file://").isPrefixOf path := by
    intro hprefix
    have hinside : ascii "//" <:+: ascii "file://" := ⟨ascii "file:", [], rfl⟩
    exact hslashes (hinside.trans (List.isPrefixOf_iff_prefix.mp hprefix).isInfix)
  rw [splitScheme, if_neg hfile]
  cases hfind : find (ascii "://") path with
  | none => rfl
  | some schemeEnd =>
    have hinside : ascii "//" <:+: ascii "://" := ⟨ascii ":", [], rfl⟩
    have hdrop := (prefix_of_find hfind).isInfix
    exact absurd (hinside.trans (hdrop.trans (List.drop_suffix _ _).isInfix)) hslashes

theorem splitScheme_normalizeRest (work : ByteString) :
    splitScheme (normalizeRest work) = ([], normalizeRest work) :=
  splitScheme_of_not_infix (not_infix_render (resolved_restParts work))

/-- The name of a scheme that is kept. -/
structure IsScheme (scheme : ByteString) : Prop where
  nonempty : scheme ≠ []
  characters : (scheme.mapIdx schemeCharacter).all fun ok ↦ ok
  notFile : scheme ≠ ascii "file"

theorem schemeCharacter_colon (index : ℕ) : schemeCharacter index ':'.toUInt8 = false := by
  refine decide_eq_false ?_
  rintro (hlower | hupper | ⟨-, hother⟩)
  · exact absurd hlower (by decide)
  · exact absurd hupper (by decide)
  · exact absurd hother (by decide)

theorem IsScheme.no_colon {scheme : ByteString} (hscheme : IsScheme scheme) :
    ':'.toUInt8 ∉ scheme := by
  intro hmem
  obtain ⟨index, hindex, hcolon⟩ := List.mem_iff_getElem.mp hmem
  have hok : schemeCharacter index scheme[index] ∈ scheme.mapIdx schemeCharacter := by
    rw [List.mem_mapIdx]
    exact ⟨index, hindex, rfl⟩
  have htrue := List.all_eq_true.mp hscheme.characters _ hok
  rw [hcolon, schemeCharacter_colon] at htrue
  exact Bool.false_ne_true htrue

/-- The scheme is what is in front of the first colon. -/
theorem takeWhile_scheme {scheme : ByteString} (hcolon : ':'.toUInt8 ∉ scheme)
    (rest : ByteString) :
    (scheme ++ ascii "://" ++ rest).takeWhile (· ≠ ':'.toUInt8) = scheme := by
  rw [List.append_assoc, List.takeWhile_append_of_pos]
  · exact List.append_nil scheme
  · exact fun c hc ↦ decide_eq_true fun h ↦ hcolon (h ▸ hc)

theorem splitScheme_of_isScheme {scheme : ByteString} (hscheme : IsScheme scheme)
    (rest : ByteString) :
    splitScheme (scheme ++ ascii "://" ++ rest) =
      (scheme ++ ascii "://", if rest.head? = some slash then rest.drop 1 else rest) := by
  have hcolon := hscheme.no_colon
  have hfile : ¬ (ascii "file://").isPrefixOf (scheme ++ ascii "://" ++ rest) := by
    intro hprefix
    obtain ⟨behind, hbehind⟩ := List.isPrefixOf_iff_prefix.mp hprefix
    have hnames := congrArg (List.takeWhile (· ≠ ':'.toUInt8)) hbehind
    rw [takeWhile_scheme hcolon] at hnames
    exact hscheme.notFile hnames.symm
  have hfind : find (ascii "://") (scheme ++ ascii "://" ++ rest) = some scheme.length := by
    rw [List.append_assoc]
    exact find_append_of_not_mem hcolon _
  have hlength : (scheme ++ ascii "://").length = scheme.length + 3 := List.length_append
  have hname : (scheme ++ ascii "://" ++ rest).take scheme.length = scheme := by
    rw [List.append_assoc, List.take_left]
  rw [splitScheme, if_neg hfile, hfind]
  dsimp only
  rw [hname, if_pos ⟨List.length_pos_iff.mpr hscheme.nonempty, hscheme.characters⟩, ← hlength,
    List.take_left, List.drop_left]

/-- What is in front of a path is nothing or a scheme. -/
theorem splitScheme_cases (path : ByteString) :
    (splitScheme path).1 = [] ∨
      ∃ scheme rest, IsScheme scheme ∧ path = scheme ++ ascii "://" ++ rest := by
  by_cases hfile : (ascii "file://").isPrefixOf path
  · rw [splitScheme, if_pos hfile]
    dsimp only
    split_ifs <;> exact Or.inl rfl
  · cases hfind : find (ascii "://") path with
    | none =>
      rw [splitScheme, if_neg hfile, hfind]
      exact Or.inl rfl
    | some schemeEnd =>
      by_cases hvalid : 0 < schemeEnd ∧
          ((path.take schemeEnd).mapIdx schemeCharacter).all (fun ok ↦ ok)
      · obtain ⟨rest, hrest⟩ := prefix_of_find hfind
        have hpath : path = path.take schemeEnd ++ ascii "://" ++ rest := by
          rw [List.append_assoc, hrest, List.take_append_drop]
        refine Or.inr ⟨path.take schemeEnd, rest, ⟨?_, hvalid.2, ?_⟩, hpath⟩
        · intro hempty
          have hfits := find_fits (by decide) hfind
          have hlength := congrArg List.length hempty
          rw [List.length_take, List.length_nil] at hlength
          omega
        · intro hname
          refine hfile (List.isPrefixOf_iff_prefix.mpr ⟨rest, ?_⟩)
          rw [hpath, hname]
          rfl
      · rw [splitScheme, if_neg hfile, hfind]
        dsimp only
        rw [if_neg hvalid]
        exact Or.inl rfl

theorem isRooted_normalizeRest (work : ByteString) :
    isRooted (normalizeRest work) = isRooted work := isRooted_render (resolved_restParts work)

/-- Behind a scheme only the separators decide. -/
theorem normalize_scheme {scheme : ByteString} (hscheme : IsScheme scheme) (rest : ByteString) :
    gzNormalizeDocumentPath (scheme ++ ascii "://" ++ rest) = scheme ++ ascii "://" ++
      normalizeRest (if rest.head? = some slash then rest.drop 1 else rest) := by
  rw [gzNormalizeDocumentPath_eq, splitScheme_of_isScheme hscheme]

/-- A normalised path that is rooted loses its root behind a scheme. -/
theorem normalizeRest_drop_ne {work : ByteString} (hrooted : isRooted work = true) :
    normalizeRest ((normalizeRest work).drop 1) ≠ normalizeRest work := by
  intro hequal
  have hresolved := resolved_restParts work
  have hunrooted : isRooted ((normalizeRest work).drop 1) = false := by
    rw [normalizeRest, hrooted, render, if_pos rfl]
    change isRooted ([slash].intercalate (restParts work)) = false
    cases hparts : restParts work with
    | nil => rfl
    | cons part parts =>
      have hpart := hresolved.isSegment part (hparts ▸ List.mem_cons_self)
      obtain ⟨c, rest, hjoined, hne, -⟩ := head?_intercalate hpart parts
      rw [hjoined]
      exact decide_eq_false fun h ↦ hne (Option.some.inj h)
  rw [← isRooted_normalizeRest, hequal, isRooted_normalizeRest, hrooted] at hunrooted
  exact Bool.false_ne_true hunrooted.symm

/-- Normalising a second time changes nothing, unless the path has two separators or more behind a
scheme. -/
theorem normalize_idempotent_iff (path : ByteString) :
    gzNormalizeDocumentPath (gzNormalizeDocumentPath path) = gzNormalizeDocumentPath path ↔
      ¬ ∃ scheme rest, IsScheme scheme ∧ path = scheme ++ ascii "://" ++ ascii "//" ++ rest := by
  rcases splitScheme_cases path with hnone | ⟨scheme, rest, hscheme, rfl⟩
  · have hplain : gzNormalizeDocumentPath path = normalizeRest (splitScheme path).2 := by
      rw [gzNormalizeDocumentPath_eq, hnone, List.nil_append]
    refine iff_of_true ?_ ?_
    · rw [hplain, gzNormalizeDocumentPath_eq, splitScheme_normalizeRest, List.nil_append,
        normalizeRest_idem]
    · rintro ⟨scheme, rest, hscheme, rfl⟩
      rw [List.append_assoc, splitScheme_of_isScheme hscheme] at hnone
      exact List.append_ne_nil_of_left_ne_nil hscheme.nonempty _ hnone
  · rw [normalize_scheme hscheme, normalize_scheme hscheme, List.append_cancel_left_eq]
    by_cases hrooted : isRooted (if rest.head? = some slash then rest.drop 1 else rest) = true
    · have hhead : (normalizeRest (if rest.head? = some slash then rest.drop 1
          else rest)).head? = some slash :=
        of_decide_eq_true ((isRooted_normalizeRest _).trans hrooted)
      rw [if_pos hhead]
      refine iff_of_false (normalizeRest_drop_ne hrooted) (not_not_intro ?_)
      have hsecond := of_decide_eq_true hrooted
      split_ifs at hsecond with hfirst
      · obtain ⟨rest, rfl⟩ := List.head?_eq_some_iff.mp hfirst
        obtain ⟨rest, hrest⟩ := List.head?_eq_some_iff.mp hsecond
        rw [List.drop_one, List.tail_cons] at hrest
        rw [hrest]
        exact ⟨scheme, rest, hscheme, (List.append_assoc _ (ascii "//") rest).symm⟩
      · exact absurd hsecond hfirst
    · have hhead : ¬ (normalizeRest (if rest.head? = some slash then rest.drop 1
          else rest)).head? = some slash :=
        fun h ↦ hrooted ((isRooted_normalizeRest _).symm.trans (decide_eq_true h))
      rw [if_neg hhead]
      refine iff_of_true (normalizeRest_idem _) ?_
      rintro ⟨other, behind, hother, hpath⟩
      have hsplit := congrArg splitScheme hpath
      rw [List.append_assoc _ (ascii "//"), splitScheme_of_isScheme hscheme,
        splitScheme_of_isScheme hother] at hsplit
      refine hrooted ?_
      rw [(Prod.mk.inj hsplit).2]
      rfl

theorem resource_path_not_idempotent :
    gzNormalizeDocumentPath (ascii "res:////x") = ascii "res:///x" ∧
      gzNormalizeDocumentPath (gzNormalizeDocumentPath (ascii "res:////x")) = ascii "res://x" ∧
      gzNormalizeDocumentPath (gzNormalizeDocumentPath (ascii "res:////x")) ≠
        gzNormalizeDocumentPath (ascii "res:////x") := by
  decide

end Gzscript.Diagnostics.CanonicalPath
