import Gzscript.Build.Dependencies

/-!
# What the dependency fingerprint covers

`DependsOn` is the dependency relation that the operands of a kind span from a script. The loop of
`append_dependencies` follows the operands of `NamesSource`, while the compiler also reads the files
that bare `.zon` operands name, as in `@import("data.zon")`: `NamesFile`.

When it succeeds, the loop has recorded every file it follows exactly once
(`exists_order_of_appendDependencies`), and it succeeds when all of them can be read
(`exists_ok_of_allReadable`). The fingerprint holds a record of everything the script depends on
exactly when no bare `.zon` operand names a file that is not imported in another way as well
(`fingerprintComplete_iff`); `bareZon_not_recorded` is a script whose fingerprint misses its data.
-/

set_option autoImplicit false
set_option relaxedAutoImplicit false

namespace Gzscript.Build.Fingerprint

open Library.Bytes Library.Worklist SourceScan Dependencies

variable (godot : Godot) (tree : SourceTree)

/-! ### What a script depends on -/

/-- An operand that names a file: any operand of `@embedFile`, and one of `@import` that contains a
slash or ends in `.zig` or `.zon`. -/
def NamesFile (operand : SourceDependency) : Prop :=
  operand.isImport = false ∨ '/' ∈ operand.path.toList ∨
    ".zig".toList <:+ operand.path.toList ∨ ".zon".toList <:+ operand.path.toList

/-- The same without `.zon`. -/
def NamesSource (operand : SourceDependency) : Prop :=
  operand.isImport = false ∨ '/' ∈ operand.path.toList ∨ ".zig".toList <:+ operand.path.toList

/-- An operand of `@import` that names a `.zon` file and contains no slash. -/
def BareZon (operand : SourceDependency) : Prop :=
  operand.isImport = true ∧ '/' ∉ operand.path.toList ∧ ".zon".toList <:+ operand.path.toList

/-- An imported file has an operand which names a file. -/
def Depends (names : SourceDependency → Prop) (parent child : SourceDependency) : Prop :=
  parent.isImport = true ∧ ∃ operands operand,
    sourceDependencies (getFileAsString godot tree parent.path) = some operands ∧
      operand ∈ operands ∧ names operand ∧ child = target godot parent.path operand

/-- What a script depends on, directly or through the files it imports. -/
def DependsOn (names : SourceDependency → Prop) : SourceDependency → SourceDependency → Prop :=
  Relation.ReflTransGen (Depends godot tree names)

theorem skipped_eq_false_iff (operand : SourceDependency) :
    skipped godot operand = false ↔ NamesSource operand := by
  rw [NamesSource, ← godot.getExtension_zig, skipped]
  by_cases hextension : godot.getExtension operand.path = "zig"
  · simp [hextension]
  · cases himport : operand.isImport <;> simp [hextension]

theorem edge_iff (parent child : SourceDependency) :
    (dependencySearch godot tree).Edge parent child ↔
      Depends godot tree NamesSource parent child := by
  change (∃ nodes, followed godot tree parent = .ok nodes ∧ child ∈ nodes) ↔ _
  rw [followed]
  by_cases himport : parent.isImport = true
  · rw [if_pos himport]
    cases hoperands : sourceDependencies (getFileAsString godot tree parent.path) with
    | none => simp [Depends, hoperands]
    | some operands =>
      simp only [Except.ok.injEq, exists_eq_left', List.mem_map, List.mem_filter, Bool.not_eq_true',
        skipped_eq_false_iff]
      constructor
      · rintro ⟨operand, ⟨hmember, hnames⟩, rfl⟩
        exact ⟨himport, operands, operand, hoperands, hmember, hnames, rfl⟩
      · rintro ⟨-, read, operand, hread, hmember, hnames, rfl⟩
        obtain rfl := Option.some.inj (hoperands.symm.trans hread)
        exact ⟨operand, ⟨hmember, hnames⟩, rfl⟩
  · simp [Depends, himport]

theorem reaches_iff (parent child : SourceDependency) :
    (dependencySearch godot tree).Reaches parent child ↔
      DependsOn godot tree NamesSource parent child := by
  have hedges : (dependencySearch godot tree).Edge = Depends godot tree NamesSource := by
    funext parent child
    exact propext (edge_iff godot tree parent child)
  rw [Search.Reaches, DependsOn, hedges]

/-- The pairs of a file and a kind, besides the script, that the script depends on. -/
def Required (root dependency : SourceDependency) : Prop :=
  dependency ≠ root ∧ (content tree dependency.path).isSome ∧
    DependsOn godot tree NamesFile root dependency

/-- The fingerprint holds exactly one record for every required pair. -/
def FingerprintComplete (sourcePath initial fingerprint : String) : Prop :=
  ∃ order : List SourceDependency, order.Nodup ∧
    (∀ dependency, dependency ∈ order ↔ Required godot tree (rootOf godot sourcePath) dependency) ∧
    fingerprint = records godot tree initial order

/-- Every file that the script depends on without bare `.zon` operands is there, and its operands
can be read. -/
def AllReadable (root : SourceDependency) : Prop :=
  ∀ dependency, DependsOn godot tree NamesSource root dependency →
    (dependency = root ∨ (content tree dependency.path).isSome) ∧
      (dependency.isImport = true →
        (sourceDependencies (getFileAsString godot tree dependency.path)).isSome)

/-- Every bare `.zon` operand in such a file that names a file of the tree names one that the script
depends on otherwise. -/
def ZonCovered (root : SourceDependency) : Prop :=
  ∀ parent operands operand, DependsOn godot tree NamesSource root parent →
    parent.isImport = true →
    sourceDependencies (getFileAsString godot tree parent.path) = some operands →
    operand ∈ operands → BareZon operand →
    (content tree (target godot parent.path operand).path).isSome →
    DependsOn godot tree NamesSource root (target godot parent.path operand)

/-! ### What the loop records -/

variable {godot tree}

theorem Depends.mono {names names' : SourceDependency → Prop}
    (hnames : ∀ operand, names operand → names' operand) {parent child : SourceDependency}
    (h : Depends godot tree names parent child) : Depends godot tree names' parent child := by
  obtain ⟨himport, operands, operand, hoperands, hmember, hname, hchild⟩ := h
  exact ⟨himport, operands, operand, hoperands, hmember, hnames operand hname, hchild⟩

theorem NamesSource.namesFile {operand : SourceDependency} (h : NamesSource operand) :
    NamesFile operand := by
  rcases h with hembed | hslash | hzig
  · exact .inl hembed
  · exact .inr (.inl hslash)
  · exact .inr (.inr (.inl hzig))

theorem dependsOn_namesFile {parent child : SourceDependency}
    (h : DependsOn godot tree NamesSource parent child) :
    DependsOn godot tree NamesFile parent child := by
  induction h with
  | refl => exact .refl
  | tail _ hedge ih => exact ih.tail (hedge.mono fun _ ↦ NamesSource.namesFile)

/-- The script is visited first, without a record. -/
theorem run_root (root : SourceDependency) (fingerprint : String) :
    (dependencySearch godot tree).run [] ⟨true, fingerprint⟩ [root] =
      (followed godot tree root).bind fun nodes ↦
        (dependencySearch godot tree).run [visitKey root] ⟨false, fingerprint⟩ (push [] nodes) := by
  rw [Search.run_fresh (by simp)]
  rfl

theorem followed_ok {dependency : SourceDependency} {nodes : List SourceDependency}
    (h : followed godot tree dependency = .ok nodes) (himport : dependency.isImport = true) :
    (sourceDependencies (getFileAsString godot tree dependency.path)).isSome := by
  rw [followed, if_pos himport] at h
  cases hoperands : sourceDependencies (getFileAsString godot tree dependency.path) with
  | none =>
    rw [hoperands] at h
    cases h
  | some operands => rfl

/-- A loop that succeeds has recorded what the script depends on by the operands it follows. -/
theorem exists_order_of_appendDependencies {sourcePath initial fingerprint : String}
    (h : appendDependencies godot tree sourcePath initial = .ok fingerprint) :
    AllReadable godot tree (rootOf godot sourcePath) ∧
      ∃ order : List SourceDependency, order.Nodup ∧
        (∀ dependency, dependency ∈ order ↔ dependency ≠ rootOf godot sourcePath ∧
          DependsOn godot tree NamesSource (rootOf godot sourcePath) dependency) ∧
        (∀ dependency ∈ order, (content tree dependency.path).isSome) ∧
        fingerprint = records godot tree initial order := by
  rw [appendDependencies, run_root] at h
  cases hroot : followed godot tree (rootOf godot sourcePath) with
  | error error =>
    rw [hroot] at h
    cases h
  | ok nodes =>
    rw [hroot] at h
    change Except.map LoopState.fingerprint ((dependencySearch godot tree).run _ _ _) = _ at h
    cases hrun : (dependencySearch godot tree).run [visitKey (rootOf godot sourcePath)]
        ⟨false, initial⟩ (push [] nodes) with
    | error error =>
      rw [hrun] at h
      cases h
    | ok final =>
      rw [hrun] at h
      obtain ⟨order, hexplored, hrecorded⟩ := Search.exists_order_of_run hrun
      obtain ⟨rfl, hcontent⟩ := recordAll_records godot tree hrecorded
      have hmem (dependency : SourceDependency) :
          dependency ∈ order ↔ dependency ≠ rootOf godot sourcePath ∧
            DependsOn godot tree NamesSource (rootOf godot sourcePath) dependency := by
        rw [← reaches_iff]
        exact hexplored.mem_iff hroot dependency
      refine ⟨fun dependency hdepends ↦ ?_, order, hexplored.nodup, hmem, hcontent,
        (Except.ok.inj h).symm⟩
      by_cases hisroot : dependency = rootOf godot sourcePath
      · subst hisroot
        exact ⟨.inl rfl, followed_ok hroot⟩
      · have hvisited := (hmem dependency).mpr ⟨hisroot, hdepends⟩
        obtain ⟨children, hread⟩ := hexplored.read dependency hvisited
        exact ⟨.inr (hcontent dependency hvisited), followed_ok hread⟩

/-- Files that can be read are read: the loop succeeds. -/
theorem exists_ok_of_allReadable {sourcePath : String}
    (hreadable : AllReadable godot tree (rootOf godot sourcePath)) (initial : String) :
    ∃ fingerprint, appendDependencies godot tree sourcePath initial = .ok fingerprint := by
  have hfollowed (dependency : SourceDependency) (error : String)
      (hdepends : DependsOn godot tree NamesSource (rootOf godot sourcePath) dependency) :
      followed godot tree dependency ≠ .error error := by
    rw [followed]
    split
    next himport =>
      obtain ⟨operands, hoperands⟩ :=
        Option.isSome_iff_exists.mp ((hreadable dependency hdepends).2 himport)
      rw [hoperands]
      simp
    next => simp
  cases hresult : appendDependencies godot tree sourcePath initial with
  | ok fingerprint => exact ⟨fingerprint, rfl⟩
  | error error =>
    exfalso
    rw [appendDependencies, run_root] at hresult
    cases hroot : followed godot tree (rootOf godot sourcePath) with
    | error error => exact hfollowed _ error .refl hroot
    | ok nodes =>
      rw [hroot] at hresult
      change Except.map LoopState.fingerprint ((dependencySearch godot tree).run _ _ _) = _
        at hresult
      cases hrun : (dependencySearch godot tree).run [visitKey (rootOf godot sourcePath)]
          ⟨false, initial⟩ (push [] nodes) with
      | ok final =>
        rw [hrun] at hresult
        cases hresult
      | error late =>
        obtain ⟨failed, ⟨start, hstart, hreaches⟩, hunmarked, hfailed⟩ :=
          Search.exists_failure_of_run hrun
        have hchild : start ∈ nodes := by simpa [push] using hstart
        have hedge : (dependencySearch godot tree).Edge (rootOf godot sourcePath) start :=
          ⟨nodes, hroot, hchild⟩
        have hdepends : DependsOn godot tree NamesSource (rootOf godot sourcePath) failed :=
          (reaches_iff godot tree _ _).mp (.head hedge hreaches)
        rcases hfailed with hread | ⟨before, current, hbefore, hrecord⟩
        · exact hfollowed failed late hdepends hread
        · obtain ⟨rfl, -⟩ := recordAll_records godot tree hbefore
          have hne : failed ≠ rootOf godot sourcePath := by
            rintro rfl
            exact hunmarked List.mem_cons_self
          have hcontent := ((hreadable failed hdepends).1).resolve_left hne
          have hhash : getSha256 godot tree failed.path ≠ "" := by
            rw [Ne, getSha256_eq_empty_iff]
            exact Option.isSome_iff_ne_none.mp hcontent
          simp [dependencySearch, recordDependency, hhash] at hrecord

/-! ### Completeness -/

/-- When bare `.zon` operands add nothing, the loop follows every file the script depends on. -/
theorem dependsOn_namesSource {root dependency : SourceDependency}
    (hcovered : ZonCovered godot tree root)
    (hdepends : DependsOn godot tree NamesFile root dependency) :
    DependsOn godot tree NamesSource root dependency ∨ content tree dependency.path = none := by
  induction hdepends with
  | refl => exact .inl .refl
  | @tail parent child _ hedge ih =>
    obtain ⟨himport, operands, operand, hoperands, hmember, hname, rfl⟩ := hedge
    have hparent : DependsOn godot tree NamesSource root parent := by
      -- a file that is not there has no operands
      refine ih.resolve_right fun hmissing ↦ ?_
      rw [getFileAsString_of_none godot tree hmissing, sourceDependencies_empty] at hoperands
      cases hoperands
      cases hmember
    by_cases hsource : NamesSource operand
    · exact .inl (hparent.tail ⟨himport, operands, operand, hoperands, hmember, hsource, rfl⟩)
    · have hzon : BareZon operand := by
        obtain ⟨hnotembed, hnoslash, hnotzig⟩ : operand.isImport ≠ false ∧
            '/' ∉ operand.path.toList ∧ ¬ ".zig".toList <:+ operand.path.toList := by
          simpa only [NamesSource, not_or] using hsource
        refine ⟨by simpa using hnotembed, hnoslash, ?_⟩
        exact ((hname.resolve_left hnotembed).resolve_left hnoslash).resolve_left hnotzig
      by_cases hcontent : (content tree (target godot parent.path operand).path).isSome
      · exact .inl
          (hcovered parent operands operand hparent himport hoperands hmember hzon hcontent)
      · exact .inr (Option.not_isSome_iff_eq_none.mp hcontent)

/-- A complete fingerprint leaves nothing to bare `.zon` operands: a file that only they name would
have made it longer. -/
theorem zonCovered_of_complete {sourcePath initial fingerprint : String}
    (hresult : appendDependencies godot tree sourcePath initial = .ok fingerprint)
    (hcomplete : FingerprintComplete godot tree sourcePath initial fingerprint) :
    ZonCovered godot tree (rootOf godot sourcePath) := by
  obtain ⟨-, order, hnodup, hmem, hcontents, hrecords⟩ :=
    exists_order_of_appendDependencies hresult
  obtain ⟨required, -, hrequired, hrequiredRecords⟩ := hcomplete
  intro parent operands operand hparent himport hoperands hmember hzon hcontent
  by_contra hmissed
  have hsubset : ∀ dependency ∈ order, dependency ∈ required := by
    intro dependency hdependency
    obtain ⟨hne, hdepends⟩ := (hmem dependency).mp hdependency
    exact (hrequired dependency).mpr
      ⟨hne, hcontents dependency hdependency, dependsOn_namesFile hdepends⟩
  have hextra : target godot parent.path operand ∈ required := by
    refine (hrequired _).mpr ⟨fun hroot ↦ hmissed (hroot ▸ .refl), hcontent, ?_⟩
    exact (dependsOn_namesFile hparent).tail
      ⟨himport, operands, operand, hoperands, hmember, .inr (.inr (.inr hzon.2.2)), rfl⟩
  have hmissing : target godot parent.path operand ∉ order := fun hvisited ↦
    hmissed ((hmem _).mp hvisited).2
  exact records_ne godot tree hnodup hsubset hextra hmissing initial
    (hrecords.symm.trans hrequiredRecords)

/-- Whenever the loop succeeds the fingerprint is complete: this holds exactly when bare `.zon`
operands add nothing to what the loop follows, or it meets a file that it cannot read. -/
theorem fingerprintComplete_iff (godot : Godot) (tree : SourceTree) (sourcePath initial : String) :
    (∀ fingerprint, appendDependencies godot tree sourcePath initial = .ok fingerprint →
        FingerprintComplete godot tree sourcePath initial fingerprint) ↔
      (AllReadable godot tree (rootOf godot sourcePath) →
        ZonCovered godot tree (rootOf godot sourcePath)) := by
  constructor
  · intro hcomplete hreadable
    obtain ⟨fingerprint, hresult⟩ := exists_ok_of_allReadable hreadable initial
    exact zonCovered_of_complete hresult (hcomplete fingerprint hresult)
  · intro hcovered fingerprint hresult
    obtain ⟨hreadable, order, hnodup, hmem, hcontents, hrecords⟩ :=
      exists_order_of_appendDependencies hresult
    refine ⟨order, hnodup, fun dependency ↦ ?_, hrecords⟩
    rw [hmem]
    constructor
    · rintro ⟨hne, hdepends⟩
      exact ⟨hne, hcontents dependency ((hmem dependency).mpr ⟨hne, hdepends⟩),
        dependsOn_namesFile hdepends⟩
    · rintro ⟨hne, hcontent, hdepends⟩
      have hfollowed := dependsOn_namesSource (hcovered hreadable) hdepends
      exact ⟨hne, hfollowed.resolve_right (Option.isSome_iff_ne_none.mp hcontent)⟩

/-! ### A script with data -/

def sampleScript : ByteString := ascii "const data = @import(\"data.zon\");"

def sampleData : ByteString := ascii "3"

/-- A script and the data it imports. -/
def sampleTree : SourceTree :=
  [("/project/main.zig", sampleScript), ("/project/data.zon", sampleData)]

/-- What follows the last dot of a path, if no slash does. -/
def sampleExtension (path : List Char) : List Char :=
  let tail := path.reverse.takeWhile (· ≠ '.')
  if '.' ∈ path ∧ '/' ∉ tail then tail.reverse else []

theorem sampleExtension_zig (path : List Char) :
    sampleExtension path = "zig".toList ↔ ".zig".toList <:+ path := by
  have hmember : '.' ∈ path ↔ '.' ∈ path.reverse := List.mem_reverse.symm
  simp only [← List.reverse_prefix, sampleExtension, hmember]
  generalize path.reverse = reversed
  constructor
  · intro h
    split at h
    next hdot =>
      have htail : reversed.takeWhile (· ≠ '.') = "giz".toList := by
        rw [← List.reverse_inj, h]
        rfl
      have hsplit : reversed.takeWhile (· ≠ '.') ++ reversed.dropWhile (· ≠ '.') = reversed :=
        List.takeWhile_append_dropWhile
      rw [htail] at hsplit
      cases hrest : reversed.dropWhile (· ≠ '.') with
      | nil =>
        rw [hrest] at hsplit
        rw [← hsplit] at hdot
        exact absurd hdot.1 (by decide)
      | cons c rest =>
        have hne : reversed.dropWhile (· ≠ '.') ≠ [] := by
          rw [hrest]
          nofun
        have hhead := List.head_dropWhile_not _ hne
        simp only [hrest, List.head_cons] at hhead
        have hc : c = '.' := by simpa using hhead
        rw [← hsplit, hrest, hc]
        exact ⟨rest, rfl⟩
    next => cases h
  · rintro ⟨rest, rfl⟩
    simp

/-- The engine on the paths and the files of the sample. -/
def sampleGodot : Godot where
  simplifyPath path := path
  pathJoin directory file := directory ++ "/" ++ file
  getBaseDir path := String.ofList ((path.toList.reverse.dropWhile (· ≠ '/')).drop 1).reverse
  getExtension path := String.ofList (sampleExtension path.toList)
  getExtension_zig path := by
    rw [← sampleExtension_zig, ← String.toList_inj, String.toList_ofList]
  decode bytes := String.ofList (bytes.map fun byte ↦ Char.ofNat byte.toNat)
  sha256 bytes :=
    if bytes = sampleScript then
      "d354d4ff69a3b57b2ee809393807f6ec0b8fe7f64f05467afc8067083e3110c9"
    else
      "4e07408562bedb8b60ce05c1decfe3ad16b72230967de01f640b7e4729b49fce"
  sha256_ne bytes := by split <;> decide

theorem appendDependencies_sample :
    appendDependencies sampleGodot sampleTree "/project/main.zig" "" = .ok "" := by
  have hfollowed : followed sampleGodot sampleTree (rootOf sampleGodot "/project/main.zig") =
      .ok [] := by decide +kernel
  rw [appendDependencies, run_root, hfollowed]
  change Except.map _ (Search.run _ _ _ []) = _
  rw [Search.run_nil]
  rfl

/-- The fingerprint of a script has no record of the data that it imports. -/
theorem bareZon_not_recorded :
    ¬ ∀ fingerprint, appendDependencies sampleGodot sampleTree "/project/main.zig" "" =
        .ok fingerprint →
      FingerprintComplete sampleGodot sampleTree "/project/main.zig" "" fingerprint := by
  intro hcomplete
  obtain ⟨order, -, hrequired, hrecords⟩ := hcomplete "" appendDependencies_sample
  have hdata : Required sampleGodot sampleTree (rootOf sampleGodot "/project/main.zig")
      ⟨"/project/data.zon", true⟩ := by
    refine ⟨by decide, by decide +kernel, .single ⟨rfl, [⟨"data.zon", true⟩], ⟨"data.zon", true⟩,
      by decide +kernel, List.mem_cons_self, ?_, by decide +kernel⟩⟩
    exact .inr (.inr (.inr (by decide)))
  exact records_ne sampleGodot sampleTree List.nodup_nil (by simp) ((hrequired _).mpr hdata)
    (by simp) "" hrecords

end Gzscript.Build.Fingerprint
