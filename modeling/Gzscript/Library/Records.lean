import Mathlib.Data.List.Basic
import Mathlib.Data.Nat.Notation

/-!
# Records that are written one after the other

Two ways to write a sequence of records into one text, and what of the records the text determines.

A value behind its length can be read back whatever it is, so records of this kind with the same
labels are determined by their text (`recordsText_inj`). A label in front of an ending can be read
back where it holds no ending itself (`joined_inj`). Where labels do hold endings, the text
determines the parts only that remain when every label is cut at them (`joined_eq_iff`).
-/

set_option autoImplicit false
set_option relaxedAutoImplicit false

namespace Gzscript.Library.Records

/-! ### Values behind their length -/

/-- A value behind its length in decimal digits and a colon. -/
def measured (value : List Char) : List Char := Nat.toDigits 10 value.length ++ ':' :: value

/-- A label, and a value behind its length. -/
def record (label value : List Char) : List Char := label ++ ':' :: (measured value ++ ['\n'])

def recordsText (records : List (List Char × List Char)) : List Char :=
  records.flatMap fun entry ↦ record entry.1 entry.2

/-- What stands in front of the first mark, and what follows it. -/
theorem append_mark_inj {α : Type} {mark : α} {first second rest other : List α}
    (hfirst : mark ∉ first) (hsecond : mark ∉ second)
    (h : first ++ mark :: rest = second ++ mark :: other) : first = second ∧ rest = other := by
  induction first generalizing second with
  | nil =>
    rcases second with _ | ⟨character, second⟩
    · exact ⟨rfl, (List.cons.inj h).2⟩
    · exact absurd (List.mem_cons.mpr (.inl (List.cons.inj h).1)) hsecond
  | cons character first ih =>
    rcases second with _ | ⟨head, second⟩
    · exact absurd (List.mem_cons.mpr (.inl (List.cons.inj h).1.symm)) hfirst
    · obtain ⟨rfl, htail⟩ := List.cons.inj h
      obtain ⟨rfl, hrest⟩ := ih (fun hmem ↦ hfirst (List.mem_cons_of_mem character hmem))
        (fun hmem ↦ hsecond (List.mem_cons_of_mem character hmem)) htail
      exact ⟨rfl, hrest⟩

theorem colon_not_mem_digits (number : ℕ) : ':' ∉ Nat.toDigits 10 number := by
  intro hmem
  have hdigit := Nat.isDigit_of_mem_toDigits (by decide) (by decide) hmem
  exact absurd hdigit (by decide)

theorem toDigits_inj {first second : ℕ} (h : Nat.toDigits 10 first = Nat.toDigits 10 second) :
    first = second := by
  rw [← @Nat.ofDigitChars_ten_toDigits first, h, Nat.ofDigitChars_ten_toDigits]

/-- The value and what follows it can be read back. -/
theorem measured_append_inj {value other rest more : List Char}
    (h : measured value ++ rest = measured other ++ more) : value = other ∧ rest = more := by
  simp only [measured, List.append_assoc, List.cons_append] at h
  obtain ⟨hdigits, htail⟩ :=
    append_mark_inj (colon_not_mem_digits _) (colon_not_mem_digits _) h
  exact List.append_inj htail (toDigits_inj hdigits)

/-- Records with the same labels are determined by their text. -/
theorem recordsText_inj {records others : List (List Char × List Char)}
    (hlabels : records.map Prod.fst = others.map Prod.fst)
    (h : recordsText records = recordsText others) : records = others := by
  induction records generalizing others with
  | nil => exact (List.map_eq_nil_iff.mp hlabels.symm).symm
  | cons entry records ih =>
    obtain ⟨label, value⟩ := entry
    rcases others with _ | ⟨⟨otherLabel, other⟩, others⟩
    · exact absurd hlabels (List.cons_ne_nil _ _)
    obtain ⟨rfl, hrest⟩ : label = otherLabel ∧ records.map Prod.fst = others.map Prod.fst :=
      List.cons.inj hlabels
    simp only [recordsText, List.flatMap_cons, record, List.append_assoc, List.cons_append] at h
    obtain ⟨rfl, htail⟩ :=
      measured_append_inj (List.cons.inj (List.append_cancel_left h)).2
    rw [ih hrest (List.cons.inj htail).2]

/-! ### Labels in front of endings -/

/-- Texts that end a part. At the front of a text at most one of them is found, and where one starts
inside of another, the other goes on differently. -/
structure Endings (α : Type) where
  isEnding : List α → Prop
  front : List α → Option (List α × List α)
  front_eq_some_iff : ∀ text ending rest,
    front text = some (ending, rest) ↔ isEnding ending ∧ text = ending ++ rest
  not_nil : ¬ isEnding []
  apart : ∀ before after ending other rest more, isEnding ending → isEnding other →
    before ≠ [] → after ≠ [] → ending = before ++ after → after ++ rest ≠ other ++ more

variable {α : Type}

/-- Parts, each a label and an ending, as one text. -/
def joined (parts : List (List α × List α)) : List α := parts.flatMap fun part ↦ part.1 ++ part.2

theorem joined_cons (label ending : List α) (parts : List (List α × List α)) :
    joined ((label, ending) :: parts) = label ++ (ending ++ joined parts) := by
  rw [joined, List.flatMap_cons, List.append_assoc, joined]

theorem joined_append (first second : List (List α × List α)) :
    joined (first ++ second) = joined first ++ joined second :=
  List.flatMap_append

namespace Endings

variable (endings : Endings α)

/-- No ending is in a text. -/
def Free (text : List α) : Prop :=
  ∀ before ending after, endings.isEnding ending → text ≠ before ++ (ending ++ after)

/-- Every part has an ending, and no label holds one. -/
def Plain (parts : List (List α × List α)) : Prop :=
  ∀ part ∈ parts, endings.Free part.1 ∧ endings.isEnding part.2

variable {endings}

theorem front_append {ending : List α} (h : endings.isEnding ending) (rest : List α) :
    endings.front (ending ++ rest) = some (ending, rest) :=
  (endings.front_eq_some_iff _ _ _).mpr ⟨h, rfl⟩

/-- One ending at the front of a text is the other. -/
theorem ending_append_inj {ending other rest more : List α} (h : endings.isEnding ending)
    (hother : endings.isEnding other) (heq : ending ++ rest = other ++ more) :
    ending = other ∧ rest = more := by
  have hfront := congrArg endings.front heq
  rw [front_append h, front_append hother] at hfront
  exact Prod.mk.inj (Option.some.inj hfront)

/-- A label that holds no ending is not shorter than another one in the same text. -/
theorem label_not_shorter {label more ending other rest tail : List α}
    (hfree : endings.Free (label ++ more)) (h : endings.isEnding ending)
    (hother : endings.isEnding other) (heq : ending ++ rest = more ++ (other ++ tail)) :
    more = [] := by
  by_contra hmore
  obtain ⟨inner, hmoreEq, -⟩ | ⟨after, hending, hrest⟩ := List.append_eq_append_iff.mp heq
  · exact hfree label ending inner h (by rw [hmoreEq])
  · by_cases hafter : after = []
    · subst hafter
      rw [List.append_nil] at hending
      exact hfree label ending [] h (by rw [hending, List.append_nil])
    · exact endings.apart more after ending other rest tail h hother hmore hafter hending hrest.symm

/-- The first part can be read back if its label holds no ending. -/
theorem part_append_inj {label otherLabel ending other rest tail : List α}
    (hfree : endings.Free label) (hotherFree : endings.Free otherLabel)
    (h : endings.isEnding ending) (hother : endings.isEnding other)
    (heq : label ++ (ending ++ rest) = otherLabel ++ (other ++ tail)) :
    label = otherLabel ∧ ending = other ∧ rest = tail := by
  obtain ⟨more, rfl, hrest⟩ | ⟨more, rfl, hrest⟩ := List.append_eq_append_iff.mp heq
  · obtain rfl := label_not_shorter hotherFree h hother hrest
    rw [List.nil_append] at hrest
    exact ⟨(List.append_nil label).symm, ending_append_inj h hother hrest⟩
  · obtain rfl := label_not_shorter hfree hother h hrest
    rw [List.nil_append] at hrest
    exact ⟨List.append_nil otherLabel, ending_append_inj h hother hrest.symm⟩

/-- Parts whose labels hold no endings are determined by their text. -/
theorem joined_inj {parts others : List (List α × List α)} (h : endings.Plain parts)
    (hothers : endings.Plain others) (heq : joined parts = joined others) : parts = others := by
  have hnonempty : ∀ {part : List α × List α} {rest : List (List α × List α)},
      endings.isEnding part.2 → joined (part :: rest) ≠ [] := by
    intro part rest hending hnil
    rw [joined_cons] at hnil
    obtain ⟨-, hrest⟩ := List.append_eq_nil_iff.mp hnil
    rw [(List.append_eq_nil_iff.mp hrest).1] at hending
    exact endings.not_nil hending
  induction parts generalizing others with
  | nil =>
    rcases others with _ | ⟨other, others⟩
    · rfl
    · exact absurd heq.symm (hnonempty (hothers other List.mem_cons_self).2)
  | cons part parts ih =>
    rcases others with _ | ⟨other, others⟩
    · exact absurd heq (hnonempty (h part List.mem_cons_self).2)
    obtain ⟨hfree, hending⟩ := h part List.mem_cons_self
    obtain ⟨hotherFree, hother⟩ := hothers other List.mem_cons_self
    rw [joined_cons, joined_cons] at heq
    obtain ⟨hlabel, hsame, hrest⟩ := part_append_inj hfree hotherFree hending hother heq
    rw [Prod.ext hlabel hsame, ih (fun later hlater ↦ h later (List.mem_cons_of_mem part hlater))
      (fun later hlater ↦ hothers later (List.mem_cons_of_mem other hlater)) hrest]

/-! ### Cutting labels -/

theorem length_rest {text ending rest : List α} (h : endings.front text = some (ending, rest)) :
    rest.length < text.length := by
  obtain ⟨hending, rfl⟩ := (endings.front_eq_some_iff _ _ _).mp h
  have hne : ending ≠ [] := fun hnil ↦ endings.not_nil (hnil ▸ hending)
  rw [List.length_append]
  exact Nat.lt_add_of_pos_left (List.length_pos_iff.mpr hne)

variable (endings)

/-- The parts of a text that end in it, and what remains of it. The label of the first part has
been begun. -/
def cutFrom (label text : List α) : List (List α × List α) × List α :=
  match _h : endings.front text with
  | some (ending, rest) => ((label, ending) :: (cutFrom [] rest).1, (cutFrom [] rest).2)
  | none =>
    match text with
    | [] => ([], label)
    | character :: rest => cutFrom (label ++ [character]) rest
  termination_by text.length
  decreasing_by
    all_goals first
      | exact length_rest _h
      | exact Nat.lt_succ_self _

/-- The parts of one part. -/
def cutPart (part : List α × List α) : List (List α × List α) :=
  (endings.cutFrom [] part.1).1 ++ [((endings.cutFrom [] part.1).2, part.2)]

/-- Parts with every label cut at the endings in it. -/
def cut (parts : List (List α × List α)) : List (List α × List α) :=
  parts.flatMap endings.cutPart

variable {endings}

/-- Cutting keeps the text. -/
theorem joined_cutFrom (endings : Endings α) (label text : List α) :
    joined (endings.cutFrom label text).1 ++ (endings.cutFrom label text).2 = label ++ text := by
  fun_induction endings.cutFrom label text with
  | case1 label text ending rest hfront ih =>
    obtain ⟨-, rfl⟩ := (endings.front_eq_some_iff _ _ _).mp hfront
    rw [joined_cons, List.append_assoc, List.append_assoc, ih, List.nil_append]
  | case2 label _ => exact (List.append_nil label).symm
  | case3 label character rest _ ih => exact ih.trans (List.append_assoc label [character] rest)

/-- No ending starts in what has been read of a label. -/
def Begun (endings : Endings α) (label text : List α) : Prop :=
  ∀ before after, label = before ++ after → after ≠ [] → endings.front (after ++ text) = none

theorem begun_nil (endings : Endings α) (text : List α) : Begun endings [] text := by
  intro before after heq hafter
  exact absurd (List.append_eq_nil_iff.mp heq.symm).2 hafter

theorem Begun.free {label text : List α} (h : Begun endings label text) : endings.Free label := by
  rintro before ending after hending rfl
  have hne : ending ≠ [] := fun hnil ↦ endings.not_nil (hnil ▸ hending)
  have hnone := h before (ending ++ after) rfl (List.append_ne_nil_of_left_ne_nil hne after)
  rw [List.append_assoc, front_append hending] at hnone
  exact absurd hnone (Option.some_ne_none _)

theorem Begun.concat {label rest : List α} {character : α}
    (h : Begun endings label (character :: rest))
    (hfront : endings.front (character :: rest) = none) :
    Begun endings (label ++ [character]) rest := by
  intro before after heq hafter
  obtain ⟨final, last, rfl⟩ := (List.eq_nil_or_concat' after).resolve_left hafter
  rw [← List.append_assoc] at heq
  obtain ⟨hlabel, hlast⟩ := List.append_inj' heq rfl
  obtain rfl := (List.singleton_inj.mp hlast)
  rw [List.append_assoc, List.singleton_append]
  by_cases hfinal : final = []
  · rw [hfinal, List.nil_append]
    exact hfront
  · exact h before final hlabel hfinal

/-- What is cut holds no endings in its labels. -/
theorem plain_cutFrom {label text : List α} (h : Begun endings label text) :
    endings.Plain (endings.cutFrom label text).1 ∧ endings.Free (endings.cutFrom label text).2 := by
  fun_induction endings.cutFrom label text with
  | case1 label text ending rest hfront ih =>
    obtain ⟨hplain, hfree⟩ := ih (begun_nil endings rest)
    refine ⟨fun part hpart ↦ ?_, hfree⟩
    obtain rfl | hlater := List.mem_cons.mp hpart
    · exact ⟨h.free, ((endings.front_eq_some_iff _ _ _).mp hfront).1⟩
    · exact hplain part hlater
  | case2 label _ => exact ⟨fun _ hpart ↦ absurd hpart List.not_mem_nil, h.free⟩
  | case3 label character rest hfront ih => exact ih (h.concat hfront)

theorem joined_cut (endings : Endings α) (parts : List (List α × List α)) :
    joined (endings.cut parts) = joined parts := by
  induction parts with
  | nil => rfl
  | cons part parts ih =>
    have hpart : joined (endings.cutPart part) = part.1 ++ part.2 := by
      have htext := joined_cutFrom endings [] part.1
      rw [cutPart, joined_append, joined_cons]
      show _ ++ (_ ++ (part.2 ++ [])) = _
      rw [List.append_nil, ← List.append_assoc, htext, List.nil_append]
    rw [cut, List.flatMap_cons, joined_append, hpart]
    show _ ++ joined (endings.cut parts) = _
    rw [ih, joined_cons, List.append_assoc]

theorem plain_cut {parts : List (List α × List α)} (h : ∀ part ∈ parts, endings.isEnding part.2) :
    endings.Plain (endings.cut parts) := by
  intro piece hpiece
  obtain ⟨part, hpart, hpiece⟩ := List.mem_flatMap.mp hpiece
  obtain ⟨hplain, hfree⟩ := plain_cutFrom (begun_nil endings part.1)
  obtain hcut | hlast := List.mem_append.mp hpiece
  · exact hplain piece hcut
  · obtain rfl := List.mem_singleton.mp hlast
    exact ⟨hfree, h part hpart⟩

/-- Parts have one text exactly if they are the same once every label is cut. -/
theorem joined_eq_iff {parts others : List (List α × List α)}
    (h : ∀ part ∈ parts, endings.isEnding part.2)
    (hothers : ∀ part ∈ others, endings.isEnding part.2) :
    joined parts = joined others ↔ endings.cut parts = endings.cut others := by
  rw [← joined_cut endings parts, ← joined_cut endings others]
  exact ⟨joined_inj (plain_cut h) (plain_cut hothers), congrArg joined⟩

/-- Parts whose labels hold no endings are not cut. -/
theorem cut_of_plain {parts : List (List α × List α)} (h : endings.Plain parts) :
    endings.cut parts = parts :=
  joined_inj (plain_cut fun part hpart ↦ (h part hpart).2) h (joined_cut endings parts)

end Endings

end Gzscript.Library.Records
