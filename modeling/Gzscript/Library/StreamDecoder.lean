import Mathlib.Data.List.Basic
import Mathlib.Tactic.Common

/-!
# Decoding a stream that arrives in chunks

A decoder looks at the symbols it holds and gives a verdict: it fails, it waits for more, or it
delivers an item and keeps the rest. `drain` repeats this until it fails or waits, and `feed`
appends a chunk and drains again; a failure is final.

A decoder is local when a delivery does not depend on what follows it. For a local decoder the only
way in which chunks can matter is a failure that the symbols still to come would have prevented, a
`Premature` one: `feedAll_agree_iff` says that feeding chunks agrees with decoding their
concatenation exactly when no cut between two chunks is premature.
-/

set_option autoImplicit false
set_option relaxedAutoImplicit false

namespace Gzscript.Library.StreamDecoder

variable {α β ε : Type}

/-- What a decoder says about the symbols it holds. -/
inductive Verdict (α β ε : Type)
  | fail (error : ε)
  | wait
  | deliver (item : β) (rest : List α)

/-- A decoder waits when it holds nothing, and a delivery consumes something. -/
structure Decoder (α β ε : Type) where
  verdict : List α → Verdict α β ε
  verdict_nil : verdict [] = .wait
  shrinks : ∀ held item rest, verdict held = .deliver item rest → rest.length < held.length

/-- The items delivered so far, the failure if there was one, and the symbols still held. -/
structure Run (α β ε : Type) where
  items : List β
  failure : Option ε
  rest : List α

/-- The run that starts after some items. -/
def Run.after (items : List β) (run : Run α β ε) : Run α β ε :=
  { run with items := items ++ run.items }

@[simp] theorem Run.after_items (items : List β) (run : Run α β ε) :
    (run.after items).items = items ++ run.items := rfl

@[simp] theorem Run.after_failure (items : List β) (run : Run α β ε) :
    (run.after items).failure = run.failure := rfl

@[simp] theorem Run.after_rest (items : List β) (run : Run α β ε) :
    (run.after items).rest = run.rest := rfl

@[simp] theorem Run.after_nil (run : Run α β ε) : run.after [] = run := rfl

theorem Run.after_after (first second : List β) (run : Run α β ε) :
    (run.after second).after first = run.after (first ++ second) := by
  simp [Run.after]

/-- The same items, both failed or neither, and the same symbols held unless they failed. -/
def Run.Agree (first second : Run α β ε) : Prop :=
  first.items = second.items ∧ first.failure.isSome = second.failure.isSome ∧
    (first.failure = none → first.rest = second.rest)

variable (decoder : Decoder α β ε)

/-- Deliver until the verdict is to fail or to wait. -/
def Decoder.drain (held : List α) : Run α β ε :=
  match _hverdict : decoder.verdict held with
  | .fail error => ⟨[], some error, held⟩
  | .wait => ⟨[], none, held⟩
  | .deliver item rest => (drain rest).after [item]
termination_by held.length
decreasing_by exact decoder.shrinks held item rest _hverdict

/-- Append a chunk and drain, unless the run has failed. -/
def Decoder.feed (run : Run α β ε) (chunk : List α) : Run α β ε :=
  match run.failure with
  | some _ => run
  | none => (decoder.drain (run.rest ++ chunk)).after run.items

/-- Feed one chunk after the other. -/
def Decoder.feedAll (run : Run α β ε) (chunks : List (List α)) : Run α β ε :=
  chunks.foldl decoder.feed run

/-- A delivery does not depend on what follows it. -/
def Decoder.Local : Prop :=
  ∀ held item rest more, decoder.verdict held = .deliver item rest →
    decoder.verdict (held ++ more) = .deliver item (rest ++ more)

/-- The decoder fails on `before`, and would not fail there with `after` at hand. -/
def Decoder.Premature (before after : List α) : Prop :=
  (decoder.drain before).failure ≠ none ∧
    ∀ error, decoder.verdict ((decoder.drain before).rest ++ after) ≠ .fail error

/-! ### Draining -/

variable {decoder}

theorem drain_fail {held : List α} {error : ε} (h : decoder.verdict held = .fail error) :
    decoder.drain held = ⟨[], some error, held⟩ := by
  rw [Decoder.drain]
  split <;> simp_all

theorem drain_wait {held : List α} (h : decoder.verdict held = .wait) :
    decoder.drain held = ⟨[], none, held⟩ := by
  rw [Decoder.drain]
  split <;> simp_all

theorem drain_deliver {held rest : List α} {item : β}
    (h : decoder.verdict held = .deliver item rest) :
    decoder.drain held = (decoder.drain rest).after [item] := by
  rw [Decoder.drain]
  split <;> simp_all

/-- A run that did not fail waits with what it holds, and a failed one fails on what it holds. -/
theorem verdict_drain_rest (held : List α) :
    decoder.verdict (decoder.drain held).rest =
      (decoder.drain held).failure.elim .wait Verdict.fail := by
  induction held using Decoder.drain.induct decoder with
  | case1 held error h => rw [drain_fail h]; exact h
  | case2 held h => rw [drain_wait h]; exact h
  | case3 held item rest h ih => rw [drain_deliver h]; exact ih

/-- What follows is decoded from where the run on the first part stopped. -/
theorem drain_append (hlocal : decoder.Local) (held more : List α) :
    decoder.drain (held ++ more) =
      (decoder.drain ((decoder.drain held).rest ++ more)).after (decoder.drain held).items := by
  induction held using Decoder.drain.induct decoder with
  | case1 held error h => rw [drain_fail h]; rfl
  | case2 held h => rw [drain_wait h]; rfl
  | case3 held item rest h ih =>
    rw [drain_deliver (hlocal held item rest more h), ih, drain_deliver h, Run.after_after]
    rfl

/-! ### Feeding -/

theorem feedAll_failed {run : Run α β ε} {error : ε} (hfailure : run.failure = some error)
    (chunks : List (List α)) : decoder.feedAll run chunks = run := by
  induction chunks with
  | nil => rfl
  | cons chunk chunks ih =>
    have hfeed : decoder.feed run chunk = run := by simp [Decoder.feed, hfailure]
    rw [Decoder.feedAll, List.foldl_cons, hfeed]
    exact ih

theorem feedAll_cons {run : Run α β ε} (hfailure : run.failure = none) (chunk : List α)
    (chunks : List (List α)) :
    decoder.feedAll run (chunk :: chunks) =
      decoder.feedAll ((decoder.drain (run.rest ++ chunk)).after run.items) chunks := by
  have hfeed : decoder.feed run chunk = (decoder.drain (run.rest ++ chunk)).after run.items := by
    simp [Decoder.feed, hfailure]
  rw [Decoder.feedAll, List.foldl_cons, hfeed, Decoder.feedAll]

theorem not_premature_of_wait {before : List α} (h : decoder.verdict before = .wait)
    (after : List α) : ¬ decoder.Premature before after := by
  rintro ⟨hfailure, -⟩
  rw [drain_wait h] at hfailure
  exact hfailure rfl

/-- Whether a cut is premature shows from where the run on a first part stopped. -/
theorem premature_append (hlocal : decoder.Local) (held more after : List α) :
    decoder.Premature (held ++ more) after ↔
      decoder.Premature ((decoder.drain held).rest ++ more) after := by
  simp only [Decoder.Premature, drain_append hlocal held more, Run.after_failure, Run.after_rest]

/-- When decoding fails on the whole, no cut of it is premature once the decoder has failed. -/
theorem not_premature_of_fail (hlocal : decoder.Local) {before after : List α} {error : ε}
    (h : decoder.verdict (before ++ after) = .fail error) : ¬ decoder.Premature before after := by
  rintro ⟨hfailure, hcontinues⟩
  cases hbefore : decoder.verdict before with
  | fail e =>
    rw [drain_fail hbefore] at hcontinues
    exact hcontinues error h
  | wait =>
    rw [drain_wait hbefore] at hfailure
    exact hfailure rfl
  | deliver item rest =>
    rw [hlocal before item rest after hbefore] at h
    cases h

/-- A cut after the first chunk is a cut of what remains, seen from where the decoder stopped. -/
theorem cuts_cons (hlocal : decoder.Local) {held : List α} (hwait : decoder.verdict held = .wait)
    (chunk : List α) (chunks : List (List α)) :
    (∀ before after, chunk :: chunks = before ++ after →
        ¬ decoder.Premature (held ++ before.flatten) after.flatten) ↔
      ∀ before after, chunks = before ++ after →
        ¬ decoder.Premature ((decoder.drain (held ++ chunk)).rest ++ before.flatten)
          after.flatten := by
  constructor
  · intro h before after hsplit
    have hcut := h (chunk :: before) after (by rw [hsplit, List.cons_append])
    rwa [List.flatten_cons, ← List.append_assoc, premature_append hlocal] at hcut
  · intro h before after hsplit
    cases before with
    | nil =>
      rw [List.flatten_nil, List.append_nil]
      exact not_premature_of_wait hwait _
    | cons first before =>
      rw [List.cons_append] at hsplit
      obtain ⟨rfl, hrest⟩ := List.cons.inj hsplit
      rw [List.flatten_cons, ← List.append_assoc, premature_append hlocal]
      exact h before after hrest

/-- A failed run agrees with decoding the rest exactly when its failure was not premature. -/
theorem failed_agree_iff (hlocal : decoder.Local) {held : List α} {error : ε}
    (hfail : decoder.verdict held = .fail error) (items : List β) (chunks : List (List α)) :
    Run.Agree ⟨items, some error, held⟩ ((decoder.drain (held ++ chunks.flatten)).after items) ↔
      ∀ before after, chunks = before ++ after →
        ¬ decoder.Premature (held ++ before.flatten) after.flatten := by
  have hpremature (hcontinue : ∀ late, decoder.verdict (held ++ chunks.flatten) ≠ .fail late) :
      decoder.Premature (held ++ ([] : List (List α)).flatten) chunks.flatten := by
    rw [List.flatten_nil, List.append_nil, Decoder.Premature, drain_fail hfail]
    exact ⟨nofun, hcontinue⟩
  cases hcontinue : decoder.verdict (held ++ chunks.flatten) with
  | fail late =>
    rw [drain_fail hcontinue]
    refine iff_of_true ⟨by simp, rfl, nofun⟩ fun before after hsplit ↦ ?_
    have hfailing : decoder.verdict (held ++ before.flatten ++ after.flatten) = .fail late := by
      rw [List.append_assoc, ← List.flatten_append, ← hsplit, hcontinue]
    exact not_premature_of_fail hlocal hfailing
  | wait =>
    rw [drain_wait hcontinue]
    refine iff_of_false ?_ fun h ↦ h [] chunks rfl (hpremature (by simp [hcontinue]))
    rintro ⟨-, hfailed, -⟩
    cases hfailed
  | deliver item rest =>
    rw [drain_deliver hcontinue]
    refine iff_of_false ?_ fun h ↦ h [] chunks rfl (hpremature (by simp [hcontinue]))
    rintro ⟨hitems, -, -⟩
    have hlength := congrArg List.length hitems
    simp at hlength

/-- The same for the chunks that are still to come: induction on them, until the first failure. -/
theorem feedAll_agree_iff_from (hlocal : decoder.Local) (run : Run α β ε)
    (hfailure : run.failure = none) (hwait : decoder.verdict run.rest = .wait)
    (chunks : List (List α)) :
    (decoder.feedAll run chunks).Agree
        ((decoder.drain (run.rest ++ chunks.flatten)).after run.items) ↔
      ∀ before after, chunks = before ++ after →
        ¬ decoder.Premature (run.rest ++ before.flatten) after.flatten := by
  induction chunks generalizing run with
  | nil =>
    rw [List.flatten_nil, List.append_nil, drain_wait hwait]
    refine iff_of_true ⟨by simp [Decoder.feedAll], by simp [Decoder.feedAll, hfailure],
      fun _ ↦ rfl⟩ fun before after hsplit ↦ ?_
    obtain ⟨rfl, rfl⟩ := List.append_eq_nil_iff.mp hsplit.symm
    rw [List.flatten_nil, List.append_nil]
    exact not_premature_of_wait hwait _
  | cons chunk chunks ih =>
    set next := decoder.drain (run.rest ++ chunk) with hnext
    have hverdict : decoder.verdict next.rest = next.failure.elim .wait Verdict.fail :=
      verdict_drain_rest (run.rest ++ chunk)
    have hwhole : (decoder.drain (run.rest ++ (chunk :: chunks).flatten)).after run.items =
        (decoder.drain (next.rest ++ chunks.flatten)).after (run.items ++ next.items) := by
      rw [List.flatten_cons, ← List.append_assoc, drain_append hlocal, ← hnext, Run.after_after]
    rw [cuts_cons hlocal hwait, hwhole, feedAll_cons hfailure, ← hnext]
    cases hstop : next.failure with
    | none =>
      rw [hstop] at hverdict
      exact ih (next.after run.items) hstop hverdict
    | some error =>
      rw [hstop] at hverdict
      have hrun : next.after run.items = ⟨run.items ++ next.items, some error, next.rest⟩ := by
        rw [Run.after, hstop]
      rw [feedAll_failed (by rw [hrun]), hrun]
      exact failed_agree_iff hlocal hverdict _ chunks

/-- Feeding chunks agrees with decoding their concatenation exactly when no cut is premature. -/
theorem feedAll_agree_iff (hlocal : decoder.Local) (chunks : List (List α)) :
    (decoder.feedAll ⟨[], none, []⟩ chunks).Agree (decoder.drain chunks.flatten) ↔
      ∀ before after, chunks = before ++ after →
        ¬ decoder.Premature before.flatten after.flatten := by
  have hfrom := feedAll_agree_iff_from hlocal ⟨[], none, []⟩ rfl decoder.verdict_nil chunks
  simpa only [Run.after_nil, List.nil_append] using hfrom

end Gzscript.Library.StreamDecoder
