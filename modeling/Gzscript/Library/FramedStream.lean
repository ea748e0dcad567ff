import Gzscript.Library.StreamDecoder
import Mathlib.Algebra.BigOperators.Group.List.Basic
import Mathlib.Algebra.GroupWithZero.Nat
import Mathlib.Algebra.Order.Group.Nat

/-!
# A framed stream that is read faster than it is decoded

A `Code` gives every message a frame, which the decoder delivers once it is complete and waits for
until then. A reader that drains some of the stream and then decodes a bounded number of messages
leaves the rest of the stream as it was, and how far it gets depends on the lengths of the frames
alone: it is a `Backlog`, a queue of lengths of which a number of symbols are held
(`drainUpTo_stream`).
-/

set_option autoImplicit false
set_option relaxedAutoImplicit false

namespace Gzscript.Library.FramedStream

open StreamDecoder

variable {α β ε ι : Type}

/-! ### The queue of lengths -/

/-- The lengths of the frames that are not decoded, and how many of their symbols are held. -/
structure Backlog where
  frames : List ℕ
  held : ℕ
  deriving DecidableEq

/-- At most `count` symbols arrive, and no more than there are. -/
def Backlog.arrive (count : ℕ) (backlog : Backlog) : Backlog :=
  { backlog with held := backlog.held + min count (backlog.frames.sum - backlog.held) }

/-- At most `count` frames leave, each of them complete. -/
def Backlog.serve : ℕ → Backlog → Backlog
  | 0, backlog => backlog
  | _ + 1, ⟨[], held⟩ => ⟨[], held⟩
  | count + 1, ⟨frame :: frames, held⟩ =>
    if frame ≤ held then serve count ⟨frames, held - frame⟩ else ⟨frame :: frames, held⟩

theorem Backlog.serve_complete {frame held : ℕ} (hcomplete : frame ≤ held) (count : ℕ)
    (frames : List ℕ) :
    serve (count + 1) ⟨frame :: frames, held⟩ = serve count ⟨frames, held - frame⟩ := by
  rw [serve, if_pos hcomplete]

theorem Backlog.serve_incomplete {frame held : ℕ} (hincomplete : held < frame) (count : ℕ)
    (frames : List ℕ) :
    serve count ⟨frame :: frames, held⟩ = ⟨frame :: frames, held⟩ := by
  cases count with
  | zero => rfl
  | succ count => rw [serve, if_neg hincomplete.not_ge]

theorem Backlog.serve_empty (count held : ℕ) : serve count ⟨[], held⟩ = ⟨[], held⟩ := by
  cases count <;> rfl

/-- Frames of one length that are all complete leave one after the other. -/
theorem Backlog.serve_replicate {length held : ℕ} (count more : ℕ)
    (hheld : count * length ≤ held) :
    serve count ⟨List.replicate (count + more) length, held⟩ =
      ⟨List.replicate more length, held - count * length⟩ := by
  induction count generalizing held with
  | zero => simp [serve]
  | succ count ih =>
    rw [Nat.add_mul, Nat.one_mul] at hheld ⊢
    rw [Nat.add_right_comm, List.replicate_succ, serve_complete (by omega), ih (by omega),
      Nat.sub_sub, Nat.add_comm length]

/-! ### Frames -/

/-- Frames that a decoder recognises. -/
structure Code (decoder : Decoder α β ε) (ι : Type) where
  word : ι → List α
  item : ι → β
  complete : ∀ message more,
    decoder.verdict (word message ++ more) = .deliver (item message) more
  incomplete : ∀ message held more, held ++ more = word message → more ≠ [] →
    decoder.verdict held = .wait

variable {decoder : Decoder α β ε}

/-- The frames of messages, one after the other. -/
def Code.stream (code : Code decoder ι) (messages : List ι) : List α :=
  messages.flatMap code.word

/-- The frames of messages as a queue, with a number of symbols held. -/
def Code.backlog (code : Code decoder ι) (messages : List ι) (held : ℕ) : Backlog :=
  ⟨messages.map fun message ↦ (code.word message).length, held⟩

theorem Code.length_stream (code : Code decoder ι) (messages : List ι) (held : ℕ) :
    (code.stream messages).length = (code.backlog messages held).frames.sum := by
  rw [stream, List.length_flatMap]
  rfl

/-- Deliver until the verdict is to fail or to wait, and at most `count` items. -/
def drainUpTo (decoder : Decoder α β ε) : ℕ → List α → Run α β ε
  | 0, held => ⟨[], none, held⟩
  | count + 1, held =>
    match decoder.verdict held with
    | .fail error => ⟨[], some error, held⟩
    | .wait => ⟨[], none, held⟩
    | .deliver item rest => (drainUpTo decoder count rest).after [item]

theorem drainUpTo_fail {held : List α} {error : ε} (h : decoder.verdict held = .fail error)
    (count : ℕ) : drainUpTo decoder (count + 1) held = ⟨[], some error, held⟩ := by
  simp only [drainUpTo, h]

theorem drainUpTo_wait {held : List α} (h : decoder.verdict held = .wait) (count : ℕ) :
    drainUpTo decoder count held = ⟨[], none, held⟩ := by
  cases count with
  | zero => rfl
  | succ count => simp only [drainUpTo, h]

theorem drainUpTo_deliver {held rest : List α} {item : β}
    (h : decoder.verdict held = .deliver item rest) (count : ℕ) :
    drainUpTo decoder (count + 1) held = (drainUpTo decoder count rest).after [item] := by
  simp only [drainUpTo, h]

/-- What is held of a stream is less than its first frame, or that frame and what follows it. -/
theorem Code.held_cases (code : Code decoder ι) {held later : List α} {message : ι}
    {messages : List ι} (hstream : held ++ later = code.stream (message :: messages)) :
    (held.length < (code.word message).length ∧ decoder.verdict held = .wait) ∨
      ∃ rest, held = code.word message ++ rest ∧ rest ++ later = code.stream messages := by
  rw [stream, List.flatMap_cons] at hstream
  obtain ⟨missing, hword, -⟩ | ⟨rest, hheld, hrest⟩ := List.append_eq_append_iff.mp hstream
  · by_cases hmissing : missing = []
    · subst hmissing
      rw [List.append_nil] at hword
      refine .inr ⟨[], by rw [hword, List.append_nil], ?_⟩
      rw [hword] at hstream
      exact List.append_cancel_left hstream
    · refine .inl ⟨?_, code.incomplete message held missing hword.symm hmissing⟩
      have hpositive := List.length_pos_iff.mpr hmissing
      rw [hword, List.length_append]
      omega
  · exact .inr ⟨rest, hheld, hrest.symm⟩

/-- Decoding part of a stream takes a number of messages off its front, the ones that leave the
queue of their lengths. -/
theorem drainUpTo_stream (code : Code decoder ι) (count : ℕ) {held later : List α}
    {waiting : List ι} (hstream : held ++ later = code.stream waiting) :
    ∃ done left, waiting = done ++ left ∧
      (drainUpTo decoder count held).items = done.map code.item ∧
      (drainUpTo decoder count held).failure = none ∧
      (drainUpTo decoder count held).rest ++ later = code.stream left ∧
      (code.backlog waiting held.length).serve count =
        code.backlog left (drainUpTo decoder count held).rest.length := by
  induction count generalizing held waiting with
  | zero => exact ⟨[], waiting, rfl, rfl, rfl, hstream, rfl⟩
  | succ count ih =>
    cases waiting with
    | nil =>
      obtain ⟨rfl, rfl⟩ := List.append_eq_nil_iff.mp hstream
      rw [drainUpTo_wait decoder.verdict_nil]
      exact ⟨[], [], rfl, rfl, rfl, rfl, Backlog.serve_empty _ _⟩
    | cons message messages =>
      obtain ⟨hshort, hwait⟩ | ⟨rest, rfl, hrest⟩ := code.held_cases hstream
      · rw [drainUpTo_wait hwait]
        exact ⟨[], message :: messages, rfl, rfl, rfl, hstream, Backlog.serve_incomplete hshort _ _⟩
      · obtain ⟨done, left, hwaiting, hitems, hfailure, hleft, hserve⟩ := ih hrest
        rw [drainUpTo_deliver (code.complete message rest)]
        refine ⟨message :: done, left, by rw [hwaiting, List.cons_append], ?_, hfailure, hleft, ?_⟩
        · rw [Run.after_items, hitems]
          rfl
        · rw [Run.after_rest, ← hserve, List.length_append]
          have hfirst := Backlog.serve_complete (Nat.le_add_right (code.word message).length
            rest.length) count (messages.map fun message ↦ (code.word message).length)
          rw [Nat.add_sub_cancel_left] at hfirst
          exact hfirst

end Gzscript.Library.FramedStream
