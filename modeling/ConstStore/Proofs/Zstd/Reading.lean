/-
# Reading part by part

Readers go through the parts of a stream one after the other, whatever they want of the content, so
what they do is said here once for any number of parts.  A reader that wants only so much stops at
the part that has the last of it; the decoder behind it may look on then, but it does not meet a
fault in a stream that can be read.

* `Decoder.Passes`: the parts between two positions, and what they yield.
* `Decoder.readAll_of_passes`, `Decoder.readUpTo_of_passes`: readers pass them.
* `Decoder.scan_feed`: what a decoder meets when it looks on is in the way of every other reader.
* `Decoder.readUpTo_of_readAll`: a bounded reader yields the front of what an unbounded one does.
-/
import ConstStore.Proofs.Zstd.Parts

namespace ConstStore
namespace Zstd
namespace Decoder

variable {decoder middle next : Decoder} {content : Bytes} {fault : Fault}

/-! ## 1. What readers do at a step -/

theorem readAll_of_finished (hf : decoder.finished = true) : decoder.readAll = .ok [] := by
  rw [readAll, hf]
  rfl

theorem readAll_of_step (hs : decoder.step = .ok (content, next)) :
    decoder.readAll = next.readAll.map (content ++ ·) := by
  rw [readAll, finished_of_step hs]
  simp only [Bool.false_eq_true, ↓reduceIte]
  split
  · rename_i fault h
    rw [hs] at h
    exact absurd h (by simp)
  · rename_i content' next' h
    rw [hs] at h
    obtain ⟨rfl, rfl⟩ := Prod.mk.inj (Except.ok.inj h)
    rfl

/-- A step that fails ends the reading. -/
theorem readAll_of_error (hf : decoder.finished = false) (hs : decoder.step = .error fault) :
    decoder.readAll = .error fault := by
  rw [readAll, hf]
  simp only [Bool.false_eq_true, ↓reduceIte]
  split
  · rename_i fault' h
    rw [hs] at h
    rw [Except.error.inj h]
  · rename_i content' next' h
    rw [hs] at h
    exact absurd h (by simp)

/-- A decoder that can read its input to the end is there, or takes a step. -/
theorem step_of_readAll (hf : decoder.finished = false) (h : decoder.readAll = .ok content) :
    ∃ front next rest, decoder.step = .ok (front, next) ∧ next.readAll = .ok rest ∧
      content = front ++ rest := by
  cases hs : decoder.step with
  | error fault =>
    rw [readAll_of_error hf hs] at h
    exact absurd h (by simp)
  | ok read =>
    obtain ⟨front, next⟩ := read
    rw [readAll_of_step hs] at h
    obtain ⟨rest, hrest, rfl⟩ := Fallible.map_eq_ok.mp h
    exact ⟨front, next, rest, rfl, hrest, rfl⟩

theorem readUpTo_of_finished (hf : decoder.finished = true) : decoder.readUpTo = .ok [] := by
  rw [readUpTo, hf]
  rfl

theorem readUpTo_of_error (hf : decoder.finished = false) (hs : decoder.step = .error fault) :
    decoder.readUpTo = .error fault := by
  rw [readUpTo, hf]
  simp only [Bool.false_eq_true, ↓reduceIte]
  split
  · rename_i fault' h
    rw [hs] at h
    rw [Except.error.inj h]
  · rename_i content' next' h
    rw [hs] at h
    exact absurd h (by simp)

/-- A part that is too much content is the last one, but the decoder may look on. -/
theorem readUpTo_of_enough (hs : decoder.step = .ok (content, next))
    (hle : decoder.left ≤ content.length) :
    decoder.readUpTo = next.lookOn.map fun _ => content.take decoder.left := by
  rw [readUpTo, finished_of_step hs]
  simp only [Bool.false_eq_true, ↓reduceIte]
  split
  · rename_i fault h
    rw [hs] at h
    exact absurd h (by simp)
  · rename_i content' next' h
    rw [hs] at h
    obtain ⟨rfl, rfl⟩ := Prod.mk.inj (Except.ok.inj h)
    rw [if_neg (Nat.not_lt.mpr hle)]

/-- Behind any other part the reader goes on. -/
theorem readUpTo_of_step (hs : decoder.step = .ok (content, next))
    (hlt : content.length < decoder.left) :
    decoder.readUpTo = next.readUpTo.map (content ++ ·) := by
  rw [readUpTo, finished_of_step hs]
  simp only [Bool.false_eq_true, ↓reduceIte]
  split
  · rename_i fault h
    rw [hs] at h
    exact absurd h (by simp)
  · rename_i content' next' h
    rw [hs] at h
    obtain ⟨rfl, rfl⟩ := Prod.mk.inj (Except.ok.inj h)
    rw [if_pos hlt]

/-! ## 2. Runs of parts -/

/-- Between two positions there are parts that can be read, and they yield this content. -/
inductive Passes : Decoder → Bytes → Decoder → Prop
  | refl (decoder : Decoder) : Passes decoder [] decoder
  | step {decoder middle next : Decoder} {content rest : Bytes} :
      decoder.step = .ok (content, middle) → Passes middle rest next →
      Passes decoder (content ++ rest) next

theorem Passes.trans {rest : Bytes} (h : Passes decoder content middle)
    (h' : Passes middle rest next) : Passes decoder (content ++ rest) next := by
  induction h with
  | refl decoder => exact h'
  | step hs _ ih =>
    rw [List.append_assoc]
    exact .step hs (ih h')

/-- A single part. -/
theorem Passes.of_step (hs : decoder.step = .ok (content, next)) : Passes decoder content next := by
  have h := Passes.step hs (.refl next)
  rwa [List.append_nil] at h

theorem Passes.left (h : Passes decoder content next) :
    next.left = decoder.left - content.length := by
  induction h with
  | refl decoder => rfl
  | step hs _ ih =>
    rw [ih, left_of_step hs, List.length_append]
    omega

/-- **A reader without a bound passes parts.** -/
theorem readAll_of_passes (h : Passes decoder content next) :
    decoder.readAll = next.readAll.map (content ++ ·) := by
  induction h with
  | refl decoder => cases decoder.readAll <;> rfl
  | step hs _ ih => rw [readAll_of_step hs, ih, Fallible.map_append_append]

/-- **A bounded reader passes parts** as long as their content stays within the bound. -/
theorem readUpTo_of_passes (h : Passes decoder content next)
    (hlt : content.length < decoder.left) :
    decoder.readUpTo = next.readUpTo.map (content ++ ·) := by
  induction h with
  | refl decoder => cases decoder.readUpTo <;> rfl
  | step hs _ ih =>
    rw [List.length_append] at hlt
    rw [readUpTo_of_step hs (by omega), ih (by rw [left_of_step hs]; omega),
      Fallible.map_append_append]

/-! ## 3. Looking on -/

/-- **A decoder that meets a fault when it looks on** stands before it, or before parts without
content that lead there. -/
theorem scan_eq_error (h : decoder.scan = .error fault) :
    decoder.InFrame ∧ (decoder.step = .error fault ∧ fault ≠ .truncated ∨
      ∃ next, decoder.step = .ok ([], next) ∧ next.scan = .error fault) := by
  rw [scan] at h
  split at h
  · exact absurd h (by simp)
  all_goals
    rename_i hstage
    refine ⟨by rw [InFrame, hstage]; rfl, ?_⟩
    split at h
    · exact absurd h (by simp)
    · rename_i hne hs
      obtain rfl := Except.error.inj h
      exact Or.inl ⟨hs, hne⟩
    · rename_i next hs
      exact Or.inr ⟨next, hs, h⟩
    · exact absurd h (by simp)

/-- **What is met when a decoder looks on stands in the way of every other reader**: with more input
it takes no step from there, but to parts without content. -/
theorem scan_feed {more : Bytes} (h : decoder.scan = .error fault)
    (hs : (decoder.feed more).step = .ok (content, next)) :
    content = [] ∧ ∃ middle, next = middle.feed more ∧ decoder.step = .ok ([], middle) ∧
      middle.scan = .error fault := by
  obtain ⟨hframe, ⟨hfault, hne⟩ | ⟨middle, hmiddle, hscan⟩⟩ := scan_eq_error h
  · exact absurd (step_cut hs hframe hfault) hne
  · have hc : ¬ decoder.CutShort := fun hc => (step_of_cutShort hmiddle hc).2.1 rfl
    obtain ⟨rfl, rfl⟩ := Prod.mk.inj (Except.ok.inj (hs.symm.trans
      (step_feed hmiddle hframe hc more)))
    exact ⟨rfl, middle, rfl, hmiddle, hscan⟩

/-- A fault is not met in the front of a stream that can be read. -/
theorem scan_of_readAll (decoder : Decoder) {more : Bytes}
    (h : (decoder.feed more).readAll = .ok content) : decoder.scan = .ok () := by
  induction decoder using stream_induction generalizing content with
  | finished decoder hf =>
    cases hscan : decoder.scan with
    | ok _ => rfl
    | error fault => exact absurd (hf.symm.trans (scan_eq_error hscan).1.finished) (by simp)
  | fault decoder fault' _ hs =>
    cases hscan : decoder.scan with
    | ok _ => rfl
    | error fault =>
      have hfed : (decoder.feed more).InFrame := (scan_eq_error hscan).1
      obtain ⟨front, next, rest, hstep, -⟩ := step_of_readAll hfed.finished h
      obtain ⟨-, middle, -, hmiddle, -⟩ := scan_feed hscan hstep
      exact absurd (hs.symm.trans hmiddle) (by simp)
  | part decoder head middle hs ih =>
    cases hscan : decoder.scan with
    | ok _ => rfl
    | error fault =>
      have hfed : (decoder.feed more).InFrame := (scan_eq_error hscan).1
      obtain ⟨front, next, rest, hstep, hrest, -⟩ := step_of_readAll hfed.finished h
      obtain ⟨-, middle', rfl, hmiddle, herror⟩ := scan_feed hscan hstep
      obtain ⟨-, rfl⟩ := Prod.mk.inj (Except.ok.inj (hs.symm.trans hmiddle))
      exact absurd ((ih hrest).symm.trans herror) (by simp)

theorem feed_cut (decoder : Decoder) :
    decoder.cut.feed (decoder.input.drop (decoder.reader.atHand % chunkSize)) = decoder := by
  simp [feed, cut]

theorem lookOn_of_readAll (h : decoder.readAll = .ok content) : decoder.lookOn = .ok () := by
  rw [lookOn]
  split
  · rw [← feed_cut decoder] at h
    exact scan_of_readAll decoder.cut h
  · rfl

/-! ## 4. A bounded reader and an unbounded one -/

/-- **A bounded reader yields the front of what an unbounded one yields.** -/
theorem readUpTo_of_readAll (decoder : Decoder) (h : decoder.readAll = .ok content) :
    decoder.readUpTo = .ok (content.take decoder.left) := by
  induction decoder using stream_induction generalizing content with
  | finished decoder hf =>
    rw [readAll_of_finished hf] at h
    obtain rfl := Except.ok.inj h
    rw [readUpTo_of_finished hf, List.take_nil]
  | fault decoder fault hf hs =>
    rw [readAll_of_error hf hs] at h
    exact absurd h (by simp)
  | part decoder head next hs ih =>
    rw [readAll_of_step hs] at h
    obtain ⟨rest, hrest, rfl⟩ := Fallible.map_eq_ok.mp h
    by_cases hlt : head.length < decoder.left
    · have hsplit : decoder.left = head.length + next.left := by
        rw [left_of_step hs]
        omega
      rw [readUpTo_of_step hs hlt, ih hrest, hsplit, List.take_length_add_append]
      rfl
    · rw [readUpTo_of_enough hs (by omega), lookOn_of_readAll hrest,
        List.take_append_of_le_length (by omega)]
      rfl

/-- **A bound is not noticed** where the content stays within it. -/
theorem readAll_of_readUpTo (decoder : Decoder) (h : decoder.readUpTo = .ok content)
    (hlt : content.length < decoder.left) : decoder.readAll = .ok content := by
  induction decoder using stream_induction generalizing content with
  | finished decoder hf => rwa [readUpTo_of_finished hf, ← readAll_of_finished hf] at h
  | fault decoder fault hf hs =>
    rw [readUpTo_of_error hf hs] at h
    exact absurd h (by simp)
  | part decoder head next hs ih =>
    by_cases hhead : head.length < decoder.left
    · rw [readUpTo_of_step hs hhead] at h
      obtain ⟨rest, hrest, rfl⟩ := Fallible.map_eq_ok.mp h
      rw [List.length_append] at hlt
      rw [readAll_of_step hs, ih hrest (by rw [left_of_step hs]; omega)]
      rfl
    · -- the reader has stopped at the bound
      rw [readUpTo_of_enough hs (by omega)] at h
      obtain ⟨-, -, rfl⟩ := Fallible.map_eq_ok.mp h
      rw [List.length_take] at hlt
      omega

/-- At the start of a stream, one byte more is taken than the limit. -/
@[simp] theorem left_start (limit : Nat) (input : Bytes) : (start limit input).left = limit + 1 :=
  rfl

/-- **A fault that is reached is reported.** -/
theorem readUpTo_of_fault (h : Passes decoder content next) (hlt : content.length < decoder.left)
    (hf : next.finished = false) (hs : next.step = .error fault) :
    decoder.readUpTo = .error fault := by
  rw [readUpTo_of_passes h hlt, readUpTo_of_error hf hs]
  rfl

end Decoder
end Zstd
end ConstStore
