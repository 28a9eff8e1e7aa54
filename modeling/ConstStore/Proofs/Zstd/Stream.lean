/-
# Streams are read frame by frame

What a stream yields is a front of what a longer one yields: a decoder that has come to the end of
the shorter stream has taken from both the same content.

How a frame is opened depends on how long the content should be and on what follows the frame, and
so does what is looked for in its blocks.  But no block yields anything else for that.  So two
decoders are compared here that read the same bytes with different readers, and the frames of one
are those of the other, opened anew (`OpenFrame.reopened`).

* `Agree`: two computations have the same result where both have one.
* `Decoder.step_alike`: two decoders that stand alike take the same step.
* `prefix_of_decode`: what a stream yields is a front of what a longer one yields.
* `decompress_eq_ok_iff`: decompressing reads the whole stream, although it stops when there is
  too much.
-/
import ConstStore.Proofs.Zstd.RoundTrip

namespace ConstStore
namespace Zstd

/-! ## 1. Blocks in any amount of space -/

/-- Where both have a result it is the same. -/
def Agree {α : Type} (x y : Except Fault α) : Prop := ∀ ⦃a b : α⦄, x = .ok a → y = .ok b → a = b

namespace Agree

variable {α β : Type} {x y : Except Fault α}

theorem refl (x : Except Fault α) : Agree x x := fun _ _ h h' => Except.ok.inj (h.symm.trans h')

/-- **Computations that agree go on alike.** -/
theorem bind {f g : α → Except Fault β} (h : Agree x y) (hnext : ∀ a, Agree (f a) (g a)) :
    Agree (x >>= f) (y >>= g) := by
  intro b b' hb hb'
  obtain ⟨a, hx, hb⟩ := Fallible.bind_eq_ok.mp hb
  obtain ⟨a', hy, hb'⟩ := Fallible.bind_eq_ok.mp hb'
  obtain rfl := h hx hy
  exact hnext a hb hb'

theorem ofIte {p : Prop} [Decidable p] {x' y' : Except Fault α} (h : Agree x y)
    (h' : Agree x' y') : Agree (if p then x else x') (if p then y else y') := by
  split
  · exact h
  · exact h'

/-- A condition may stop one of the two. -/
theorem guard (fault : Fault) (p q : Prop) [Decidable p] [Decidable q] :
    Agree (Fallible.guard fault p) (Fallible.guard fault q) := fun _ _ _ _ => rfl

end Agree

/-- A limit to the content stops a sequence, but does not change what it yields. -/
theorem Run.agree_apply (limit limit' taken copied value : Nat) (run : Run) :
    Agree (run.apply limit taken copied value) (run.apply limit' taken copied value) :=
  .bind (.refl _) fun _ => .bind (.guard _ _ _) fun _ => .refl _

theorem Run.agree_sequences (tables : Tables) (limit limit' n : Nat) (run : Run) :
    Agree (run.sequences tables limit n) (run.sequences tables limit' n) := by
  induction n generalizing run with
  | zero => exact .refl _
  | succ n ih =>
    exact .bind (.refl _) fun _ => .bind (Run.agree_apply ..) fun _ =>
      .ofIte (.refl _) (.bind (.refl _) fun run => ih run)

/-- **A block yields the same in any space.** -/
theorem Block.agree_decode (limit : Nat) (space space' : Option Nat) (memory : Memory)
    (out : Array UInt8) (body : Bytes) :
    Agree (decode limit space memory out body) (decode limit space' memory out body) :=
  .bind (.refl _) fun _ => .bind (.refl _) fun _ => .ofIte (.refl _) <|
    .bind (.refl _) fun _ => .bind (.refl _) fun _ => .bind (Run.agree_sequences ..) fun _ =>
      .bind (.refl _) fun _ => .bind (.guard _ _ _) fun _ => .refl _

/-- An empty block has no literals. -/
theorem Block.decode_nil {limit : Nat} {space : Option Nat} {memory : Memory} {out : Array UInt8}
    {read : Memory × Array UInt8} : decode limit space memory out [] ≠ .ok read :=
  nofun

/-! ## 2. Frames opened anew -/

/-- A frame as if it had been opened in this way. -/
def OpenFrame.reopened (opening : Opening) (frame : OpenFrame) : OpenFrame :=
  { frame with opening }

def Stage.reopened (opening : Opening) : Stage → Stage
  | .between started => .between started
  | .inside frame => .inside (frame.reopened opening)
  | .storing frame left last => .storing (frame.reopened opening) left last
  | .closing frame => .closing (frame.reopened opening)

def Part.reopened (opening : Opening) (part : Part) : Part :=
  { part with stage := part.stage.reopened opening }

namespace Decoder

variable {decoder decoder' next next' : Decoder} {input more content content' : Bytes}
  {frame : OpenFrame} {opening : Opening} {part part' : Part} {reader reader' : Reader}

/-- **A block is the same however its frame is opened.** -/
theorem decodeBlock_reopened {kind size : Nat} {next next' : OpenFrame} {rest rest' : Bytes}
    (h : decodeBlock frame kind size input = .ok (next, rest))
    (h' : decodeBlock (frame.reopened opening) kind size input = .ok (next', rest')) :
    next' = next.reopened opening ∧ rest' = rest := by
  match kind with
  | 0 =>
    obtain ⟨rfl, rfl⟩ := Prod.mk.inj (Fallible.pure_eq_ok.mp h)
    obtain ⟨rfl, rfl⟩ := Prod.mk.inj (Fallible.pure_eq_ok.mp h')
    exact ⟨rfl, rfl⟩
  | 1 =>
    obtain ⟨⟨body, rest₁⟩, h₁, h⟩ := Fallible.bind_eq_ok.mp h
    obtain ⟨⟨body', rest₁'⟩, h₁', h'⟩ := Fallible.bind_eq_ok.mp h'
    obtain ⟨rfl, rfl⟩ := Prod.mk.inj (Except.ok.inj (h₁.symm.trans h₁'))
    obtain ⟨rfl, rfl⟩ := Prod.mk.inj (Fallible.pure_eq_ok.mp h)
    obtain ⟨rfl, rfl⟩ := Prod.mk.inj (Fallible.pure_eq_ok.mp h')
    exact ⟨rfl, rfl⟩
  | _ + 2 =>
    obtain ⟨⟨body, rest₁⟩, h₁, h⟩ := Fallible.bind_eq_ok.mp h
    obtain ⟨⟨body', rest₁'⟩, h₁', h'⟩ := Fallible.bind_eq_ok.mp h'
    obtain ⟨rfl, rfl⟩ := Prod.mk.inj (Except.ok.inj (h₁.symm.trans h₁'))
    have hempty : size = 0 → body = [] := by
      rintro rfl
      exact List.length_eq_zero_iff.mp
        (Bytes.split?_eq_some_iff.mp (Fallible.require_eq_ok.mp h₁)).2
    simp only at h h'
    split at h <;> split at h'
    · obtain ⟨rfl, rfl⟩ := Prod.mk.inj (Fallible.pure_eq_ok.mp h)
      obtain ⟨rfl, rfl⟩ := Prod.mk.inj (Fallible.pure_eq_ok.mp h')
      exact ⟨rfl, rfl⟩
    · -- one decoder passes over an empty block and the other one does not
      rename_i hzero _
      obtain ⟨_, hblock, -⟩ := Fallible.bind_eq_ok.mp h'
      rw [hempty hzero.1] at hblock
      exact absurd hblock Block.decode_nil
    · rename_i _ hzero
      obtain ⟨_, hblock, -⟩ := Fallible.bind_eq_ok.mp h
      rw [hempty hzero.1] at hblock
      exact absurd hblock Block.decode_nil
    · obtain ⟨decoded, hblock, h⟩ := Fallible.bind_eq_ok.mp h
      obtain ⟨decoded', hblock', h'⟩ := Fallible.bind_eq_ok.mp h'
      obtain rfl := Block.agree_decode _ _ _ _ _ _ hblock hblock'
      obtain ⟨rfl, rfl⟩ := Prod.mk.inj (Fallible.pure_eq_ok.mp h)
      obtain ⟨rfl, rfl⟩ := Prod.mk.inj (Fallible.pure_eq_ok.mp h')
      exact ⟨rfl, rfl⟩

theorem endBlock_reopened {next : OpenFrame} {last unchecked unchecked' : Bool} {taken : Nat}
    {rest : Bytes} (h : endBlock frame next last unchecked taken rest = .ok part)
    (h' : endBlock (frame.reopened opening) (next.reopened opening) last unchecked' taken rest
      = .ok part') : part' = part.reopened opening := by
  rw [(endBlock_eq_ok.mp h).2.2, (endBlock_eq_ok.mp h').2.2]
  cases last <;> rfl

theorem readBlock_reopened (h : readBlock frame input = .ok part)
    (h' : readBlock (frame.reopened opening) input = .ok part') :
    part' = part.reopened opening := by
  obtain ⟨head, rest, hsplit, -, -, h⟩ := readBlock_eq_ok.mp h
  obtain ⟨head', rest', hsplit', -, -, h'⟩ := readBlock_eq_ok.mp h'
  obtain ⟨rfl, rfl⟩ := Prod.mk.inj (Option.some.inj (hsplit.symm.trans hsplit'))
  split at h
  · rename_i hstored
    rw [if_pos hstored] at h'
    rw [h, h']
    rfl
  · rename_i hstored
    rw [if_neg hstored] at h'
    obtain ⟨next, rest', hblock, h⟩ := h
    obtain ⟨next', rest'', hblock', h'⟩ := h'
    obtain ⟨rfl, rfl⟩ := decodeBlock_reopened hblock hblock'
    exact endBlock_reopened h h'

theorem readStored_reopened {atHand left : Nat} {last : Bool}
    (h : readStored atHand frame left last input = .ok part)
    (h' : readStored atHand (frame.reopened opening) left last input = .ok part') :
    part' = part.reopened opening := by
  rw [(readStored_eq_ok.mp h).2.2.2, (readStored_eq_ok.mp h').2.2.2]
  simp only [Part.reopened, Part.mk.injEq, true_and]
  refine ⟨rfl, ?_⟩
  split
  · rfl
  · cases last <;> rfl

theorem closeFrame_reopened (h : closeFrame frame input = .ok part)
    (h' : closeFrame (frame.reopened opening) input = .ok part') :
    part' = part.reopened opening := by
  have h := closeFrame_eq_ok.mp h
  have h' := closeFrame_eq_ok.mp h'
  split at h
  · rename_i hsum
    rw [if_pos (show (frame.reopened opening).header.checksum = true from hsum)] at h'
    obtain ⟨rest, hinput, rfl⟩ := h
    obtain ⟨rest', hinput', rfl⟩ := h'
    obtain rfl := List.append_cancel_left (hinput.symm.trans hinput')
    rfl
  · rename_i hsum
    rw [if_neg (show ¬ (frame.reopened opening).header.checksum = true from hsum)] at h'
    rw [h, h']
    rfl

/-- **A frame starts at the same place with every reader.** -/
theorem openFrame_reopened (h : openFrame reader input = .ok part)
    (h' : openFrame reader' (input ++ more) = .ok part') :
    ∃ opening, part' = (part.feed more).reopened opening := by
  obtain ⟨header?, rest, hstart, h⟩ := openFrame_eq_ok.mp h
  obtain ⟨header?', rest', hstart', h'⟩ := openFrame_eq_ok.mp h'
  obtain ⟨rfl, rfl⟩ := Prod.mk.inj (Except.ok.inj
    ((fromFront_readStart.ofFeed hstart more).symm.trans hstart'))
  have htaken : (input ++ more).length - (rest ++ more).length = input.length - rest.length := by
    rw [List.length_append, List.length_append, Nat.add_sub_add_right]
  cases header? with
  | none =>
    simp only [htaken] at h h'
    exact ⟨.streamed .none, by rw [h, h']; rfl⟩
  | some header =>
    simp only [htaken] at h h'
    exact ⟨_, by rw [h.2, h'.2]; rfl⟩

/-! ## 3. Two decoders -/

/-- Two decoders that have read the same, of which the second one has more input. -/
structure Alike (more : Bytes) (decoder decoder' : Decoder) : Prop where
  input : decoder'.input = decoder.input ++ more
  stage : ∃ opening, decoder'.stage = decoder.stage.reopened opening
  position : decoder'.reader.position = decoder.reader.position

theorem Alike.behind (h : Alike more decoder decoder') (part : Part) (opening : Opening) :
    Alike more (decoder.behind part) (decoder'.behind ((part.feed more).reopened opening)) where
  input := rfl
  stage := ⟨opening, rfl⟩
  position := by
    rw [Decoder.behind, Decoder.behind, Reader.position_after, Reader.position_after, h.position]
    rfl

/-- The second one has not come to the end before the first one. -/
theorem Alike.finished (h : Alike more decoder decoder') (hf : decoder.finished = false) :
    decoder'.finished = false := by
  rw [Bool.eq_false_iff] at hf ⊢
  intro hf'
  obtain ⟨opening, hstage⟩ := h.stage
  obtain ⟨hinput', hstage'⟩ := finished_iff.mp hf'
  rw [h.input, List.append_eq_nil_iff] at hinput'
  refine hf (finished_iff.mpr ⟨hinput'.1, ?_⟩)
  rw [hstage'] at hstage
  cases hs : decoder.stage with
  | between started =>
    rw [hs] at hstage
    exact hstage.symm
  | inside frame | storing frame left last | closing frame =>
    rw [hs] at hstage
    exact absurd hstage (by simp [Stage.reopened])

/-- **Two decoders that stand alike take the same step**, unless the input of the first one ends
inside a stored block. -/
theorem step_alike (h : Alike more decoder decoder') (hs : decoder.step = .ok (content, next))
    (hc : ¬ decoder.CutShort) (hs' : decoder'.step = .ok (content', next')) :
    content' = content ∧ Alike more next next' := by
  obtain ⟨part, hpart, rfl, rfl⟩ := step_eq_ok.mp hs
  obtain ⟨part', hpart', rfl, rfl⟩ := step_eq_ok.mp hs'
  suffices hsame : ∃ opening, part' = (part.feed more).reopened opening by
    obtain ⟨opening, rfl⟩ := hsame
    exact ⟨rfl, h.behind part opening⟩
  obtain ⟨input', stage', reader'⟩ := decoder'
  obtain ⟨rfl, ⟨opening, rfl⟩, hposition⟩ := h
  have hfed : decoder.InFrame → (decoder.feed more).part = .ok (part.feed more) :=
    fun hframe => part_feed hpart hframe hc more
  obtain ⟨input, started | frame | ⟨frame, left, last⟩ | frame, reader⟩ := decoder
  · have hne : input ≠ [] := ne_nil_of_part hpart
    rw [part_between hne] at hpart
    rw [Stage.reopened, part_between (List.append_ne_nil_of_left_ne_nil hne more)] at hpart'
    exact openFrame_reopened hpart hpart'
  · have hfed := hfed rfl
    rw [feed, part_inside] at hfed
    rw [Stage.reopened, part_inside] at hpart'
    exact ⟨opening, readBlock_reopened hfed hpart'⟩
  · have hfed := hfed rfl
    have hhand : reader'.atHand = reader.atHand := by
      rw [Reader.atHand, Reader.atHand, hposition]
    rw [feed, part_storing] at hfed
    rw [Stage.reopened, part_storing, hhand] at hpart'
    exact ⟨opening, readStored_reopened hfed hpart'⟩
  · have hfed := hfed rfl
    rw [feed, part_closing] at hfed
    rw [Stage.reopened, part_closing] at hpart'
    exact ⟨opening, closeFrame_reopened hfed hpart'⟩

/-- **Two decoders that can read their input to the end** have read the same as long as the first
one did. -/
theorem prefix_of_alike (decoder : Decoder) (h : Alike more decoder decoder')
    (hread : decoder.readAll = .ok content) (hread' : decoder'.readAll = .ok content') :
    content <+: content' := by
  induction decoder using stream_induction generalizing decoder' content content' with
  | finished decoder hf =>
    rw [readAll_of_finished hf] at hread
    obtain rfl := Except.ok.inj hread
    exact List.nil_prefix
  | fault decoder fault hf hs =>
    rw [readAll_of_error hf hs] at hread
    exact absurd hread (by simp)
  | part decoder head next hs ih =>
    rw [readAll_of_step hs] at hread
    obtain ⟨rest, hrest, rfl⟩ := Fallible.map_eq_ok.mp hread
    have hc : ¬ decoder.CutShort := by
      intro hc
      obtain ⟨-, -, ⟨frame, left, last, hstage⟩, herror⟩ := step_of_cutShort hs hc
      rw [readAll_of_error (inFrame_of_storing hstage).finished herror] at hrest
      exact absurd hrest (by simp)
    have hf' : decoder'.finished = false := h.finished (finished_of_step hs)
    obtain ⟨head', next', rest', hs', hrest', rfl⟩ := step_of_readAll hf' hread'
    obtain ⟨rfl, hnext⟩ := step_alike h hs hc hs'
    exact (List.prefix_append_right_inj _).mpr (ih hnext hrest hrest')

end Decoder

/-! ## 4. Streams -/

variable {stream stream' content content' : Bytes} {limit limit' : Nat}

/-- **What a stream yields is a front of what a longer one yields**, whatever length the content of
either should have. -/
theorem prefix_of_decode (hp : stream <+: stream') (h : decode limit stream = .ok content)
    (h' : decode limit' stream' = .ok content') : content <+: content' := by
  obtain ⟨more, rfl⟩ := hp
  have hstart : Decoder.Alike more (.start limit stream) (.start limit' (stream ++ more)) :=
    ⟨rfl, ⟨.streamed .none, rfl⟩, rfl⟩
  exact Decoder.prefix_of_alike _ hstart h h'

/-- The length that the content should have makes no difference to the content. -/
theorem decode_unique (h : decode limit stream = .ok content)
    (h' : decode limit' stream = .ok content') : content = content' :=
  (prefix_of_decode (List.prefix_refl stream) h h').eq_of_length_le
    (prefix_of_decode (List.prefix_refl stream) h' h).length_le

end Zstd

/-- **Decompressing reads the whole stream**, and accepts it when the content has the length that
was asked for. -/
theorem decompress_eq_ok_iff {bytes content : Bytes} {length : Nat} :
    decompress bytes length = .ok content ↔
      Zstd.decode length bytes = .ok content ∧ content.length = length := by
  constructor
  · intro h
    rw [decompress, Zstd.decodeUpTo] at h
    split at h
    · exact absurd h (by simp)
    · rename_i content' hread
      split at h
      · rename_i hlen
        obtain rfl := Except.ok.inj h
        exact ⟨Zstd.Decoder.readAll_of_readUpTo _ hread (Nat.lt_succ_of_le hlen.le), hlen⟩
      · exact absurd h (by simp)
  · rintro ⟨hdecode, hlen⟩
    rw [decompress_of_decode hdecode, if_pos hlen]

end ConstStore
