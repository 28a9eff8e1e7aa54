/-
# Reading from the front

What a stream consists of is read off the front of the input.  So what follows has no influence on
it; and where the front of something that can be read cannot be read by itself, it is because bytes
are missing, and not because anything else is wrong with it.

Both are properties of a reader (`FromFront`).  They are said once for a field and for reading on
behind something, and every reader of a header, a block or a checksum is put together from these.

There are two exceptions.  How a frame is opened depends on how much of it is at hand, although its
header does not; and a stored block is read as far as there is input.
-/
import ConstStore.Zstd.Decoder

namespace ConstStore

/-! ## 1. Fields -/

theorem Bytes.split?_feed {n : Nat} {bytes front rest : Bytes}
    (h : split? n bytes = some (front, rest)) (more : Bytes) :
    split? n (bytes ++ more) = some (front, rest ++ more) := by
  obtain ⟨rfl, hlen⟩ := split?_eq_some_iff.mp h
  rw [List.append_assoc]
  exact split?_append _ hlen

theorem Bytes.splitNat?_feed {width n : Nat} {bytes rest : Bytes}
    (h : splitNat? width bytes = some (n, rest)) (more : Bytes) :
    splitNat? width (bytes ++ more) = some (n, rest ++ more) := by
  obtain ⟨⟨front, rest'⟩, hsplit, hread⟩ := Option.map_eq_some_iff.mp h
  obtain ⟨rfl, rfl⟩ := Prod.mk.inj hread
  rw [splitNat?, split?_feed hsplit]
  rfl

namespace Zstd

/-! ## 2. Readers -/

/-- What has been read, with more input behind it. -/
def feedRest {α : Type} (read : α × Bytes) (more : Bytes) : α × Bytes := (read.1, read.2 ++ more)

/-- A part, with more input behind it. -/
def Part.feed (part : Part) (more : Bytes) : Part := { part with rest := part.rest ++ more }

/-- **A reader of what stands in front.**  With more input it reads the same, and leaves what there
is more of; and it finds a front truncated of what it can read when nothing is missing. -/
structure FromFront {α : Type} (feed : α → Bytes → α) (read : Bytes → Except Fault α) : Prop where
  ofFeed : ∀ {bytes : Bytes} {a : α}, read bytes = .ok a →
    ∀ more, read (bytes ++ more) = .ok (feed a more)
  ofCut : ∀ {front more : Bytes} {a : α} {fault : Fault},
    read (front ++ more) = .ok a → read front = .error fault → fault = .truncated

namespace FromFront

variable {α β : Type} {feed : β → Bytes → β}

/-- A field that is missing is truncated. -/
theorem field {split : Bytes → Option (α × Bytes)}
    (h : ∀ {bytes a rest}, split bytes = some (a, rest) →
      ∀ more, split (bytes ++ more) = some (a, rest ++ more)) :
    FromFront feedRest fun bytes => Fallible.require Fault.truncated (split bytes) where
  ofFeed hread more := Fallible.require_eq_ok.mpr (h (Fallible.require_eq_ok.mp hread) more)
  ofCut {front} _ _ _ _ hshort := by
    cases hsplit : split front with
    | some a => simp [hsplit, Fallible.require] at hshort
    | none =>
      simp only [hsplit, Fallible.require, Except.error.injEq] at hshort
      exact hshort.symm

/-- What is not read. -/
theorem ofOk {f : Bytes → β} (h : ∀ bytes more, f (bytes ++ more) = feed (f bytes) more) :
    FromFront feed fun bytes => (.ok (f bytes) : Except Fault β) where
  ofFeed {bytes} _ hread more := by rw [h, Except.ok.inj hread]
  ofCut _ hshort := absurd hshort (by simp)

theorem throw (fault : Fault) : FromFront feed fun _ => (.error fault : Except Fault β) where
  ofFeed hread := absurd hread (by simp)
  ofCut hlong := absurd hlong (by simp)

/-- A step that does not look at the input. -/
theorem afterSame {x : Except Fault α} {next : α → Bytes → Except Fault β}
    (hnext : ∀ a, FromFront feed (next a)) :
    FromFront feed fun bytes => x >>= fun a => next a bytes where
  ofFeed hread more := by
    obtain ⟨a, hx, hread⟩ := Fallible.bind_eq_ok.mp hread
    exact Fallible.bind_eq_ok.mpr ⟨a, hx, (hnext a).ofFeed hread more⟩
  ofCut hlong hshort := by
    obtain ⟨a, hx, hlong⟩ := Fallible.bind_eq_ok.mp hlong
    rcases Fallible.bind_eq_error.mp hshort with hfault | ⟨a', hx', hshort⟩
    · exact absurd (hx.symm.trans hfault) (by simp)
    · obtain rfl := Except.ok.inj (hx.symm.trans hx')
      exact (hnext a).ofCut hlong hshort

/-- **Reading on.**  What has been read is read the same way in a longer input, so a cut is in there
or behind. -/
theorem bind {read : Bytes → Except Fault (α × Bytes)} {next : α × Bytes → Except Fault β}
    (hread : FromFront feedRest read) (hnext : ∀ a, FromFront feed fun rest => next (a, rest)) :
    FromFront feed fun bytes => read bytes >>= next where
  ofFeed h more := by
    obtain ⟨⟨a, rest⟩, hfront, h⟩ := Fallible.bind_eq_ok.mp h
    exact Fallible.bind_eq_ok.mpr ⟨_, hread.ofFeed hfront more, (hnext a).ofFeed h more⟩
  ofCut {front more} _ _ hlong hshort := by
    obtain ⟨whole, hwhole, hlong⟩ := Fallible.bind_eq_ok.mp hlong
    rcases Fallible.bind_eq_error.mp hshort with hfault | ⟨⟨a, rest⟩, hfront, hshort⟩
    · exact hread.ofCut hwhole hfault
    · obtain rfl := Except.ok.inj (hwhole.symm.trans (hread.ofFeed hfront more))
      exact (hnext a).ofCut hlong hshort

/-- A choice that does not look at the input. -/
theorem ofIte {p : Prop} [Decidable p] {read read' : Bytes → Except Fault β}
    (h : p → FromFront feed read) (h' : ¬ p → FromFront feed read') :
    FromFront feed fun bytes => if p then read bytes else read' bytes := by
  by_cases hp : p
  · simpa only [if_pos hp] using h hp
  · simpa only [if_neg hp] using h' hp

end FromFront

/-! ## 3. Frame headers -/

namespace FrameHeader

variable {bytes rest : Bytes}

theorem readWindow?_feed {single : Bool} {window : Option Nat}
    (h : readWindow? single bytes = some (window, rest)) (more : Bytes) :
    readWindow? single (bytes ++ more) = some (window, rest ++ more) := by
  unfold readWindow? at h ⊢
  split at h
  · rename_i hs
    obtain ⟨rfl, rfl⟩ := Prod.mk.inj (Option.some.inj h)
    rw [if_pos hs]
  · rename_i hs
    obtain ⟨⟨n, rest'⟩, hsplit, hread⟩ := Option.map_eq_some_iff.mp h
    obtain ⟨rfl, rfl⟩ := Prod.mk.inj hread
    rw [if_neg hs, Bytes.splitNat?_feed hsplit]
    rfl

theorem readContentSize?_feed {code : Nat} {single : Bool} {size : Option Nat}
    (h : readContentSize? code single bytes = some (size, rest)) (more : Bytes) :
    readContentSize? code single (bytes ++ more) = some (size, rest ++ more) := by
  -- each form of the field is a number, but for the one that is empty
  have hnumber : ∀ {width : Nat} (f : Nat → Option Nat) {g : Nat × Bytes → Option Nat × Bytes},
      (∀ p, g p = (f p.1, p.2)) → (Bytes.splitNat? width bytes).map g = some (size, rest) →
      (Bytes.splitNat? width (bytes ++ more)).map g = some (size, rest ++ more) := by
    intro width f g hg hm
    obtain ⟨⟨n, rest'⟩, hsplit, hread⟩ := Option.map_eq_some_iff.mp hm
    rw [hg] at hread
    obtain ⟨rfl, rfl⟩ := Prod.mk.inj hread
    rw [Bytes.splitNat?_feed hsplit, Option.map_some, hg]
  unfold readContentSize? at h ⊢
  split at h
  · split at h
    · rename_i hs
      rw [if_pos hs]
      exact hnumber some (fun _ => rfl) h
    · rename_i hs
      obtain ⟨rfl, rfl⟩ := Prod.mk.inj (Option.some.inj h)
      rw [if_neg hs]
  · exact hnumber (fun n => some (n + 256)) (fun _ => rfl) h
  · exact hnumber some (fun _ => rfl) h
  · exact hnumber some (fun _ => rfl) h

open FromFront in
/-- **A frame header is read from the front.** -/
theorem fromFront_read : FromFront feedRest read := by
  refine bind (field Bytes.splitNat?_feed) fun flags => ?_
  refine afterSame fun _ => ?_
  refine bind (field readWindow?_feed) fun window => ?_
  refine bind (field Bytes.splitNat?_feed) fun dictionary => ?_
  refine bind (field readContentSize?_feed) fun size => ?_
  refine afterSame fun _ => afterSame fun _ => ?_
  exact ofOk fun _ _ => rfl

end FrameHeader

/-! ## 4. Parts -/

namespace Decoder

open FromFront

/-- **The start of a frame is read from the front.** -/
theorem fromFront_readStart : FromFront feedRest readStart := by
  refine FromFront.bind (field Bytes.splitNat?_feed) fun _ => ofIte ?_ fun _ => ofIte ?_ ?_
  · exact fun _ => FromFront.bind FrameHeader.fromFront_read fun _ => ofOk fun _ _ => rfl
  · exact fun _ => FromFront.bind (field Bytes.splitNat?_feed) fun _ =>
      FromFront.bind (field Bytes.split?_feed) fun _ => ofOk fun _ _ => rfl
  · exact fun _ => FromFront.throw _

theorem fromFront_decodeBlock (frame : OpenFrame) (kind size : Nat) :
    FromFront feedRest (decodeBlock frame kind size) := by
  match kind with
  | 0 => exact ofOk fun _ _ => rfl
  | 1 => exact bind (field Bytes.split?_feed) fun _ => ofOk fun _ _ => rfl
  | _ + 2 =>
    refine bind (field Bytes.split?_feed) fun body => ofIte ?_ ?_
    · exact fun _ => ofOk fun _ _ => rfl
    · exact fun _ => afterSame fun _ => ofOk fun _ _ => rfl

theorem fromFront_endBlock (frame next : OpenFrame) (last unchecked : Bool) (taken : Nat) :
    FromFront Part.feed (endBlock frame next last unchecked taken) :=
  afterSame fun _ => afterSame fun _ => ofOk fun _ _ => rfl

/-- **A block is read from the front**, as far as its header when it is stored. -/
theorem fromFront_readBlock (frame : OpenFrame) : FromFront Part.feed (readBlock frame) :=
  bind (field Bytes.splitNat?_feed) fun _ =>
  afterSame fun _ =>
  afterSame fun _ =>
    ofIte
      (fun _ => ofOk fun _ _ => rfl)
      fun _ => bind (fromFront_decodeBlock frame _ _) fun _ => fromFront_endBlock _ _ _ _ _

theorem fromFront_closeFrame (frame : OpenFrame) : FromFront Part.feed (closeFrame frame) := by
  refine ofIte ?_ ?_
  · exact fun _ => bind (field Bytes.split?_feed) fun _ => afterSame fun _ => ofOk fun _ _ => rfl
  · exact fun _ => ofOk fun _ _ => rfl

end Decoder
end Zstd
end ConstStore
