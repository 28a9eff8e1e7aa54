/-
# A cursor against reading and writing by position

A cursor moves the position of its file only where it does not know it to be right.  Seen from
outside this must make no difference: what is read, written or copied at an offset depends on that
offset and on the content, and on nothing that was done before.  What can be seen is how often the
position is moved, and for a base file that is counted here.

* `OpenFile.write_eq_overwrite`: what writing leaves in a file, told byte by byte.
* `Cursor.perform_eq`, `Cursor.performAll_eq`: one access and any number of them, against the
  answers and the content that the offsets alone determine.
* `Cursor.seek_eq_word`: the cursor decides as it would on a word with a sentinel in it.
* `BaseFile.readAll_resting`: what reading many records gives, and how often it moves the position.
* `Cursor.positional`: all this, for every cursor and every base file.
-/
import ConstStore.Proofs.Building
import ConstStore.Proofs.Session.LocalDamage

namespace ConstStore

/-! ## 1. Writing by position -/

/-- A byte string with another one written over it at an offset.  Where it was too short, there are
zeros now; no bytes change nothing. -/
def Bytes.overwrite (content : Bytes) (offset : Nat) (bytes : Bytes) : Bytes :=
  if bytes = [] then content
  else (List.range (max content.length (offset + bytes.length))).map fun i =>
    if offset ≤ i ∧ i < offset + bytes.length then bytes.getD (i - offset) 0 else content.getD i 0

/-- The bytes in front of those that are written. -/
theorem OpenFile.getElem?_front (content : Bytes) (position i : Nat) (hi : i < position) :
    (content.take position ++ List.replicate (position - content.length) 0)[i]?
      = some (content.getD i 0) := by
  rw [List.getD_eq_getElem?_getD, List.getElem?_append, List.length_take]
  by_cases hlt : i < content.length
  · rw [if_pos (by omega), List.getElem?_take_of_lt hi, List.getElem?_eq_getElem hlt]
    rfl
  · rw [if_neg (by omega), List.getElem?_eq_none (Nat.le_of_not_lt hlt),
      List.getElem?_replicate_of_lt (by omega)]
    rfl

/-- **Writing stores the bytes at the position**, and leaves all others. -/
theorem OpenFile.write_eq_overwrite (file : OpenFile) (content bytes : Bytes) :
    file.write content bytes
      = (content.overwrite file.position bytes, ⟨file.position + bytes.length⟩) := by
  rw [write, Bytes.overwrite]
  refine Prod.ext ?_ rfl
  by_cases hb : bytes = []
  · subst hb
    simp
  · rw [if_neg hb]
    dsimp only
    rw [if_neg (by simpa using hb)]
    have hfront : (content.take file.position
        ++ List.replicate (file.position - content.length) (0 : UInt8)).length = file.position := by
      rw [List.length_append, List.length_take, List.length_replicate]
      omega
    -- byte by byte: in front of what is written, inside, and behind
    refine List.ext_getElem? fun i => ?_
    rw [List.getElem?_map, List.append_assoc, List.getElem?_append, hfront]
    by_cases hi : i < file.position
    · rw [if_pos hi, getElem?_front content _ _ hi, List.getElem?_range (by omega)]
      simp [Nat.not_le_of_lt hi]
    · rw [if_neg hi, List.getElem?_append]
      by_cases hj : i < file.position + bytes.length
      · have hlt : i - file.position < bytes.length := by omega
        rw [if_pos hlt, List.getElem?_range (by omega), List.getElem?_eq_getElem hlt]
        simp [Nat.le_of_not_lt hi, hj, hlt]
      · rw [if_neg (by omega), List.getElem?_drop,
          show file.position + bytes.length + (i - file.position - bytes.length) = i by omega]
        by_cases hlen : i < content.length
        · rw [List.getElem?_range (by omega), List.getElem?_eq_getElem hlen]
          simp [hj, hlen]
        · rw [List.getElem?_eq_none (Nat.le_of_not_lt hlen),
            List.getElem?_eq_none (by rw [List.length_range]; omega)]
          rfl

/-! ## 2. Accesses -/

/-- What is done by way of a cursor. -/
inductive Access where
  | read (offset length : Nat)
  | write (offset : Nat) (bytes : Bytes)
  | copy (offset length : Nat)
  /-- An access at this offset that the device breaks off.  These bytes have been written by then,
  and the position may be any. -/
  | broken (cause : IoError) (offset : Nat) (written : Bytes) (position : Nat)

namespace Access

/-- What an access answers on a content. -/
def answer (content : Bytes) : Access → Except IoError Bytes
  | .read offset length =>
    if (content.slice offset length).length = length then .ok (content.slice offset length)
    else .error .shortRead
  | .write _ _ => .ok []
  | .copy offset length =>
    if (content.slice offset length).length = length then .ok (content.slice offset length)
    else .error (.shortCopy (content.slice offset length).length length)
  | .broken cause _ _ _ => .error cause

/-- The content after an access. -/
def stores (content : Bytes) : Access → Bytes
  | .read _ _ | .copy _ _ => content
  | .write offset bytes | .broken _ offset bytes _ => content.overwrite offset bytes

/-- What accesses answer one after the other. -/
def answers (content : Bytes) : List Access → List (Except IoError Bytes)
  | [] => []
  | access :: accesses => access.answer content :: answers (access.stores content) accesses

end Access

namespace Cursor

/-- Makes an access: what it answers, the content after it, and the cursor. -/
def perform (cursor : Cursor) (content : Bytes) : Access → Except IoError Bytes × Bytes × Cursor
  | .read offset length =>
    let (answer, next) := cursor.readAt content offset length
    (answer, content, next)
  | .write offset bytes =>
    let (content, next) := cursor.writeAt content offset bytes
    (.ok [], content, next)
  | .copy offset length =>
    let (answer, next) := cursor.copyRegion content offset length
    (answer, content, next)
  | .broken cause offset written position =>
    let (content, next) := cursor.writeAt content offset written
    (.error cause, content, { next with file := ⟨position⟩, known := none })

def performAll (cursor : Cursor) (content : Bytes) :
    List Access → List (Except IoError Bytes) × Bytes × Cursor
  | [] => ([], content, cursor)
  | access :: accesses =>
    let (answer, content, cursor) := cursor.perform content access
    let (answers, content, cursor) := cursor.performAll content accesses
    (answer :: answers, content, cursor)

variable {cursor : Cursor}

theorem writeAt_eq (h : cursor.Coherent) (content : Bytes) (offset : Nat) (bytes : Bytes) :
    (cursor.writeAt content offset bytes).1 = content.overwrite offset bytes := by
  simp only [writeAt, OpenFile.write_eq_overwrite, position_seek h]

theorem coherent_copyRegion (h : cursor.Coherent) (content : Bytes) (offset length : Nat) :
    (cursor.copyRegion content offset length).2.Coherent := by
  intro known hk
  simp only [copyRegion, OpenFile.read_eq_slice, position_seek h] at hk ⊢
  split at hk
  · rename_i hlen
    rw [if_pos hlen]
    exact Option.some.inj hk
  · rename_i hlen
    rw [if_neg hlen]
    exact Option.some.inj hk

/-- **An access acts at its offset**, wherever the position was before, and what the cursor believes
afterwards is true. -/
theorem perform_eq (h : cursor.Coherent) (content : Bytes) (access : Access) :
    (cursor.perform content access).1 = access.answer content ∧
      (cursor.perform content access).2.1 = access.stores content ∧
      (cursor.perform content access).2.2.Coherent := by
  cases access with
  | read offset length =>
    exact ⟨readAt_fst h content offset length, rfl, coherent_readAt h content offset length⟩
  | write offset bytes =>
    exact ⟨rfl, writeAt_eq h content offset bytes, coherent_writeAt h content bytes offset⟩
  | copy offset length =>
    exact ⟨copyRegion_fst h content offset length, rfl, coherent_copyRegion h content offset length⟩
  | broken cause offset written position => exact ⟨rfl, writeAt_eq h content offset written, nofun⟩

/-- **So do any number of accesses**, one after the other. -/
theorem performAll_eq (accesses : List Access) : ∀ {cursor : Cursor} (content : Bytes),
    cursor.Coherent →
      (cursor.performAll content accesses).1 = Access.answers content accesses ∧
        (cursor.performAll content accesses).2.1 = accesses.foldl Access.stores content ∧
        (cursor.performAll content accesses).2.2.Coherent := by
  induction accesses with
  | nil => intro cursor content h; exact ⟨rfl, rfl, h⟩
  | cons access accesses ih =>
    intro cursor content h
    obtain ⟨hanswer, hcontent, hnext⟩ := perform_eq h content access
    obtain ⟨hanswers, hcontents, hlast⟩ := ih (access.stores content) hnext
    rw [performAll, Access.answers, List.foldl_cons]
    rw [← hcontent] at hanswers hcontents hlast ⊢
    refine ⟨?_, hcontents, hlast⟩
    rw [← hanswer, ← hanswers]

/-! ## 3. The position as a word -/

/-- The word of 64 bits that tells what is known of the position.  The largest one tells that nothing
is. -/
def word (cursor : Cursor) : Nat := cursor.known.getD (UInt64.size - 1)

/-- It is the position, or it tells that this is not known. -/
theorem word_cases (h : cursor.Coherent) :
    cursor.word = cursor.file.position ∨ cursor.word = UInt64.size - 1 := by
  rw [word]
  cases hk : cursor.known with
  | none => exact .inr rfl
  | some offset => exact .inl (h offset hk).symm

/-- Comparing the word tells whether the position has to be moved, since no file has an offset that
is the largest word. -/
theorem seek_eq_word (cursor : Cursor) {offset : Nat} (h : offset < 2 ^ 63) :
    cursor.seek offset =
      if cursor.word = offset then cursor else ⟨⟨offset⟩, some offset, cursor.seeks + 1⟩ := by
  have hsentinel : ¬ UInt64.size - 1 = offset := by
    rw [show UInt64.size - 1 = 18446744073709551615 from rfl]
    omega
  rw [seek, word]
  cases hk : cursor.known with
  | none => rw [if_neg nofun, Option.getD_none, if_neg hsentinel]
  | some known => simp only [Option.getD_some, Option.some.injEq]

/-! ## 4. How often the position is moved -/

/-- A cursor that knows its position. -/
def resting (position seeks : Nat) : Cursor := ⟨⟨position⟩, some position, seeks⟩

theorem coherent_resting (position seeks : Nat) : (resting position seeks).Coherent :=
  fun _ hk => Option.some.inj hk

theorem seek_resting (position seeks offset : Nat) :
    (resting position seeks).seek offset
      = resting offset (seeks + if offset = position then 0 else 1) := by
  by_cases h : offset = position
  · subst h
    rw [if_pos rfl]
    exact if_pos rfl
  · rw [if_neg h]
    exact if_neg fun hk => h (Option.some.inj hk).symm

/-- A read that does not fall short leaves the cursor behind it, and moves the position unless the
read before ended there. -/
theorem readAt_resting {content : Bytes} {offset length : Nat}
    (hle : offset + length ≤ content.length) (position seeks : Nat) :
    ((resting position seeks).readAt content offset length).2
      = resting (offset + length) (seeks + if offset = position then 0 else 1) := by
  have hlen := Bytes.length_slice hle
  rw [readAt, seek_resting]
  simp only [OpenFile.read_eq_slice, resting, hlen, if_true]

end Cursor

/-- A record that is to be read, and the file system at that time. -/
structure Reading where
  files : FileSystem
  offset : Nat
  size : Nat
  length : Nat

namespace Reading

/-- How often reads start where the one before did not end. -/
def moves : (position : Nat) → List Reading → Nat
  | _, [] => 0
  | position, r :: reads =>
    (if r.offset = position then 0 else 1) + moves (r.offset + r.size) reads

/-- Whether the record is inside a base file. -/
def isInside (base : BaseFile) (r : Reading) : Bool :=
  base.header.dataOffset ≤ r.offset ∧ r.offset + r.size ≤ base.size

/-- What reading it answers. -/
def answer (base : BaseFile) (content : Bytes) (r : Reading) : Except Error Bytes :=
  if r.isInside base then decompress (content.slice r.offset r.size) r.length
  else .error (.format .outsideBase)

/-- **Records that stand behind each other are read without moving.** -/
theorem moves_eq_zero (reads : List Reading) : ∀ position : Nat,
    (∀ n r, reads[n]? = some r → r.offset = position + ((reads.take n).map (·.size)).sum) →
      moves position reads = 0 := by
  induction reads with
  | nil => intros; rfl
  | cons r reads ih =>
    intro position h
    have hfirst : r.offset = position := h 0 r rfl
    rw [moves, if_pos hfirst, Nat.zero_add]
    refine ih _ fun n r' hr' => ?_
    have hr := h (n + 1) r' hr'
    rw [List.take_succ_cons, List.map_cons, List.sum_cons] at hr
    omega

end Reading

namespace BaseFile

/-- Reads records one after the other. -/
def readAll (base : BaseFile) : List Reading → List (Except Error Bytes) × BaseFile
  | [] => ([], base)
  | r :: reads =>
    let (answer, base) := base.readRecord r.files r.offset r.size r.length
    let (answers, base) := base.readAll reads
    (answer :: answers, base)

/-- A base file with its cursor at a position. -/
def restingAt (base : BaseFile) (position seeks : Nat) : BaseFile :=
  { base with cursor := .resting position seeks }

variable {base : BaseFile} {content : Bytes}

/-- Reading one record: the bytes at its offset are decompressed, and the position is behind them,
whether or not they are a value.  A record outside of the file is not read at all. -/
theorem readRecord_restingAt (hlength : content.length = base.size) {r : Reading}
    (hcontent : r.files.contentOf base.node = .ok content) (position seeks : Nat) :
    (base.restingAt position seeks).readRecord r.files r.offset r.size r.length =
      (r.answer base content,
        if r.isInside base then base.restingAt (r.offset + r.size)
          (seeks + if r.offset = position then 0 else 1)
        else base.restingAt position seeks) := by
  have hiff := @decide_eq_true_iff
    (base.header.dataOffset ≤ r.offset ∧ r.offset + r.size ≤ base.size) _
  rw [Reading.answer, Reading.isInside]
  by_cases hin : base.header.dataOffset ≤ r.offset ∧ r.offset + r.size ≤ base.size
  · have hle : r.offset + r.size ≤ content.length := hlength ▸ hin.2
    rw [if_pos (hiff.mpr hin), if_pos (hiff.mpr hin)]
    refine Prod.ext ?_ ?_
    · have hcoherent : (base.restingAt position seeks).cursor.Coherent :=
        Cursor.coherent_resting position seeks
      exact Session.readRecord_base hcoherent hcontent hlength hin.1 hin.2 r.length
    · have hout : ¬ (r.offset < base.header.dataOffset ∨ base.size < r.offset + r.size) := by omega
      rw [readRecord]
      simp only [restingAt, size, hcontent, Cursor.readAt_resting hle]
      exact congrArg Prod.snd (if_neg hout)
  · have hout : r.offset < base.header.dataOffset ∨ base.size < r.offset + r.size := by omega
    rw [if_neg fun h => hin (hiff.mp h), if_neg fun h => hin (hiff.mp h), readRecord]
    exact if_pos hout

/-- **Reading many records**: each is read as if it were the only one, and the position is moved
where a record does not stand behind the last one that was inside the file. -/
theorem readAll_restingAt (hlength : content.length = base.size) (reads : List Reading) :
    ∀ position seeks : Nat, (∀ r ∈ reads, r.files.contentOf base.node = .ok content) →
      ((base.restingAt position seeks).readAll reads).1
          = reads.map (Reading.answer base content) ∧
        ((base.restingAt position seeks).readAll reads).2.seeks
          = seeks + Reading.moves position (reads.filter (Reading.isInside base)) := by
  induction reads with
  | nil => intros; exact ⟨rfl, rfl⟩
  | cons r reads ih =>
    intro position seeks h
    have hrest := fun r hr => h r (List.mem_cons_of_mem _ hr)
    simp only [readAll, readRecord_restingAt hlength (h r List.mem_cons_self), List.map_cons]
    by_cases hin : r.isInside base = true
    · obtain ⟨hanswers, hseeks⟩ := ih (r.offset + r.size)
        (seeks + if r.offset = position then 0 else 1) hrest
      rw [if_pos hin, List.filter_cons_of_pos hin, Reading.moves, ← Nat.add_assoc]
      exact ⟨congrArg _ hanswers, hseeks⟩
    · obtain ⟨hanswers, hseeks⟩ := ih position seeks hrest
      rw [if_neg hin, List.filter_cons_of_neg hin]
      exact ⟨congrArg _ hanswers, hseeks⟩

/-! ## 5. Records in order -/

/-- Reading a header and an index from the front of a file leads to where the records start. -/
theorem position_of_parse {contents : Contents} (h : Contents.parse content = .ok contents) :
    (((⟨0⟩ : OpenFile).read content Header.size).2.read content
      contents.header.indexSize.toNat).2.position = contents.header.dataOffset := by
  have hparses := Contents.parse_eq_ok_iff.mp h
  obtain ⟨hheader, -, -⟩ := Header.decode_take_eq_ok_iff.mp hparses.header
  have hinside := hparses.inside
  have hbehind : ((⟨0⟩ : OpenFile).read content Header.size).2 = ⟨Header.size⟩ := by
    rw [OpenFile.read_eq_slice, Bytes.length_slice (by rw [Nat.zero_add]; exact hheader),
      Nat.zero_add]
  have hindex : Header.size + contents.header.indexSize.toNat ≤ content.length := by omega
  rw [hbehind, OpenFile.read_eq_slice, Bytes.length_slice hindex]
  rfl

/-- These are the records of a store from the first one on, where its lookup has them. -/
def InOrder (contents : Contents) (reads : List Reading) : Prop :=
  ∀ n r, reads[n]? = some r → ∃ e, contents.index.get? n = some e ∧
    contents.lookup.get? e.key = some ⟨n, r.offset⟩ ∧ r.size = e.size.toNat

/-- Records in order stand behind each other, and inside the file. -/
theorem InOrder.offset_eq {contents : Contents} {reads : List Reading}
    (h : InOrder contents reads) (hparse : Contents.parse content = .ok contents) {n : Nat}
    {r : Reading} (hr : reads[n]? = some r) :
    r.offset = contents.header.dataOffset + ((reads.take n).map (·.size)).sum ∧
      r.offset + r.size ≤ content.length := by
  obtain ⟨hd, hlookup, htotal⟩ := Contents.parse_eq_ok hparse
  have hplaces := Lookup.describes_layout hd contents.header.dataOffset
  rw [← hlookup] at hplaces
  -- the records read so far are those in front of the entry
  have hsum : ∀ m ≤ n, contents.index.bytesBefore m = ((reads.take m).map (·.size)).sum := by
    intro m
    induction m with
    | zero => intro _; rfl
    | succ m ih =>
      intro hm
      have hlt : m < reads.length :=
        Nat.lt_of_succ_le (Nat.le_trans hm (Nat.le_of_lt (List.getElem?_eq_some_iff.mp hr).1))
      have hread : reads[m]? = some reads[m] := List.getElem?_eq_getElem hlt
      obtain ⟨e, he, -, hsize⟩ := h m _ hread
      rw [Index.bytesBefore_succ he, ih (Nat.le_of_succ_le hm), List.take_add_one, hread,
        Option.toList_some, List.map_append, List.sum_append, List.map_singleton,
        List.sum_singleton, hsize]
  obtain ⟨e, he, hslot, hsize⟩ := h n r hr
  obtain ⟨-, -, -, hoffset⟩ := (hplaces.place e.key ⟨n, r.offset⟩).mp hslot
  dsimp only at hoffset
  have hend := contents.index.bytesBefore_le (n + 1)
  rw [Index.bytesBefore_succ he, recordBytes_eq_extent] at hend
  rw [← hsum n (Nat.le_refl n)]
  exact ⟨hoffset, by omega⟩

/-- **Reading records in order costs no move.** -/
theorem InOrder.moves_eq_zero {contents : Contents} {reads : List Reading}
    (h : InOrder contents reads) (hparse : Contents.parse content = .ok contents)
    (hheader : base.header = contents.header) (hlength : content.length = base.size) :
    Reading.moves base.header.dataOffset (reads.filter (Reading.isInside base)) = 0 := by
  have hall : reads.filter (Reading.isInside base) = reads := by
    refine List.filter_eq_self.mpr fun r hr => ?_
    obtain ⟨n, hn⟩ := List.mem_iff_getElem?.mp hr
    obtain ⟨hoffset, hend⟩ := h.offset_eq hparse hn
    refine decide_eq_true ⟨?_, hlength ▸ hend⟩
    rw [hheader, hoffset]
    exact Nat.le_add_right _ _
  rw [hall, hheader]
  exact Reading.moves_eq_zero reads _ fun n r hr => (h.offset_eq hparse hr).1

end BaseFile

/-! ## 6. Positions do not matter -/

/-- **A cursor behaves as if there were no position.**  If it starts with a true belief or with none,
each access answers and stores what it would by its offset alone; in the end the word for the
position is the position or the sentinel, so that the next access gets to its offset as well.

A base file is opened with the position where the records start.  While it is not altered, each
record is read as if it were the only one, and the position is moved just where a record does not
stand behind the last one that was inside the file.  In the order of their creation, records are
read without moving it. -/
theorem Cursor.positional :
    (∀ (cursor : Cursor) (content : Bytes) (accesses : List Access), cursor.Coherent →
      ∃ next : Cursor, cursor.performAll content accesses
          = (Access.answers content accesses, accesses.foldl Access.stores content, next) ∧
        (next.word = next.file.position ∨ next.word = UInt64.size - 1) ∧
        ∀ offset < 2 ^ 63, (next.seek offset).file.position = offset ∧
          next.seek offset = if next.word = offset then next
            else ⟨⟨offset⟩, some offset, next.seeks + 1⟩) ∧
    (∀ (fs : FileSystem) (path : String) (base : BaseFile) (contents : Contents),
      (BaseFile.open fs path).value = .ok (some (base, contents)) →
      ∃ content, fs.contentOf base.node = .ok content ∧
        base.cursor.file = (((⟨0⟩ : OpenFile).read content Header.size).2.read content
          contents.header.indexSize.toNat).2 ∧
        ∀ reads : List Reading, (∀ r ∈ reads, r.files.contentOf base.node = .ok content) →
          (base.readAll reads).1 = reads.map (Reading.answer base content) ∧
          (base.readAll reads).2.seeks
            = Reading.moves base.header.dataOffset (reads.filter (Reading.isInside base)) ∧
          (BaseFile.InOrder contents reads → (base.readAll reads).2.seeks = 0)) := by
  constructor
  · intro cursor content accesses h
    obtain ⟨hanswers, hcontent, hnext⟩ := performAll_eq accesses content h
    refine ⟨_, Prod.ext hanswers (Prod.ext hcontent rfl), word_cases hnext, fun offset hlt => ?_⟩
    exact ⟨position_seek hnext offset, seek_eq_word _ hlt⟩
  · intro fs path base contents hopen
    obtain ⟨node, content, -, hcontent, hparse, rfl⟩ := BaseFile.open_eq_some.mp hopen
    have hlength : content.length = (BaseFile.ofContents fs node contents).size :=
      (FileSystem.identityOf_size hcontent).symm
    refine ⟨content, hcontent, ?_, fun reads hreads => ?_⟩
    · exact congrArg OpenFile.mk (BaseFile.position_of_parse hparse).symm
    · obtain ⟨hanswers, hseeks⟩ := BaseFile.readAll_restingAt hlength reads
        contents.header.dataOffset 0 hreads
      rw [Nat.zero_add] at hseeks
      refine ⟨hanswers, hseeks, fun horder => ?_⟩
      exact hseeks.trans (horder.moves_eq_zero hparse rfl hlength)

/-- What the index of the two stores in `Session.pairFiles` says. -/
def pairContents : Contents :=
  .ofIndex ⟨[⟨[1], UInt64.ofNat (compress defaultLevel [2]).size, 1, none⟩,
    ⟨[3], UInt64.ofNat (compress defaultLevel [4]).size, 1, none⟩]⟩ defaultLevel

/-- Short accesses and one that is broken off do not disturb those behind them.  Nor does a record
that cannot be decoded: the next one is read without moving the position. -/
theorem positional_pairFiles :
    (∃ next, (Cursor.new 0).performAll [1, 2, 3]
        [.read 2 4, .write 5 [9], .copy 4 6, .broken (.other "device") 1 [7] 40, .read 0 3]
      = ([.error .shortRead, .ok [], .error (.shortCopy 2 6), .error (.other "device"),
          .ok [1, 7, 3]], [1, 7, 3, 0, 0, 9], next)) ∧
    ∃ base, (BaseFile.open Session.pairFiles "b").value = .ok (some (base, pairContents)) ∧
      (base.readAll [⟨Session.pairFiles, 97, 14, 1⟩, ⟨Session.pairFiles, 111, 14, 1⟩]).2.seeks
        = 0 := by
  obtain ⟨hcursor, hbase⟩ := Cursor.positional
  constructor
  · obtain ⟨next, h, -, -⟩ := hcursor (.new 0) [1, 2, 3]
      [.read 2 4, .write 5 [9], .copy 4 6, .broken (.other "device") 1 [7] 40, .read 0 3]
      (Cursor.coherent_new 0)
    exact ⟨next, h⟩
  · have hopen : (BaseFile.open Session.pairFiles "b").value
        = .ok (some (BaseFile.ofContents Session.pairFiles 2 pairContents, pairContents)) :=
      BaseFile.open_eq_some.mpr ⟨2, _, rfl, rfl, by decide +kernel, rfl⟩
    obtain ⟨content, hcontent, -, hreads⟩ := hbase _ _ _ _ hopen
    obtain ⟨-, -, horder⟩ := hreads
      [⟨Session.pairFiles, 97, 14, 1⟩, ⟨Session.pairFiles, 111, 14, 1⟩]
      (List.forall_mem_cons.mpr ⟨hcontent, List.forall_mem_singleton.mpr hcontent⟩)
    refine ⟨_, hopen, horder fun n r hr => ?_⟩
    match n, hr with
    | 0, hr =>
      obtain rfl := Option.some.inj hr
      exact ⟨_, rfl, by decide +kernel, by decide +kernel⟩
    | 1, hr =>
      obtain rfl := Option.some.inj hr
      exact ⟨_, rfl, by decide +kernel, by decide +kernel⟩

end ConstStore
