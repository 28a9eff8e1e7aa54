/-
# Damage that stays in one record

Opening a store reads its front and its size, and fetching a record reads the bytes of that record.
The records do not overlap, so a file that has been altered inside one of them is opened as before,
and every other record is fetched as before.  A session keeps nothing of what went wrong: whatever
has been fetched and has failed until then, its cursors read where they are told to.

* `Bytes.SameOutside`: two byte strings that differ inside a region only.
* `Contents.slice_of_sameOutside`: damage to one record leaves the bytes of the others.
* `Reading.fetch_find`: what fetching a loaded record gives, as a function of its bytes.
* `Session.damage_stays_local`: the records of two such stores, compared.
-/
import ConstStore.Proofs.Damage
import ConstStore.Proofs.Session.Commit
import ConstStore.Proofs.Session.Values

namespace ConstStore

/-! ## 1. Regions -/

/-- Two byte strings that are the same outside a region. -/
def Bytes.SameOutside (bytes bytes' : Bytes) (offset size : Nat) : Prop :=
  ∀ n, n < offset ∨ offset + size ≤ n → bytes'[n]? = bytes[n]?

namespace Bytes.SameOutside

variable {bytes bytes' : Bytes} {offset size : Nat}

/-- A region apart from the one with the difference has the same bytes. -/
theorem slice_eq (h : SameOutside bytes bytes' offset size) {start length : Nat}
    (hapart : start + length ≤ offset ∨ offset + size ≤ start) :
    bytes'.slice start length = bytes.slice start length := by
  refine List.ext_getElem? fun n => ?_
  simp only [slice, List.getElem?_take, List.getElem?_drop]
  split
  · exact h _ (by omega)
  · rfl

theorem take_eq (h : SameOutside bytes bytes' offset size) {length : Nat} (hle : length ≤ offset) :
    bytes'.take length = bytes.take length := by
  have hslice := h.slice_eq (Or.inl (by omega) : 0 + length ≤ offset ∨ offset + size ≤ 0)
  exact hslice

/-- Only a region with bytes in it can hold a difference. -/
theorem size_pos (h : SameOutside bytes bytes' offset size) (hne : bytes' ≠ bytes) :
    0 < size := by
  refine Nat.pos_of_ne_zero fun hz => hne (List.ext_getElem? fun n => h n ?_)
  omega

/-- A change of one byte. -/
theorem set {n : Nat} (hle : offset ≤ n) (hlt : n < offset + size) (b : UInt8) :
    SameOutside bytes (bytes.set n b) offset size := by
  intro m hm
  exact List.getElem?_set_ne (by omega)

end Bytes.SameOutside

/-! ## 2. Records in a store -/

/-- **Records do not overlap.** -/
theorem extent_take_apart {spans : List Span} {i j : Nat} {s t : Span} (hs : spans[i]? = some s)
    (ht : spans[j]? = some t) (hne : i ≠ j) :
    extent (spans.take i) + s.size ≤ extent (spans.take j) ∨
      extent (spans.take j) + t.size ≤ extent (spans.take i) := by
  have hbefore : ∀ {i j : Nat} {s : Span}, spans[i]? = some s → i < j →
      extent (spans.take i) + s.size ≤ extent (spans.take j) := by
    intro i j s hs hlt
    have htake := extent_take_le (spans.take j) (i + 1)
    rw [List.take_take, Nat.min_eq_left hlt] at htake
    rw [extent_take_add_size hs]
    exact htake
  rcases Nat.lt_or_gt_of_ne hne with hlt | hlt
  · exact Or.inl (hbefore hs hlt)
  · exact Or.inr (hbefore ht hlt)

namespace Contents

variable {bytes bytes' : Bytes} {contents : Contents} {i j : Nat} {e other : Entry}

/-- Where a record starts. -/
def place (contents : Contents) (ordinal : Nat) : Nat :=
  contents.header.dataOffset + extent ((contents.index.entries.take ordinal).map Entry.span)

/-- A store with the same bytes but for one record is the same store. -/
theorem parse_of_sameOutside (h : parse bytes = .ok contents) {size : Nat}
    (hsame : bytes.SameOutside bytes' (contents.place i) size)
    (hlength : bytes'.length = bytes.length) : parse bytes' = .ok contents := by
  have hfront := hsame.take_eq (Nat.le_add_right contents.header.dataOffset _)
  rw [parse_of_front h (hlength ▸ dataOffset_le h) hfront, if_pos hlength]

/-- Its other records are there as they were. -/
theorem slice_of_sameOutside (he : contents.index.get? i = some e)
    (hsame : bytes.SameOutside bytes' (contents.place i) e.size.toNat)
    (hother : contents.index.get? j = some other) (hne : j ≠ i) :
    bytes'.slice (contents.place j) other.size.toNat
      = bytes.slice (contents.place j) other.size.toNat := by
  have hspan : ∀ {n : Nat} {entry : Entry}, contents.index.get? n = some entry →
      (contents.index.entries.map Entry.span)[n]? = some entry.span := by
    intro n entry hentry
    rw [List.getElem?_map, show contents.index.entries[n]? = some entry from hentry]
    rfl
  have hapart := extent_take_apart (hspan hother) (hspan he) hne
  rw [← List.map_take, ← List.map_take] at hapart
  simp only [Entry.span] at hapart
  exact hsame.slice_eq (by simp only [place]; omega)

end Contents

namespace Session

/-! ## 3. Sessions on a store -/

/-- What a session answers about a key: whether it finds it, where, and what fetching it gives. -/
def answers (session : Session) (files : FileSystem) (key : Bytes) :
    Bool × Option LastLookup × Except Error Bytes :=
  let (found, session) := session.find key
  (found, session.last, (session.fetch files).1)

/-- A session on a store with these bytes, which are what they were when it was opened. -/
structure Reading (session : Session) (files : FileSystem) (bytes : Bytes) (contents : Contents)
    (added : List Record) : Prop where
  holds : session.Holds contents.index.entries added
  start : session.dataStart = contents.header.dataOffset
  base : ∃ base, session.base = some base ∧ files.contentOf base.node = .ok bytes ∧
    bytes.length = base.size
  buffer : session.pending = none ↔ added = []

/-- A session has a buffer when it has added something. -/
theorem Reaches.pending_eq_none_iff {start session : Session} {loaded : List Entry}
    {added : List Record} (h : start.Reaches added session) (hs : start.Holds loaded [])
    (hstart : start.pending = none) : session.pending = none ↔ added = [] := by
  refine ⟨(h.holds hs).noBuffer, ?_⟩
  induction h with
  | start => exact fun _ => hstart
  | call fs c _ ih =>
    intro hnil
    obtain ⟨hbefore, hcall⟩ := List.append_eq_nil_iff.mp hnil
    exact (pending_call_eq_none_iff _ fs c).mpr ⟨ih hbefore, hcall⟩

/-- The base file of a session is the file at its path. -/
theorem base_of_load {fs : FileSystem} {path : String} {mode : Mode} {config : SessionConfig}
    {bytes : Bytes} {start : Session} (hload : fs.load path = .ok bytes) (hmode : mode ≠ .create)
    (hopen : (Session.open fs path mode config).value = .ok start) :
    ∀ base, start.base = some base → fs.contentOf base.node = .ok bytes := by
  intro base hbase
  obtain ⟨node, hnode, hbytes⟩ := Fallible.bind_eq_ok.mp hload
  have hvalue := open_of_file hnode hbytes hmode config
  rw [hopen, eq_comm] at hvalue
  obtain ⟨contents, -, rfl⟩ := Fallible.map_eq_ok.mp hvalue
  rw [← Option.some.inj hbase]
  exact hbytes

/-- Calls lead from a session on a store to sessions on it. -/
theorem reading_of_reaches {fs files : FileSystem} {path : String} {mode : Mode}
    {config : SessionConfig} {bytes : Bytes} {contents : Contents} {start session : Session}
    {added : List Record} (hload : fs.load path = .ok bytes) (hmode : mode ≠ .create)
    (hparse : Contents.parse bytes = .ok contents)
    (hopen : (Session.open fs path mode config).value = .ok start)
    (hreach : start.Reaches added session)
    (hfiles : ∀ base, start.base = some base → files.contentOf base.node = .ok bytes) :
    session.Reading files bytes contents added := by
  obtain ⟨node, hnode, hbytes⟩ := Fallible.bind_eq_ok.mp hload
  have hvalue := open_of_file hnode hbytes hmode config
  rw [hparse, hopen] at hvalue
  obtain rfl := Except.ok.inj hvalue
  have hstart := holds_ofBase hbytes hparse path hmode config
  obtain ⟨old, base, hold, hbase, hsetup⟩ : ∃ old base, some (BaseFile.ofContents fs node contents)
      = some old ∧ session.base = some base ∧ base.setup = old.setup :=
    hreach.reachable.sameSetup.base_cases.resolve_left fun hn => absurd hn.1 (by simp [ofBase])
  obtain rfl := Option.some.inj hold
  have hsize : base.size = (fs.identityOf node).size := congrArg (·.2.2.size) hsetup
  exact {
    holds := hreach.holds hstart
    start := dataStart_sameSetup hreach.reachable.sameSetup
    base := by
      refine ⟨base, hbase, ?_, (hsize.trans (FileSystem.identityOf_size hbytes)).symm⟩
      have hnode' : base.node = node := congrArg (·.1) hsetup
      rw [hnode']
      exact hfiles _ rfl
    buffer := hreach.pending_eq_none_iff hstart rfl }

namespace Reading

variable {session session' : Session} {files files' : FileSystem} {bytes bytes' : Bytes}
  {contents : Contents} {added added' : List Record} {j : Nat} {e : Entry}

/-- The place of a loaded record. -/
theorem get?_key (h : session.Reading files bytes contents added)
    (he : contents.index.get? j = some e) :
    session.lookup.get? e.key = some ⟨j, contents.place j⟩ := by
  obtain ⟨hlt, -⟩ := List.getElem?_eq_some_iff.mp he
  refine h.holds.get?_eq_some_iff.mpr ⟨e, ?_, rfl, ?_⟩
  · rw [Index.get?, h.holds.entries, List.getElem?_append_left hlt]
    exact he
  · rw [h.start, List.take_append_of_le_length (by rw [List.length_map]; exact hlt.le),
      ← List.map_take]
    rfl

/-- Where a loaded record is found. -/
theorem locate?_key (h : session.Reading files bytes contents added)
    (he : contents.index.get? j = some e) :
    session.locate? e.key = some (if contents.place j < bytes.length then
        ⟨e.key, j, .base, contents.place j, e.size.toNat, e.length.toNat⟩
      else ⟨e.key, j, .pending, contents.place j - bytes.length, e.size.toNat,
        e.length.toNat⟩) := by
  obtain ⟨base, hbase, -, hlength⟩ := h.base
  obtain ⟨e', he', -, hl⟩ := h.holds.locate?_eq (h.get?_key he)
  obtain rfl : e' = e := by
    obtain ⟨hlt, -⟩ := List.getElem?_eq_some_iff.mp he
    rw [Index.get?, h.holds.entries, List.getElem?_append_left hlt] at he'
    exact Option.some.inj (he'.symm.trans he)
  have hsize : session.baseSize = bytes.length := by
    rw [hlength]
    simp only [baseSize, hbase]
  rw [hl, hsize]

/-- **What fetching a loaded record gives depends on the bytes of that record**, and on nothing
that was called before.  A trailing record is taken for a pending one, and so it depends on
whether there is a buffer. -/
theorem fetch_find (h : session.Reading files bytes contents added)
    (he : contents.index.get? j = some e) :
    (¬ Trailing contents.index.entries j → ((session.find e.key).2.fetch files).1
        = decompress (bytes.slice (contents.place j) e.size.toNat) e.length.toNat) ∧
      (Trailing contents.index.entries j → ((session.find e.key).2.fetch files).1
        = if added = [] then .error (.format .outsidePending)
          else decompress [] e.length.toNat) := by
  obtain ⟨hlt, hget⟩ := List.getElem?_eq_some_iff.mp he
  obtain ⟨base, hbase, hcontent, hlength⟩ := h.base
  obtain ⟨last, hl, hordinal, hsize, hlen⟩ : ∃ last, session.locate? e.key = some last ∧
      last.ordinal = j ∧ last.size = e.size.toNat ∧ last.length = e.length.toNat := by
    refine ⟨_, h.locate?_key he, ?_, ?_, ?_⟩ <;> split <;> rfl
  obtain ⟨-, -, -, -, howner, htrailing⟩ := h.holds.owner_of_locate? hl
  have hf := holds_find h.holds e.key
  constructor
  · intro ht
    have howner := howner (hordinal ▸ ht)
    have hplace : last.offset = contents.place j := by
      rw [owner, hordinal, if_pos hlt, h.start] at howner
      exact (Prod.mk.inj howner).2
    rw [hf.fetch_loaded hbase hcontent hlength hl (hordinal ▸ hlt) howner
      (by simp only [hordinal, hsize, hget]), hplace, hsize, hlen]
  · intro ht
    have hzero : last.size = 0 := by
      rw [hsize, ht.size_eq_zero he]
      rfl
    rw [hf.fetch_trailing files hl (htrailing (hordinal ▸ ht)) hzero, hlen]
    exact if_congr h.buffer rfl rfl

/-- **Two stores that have the same bytes in a record give the same answers about it.** -/
theorem answers_eq (h : session.Reading files bytes contents added)
    (h' : session'.Reading files' bytes' contents added') (he : contents.index.get? j = some e)
    (hlength : bytes'.length = bytes.length)
    (hslice : bytes'.slice (contents.place j) e.size.toNat
      = bytes.slice (contents.place j) e.size.toNat)
    (hadded : added' = [] ↔ added = []) :
    session'.answers files' e.key = session.answers files e.key := by
  have hl := h.locate?_key he
  have hl' := h'.locate?_key he
  rw [hlength, ← hl] at hl'
  have hfetch : ((session'.find e.key).2.fetch files').1
      = ((session.find e.key).2.fetch files).1 := by
    by_cases ht : Trailing contents.index.entries j
    · rw [(h.fetch_find he).2 ht, (h'.fetch_find he).2 ht]
      exact if_congr hadded rfl rfl
    · rw [(h.fetch_find he).1 ht, (h'.fetch_find he).1 ht, hslice]
  simp only [answers, hfetch]
  simp only [find, hl']

end Reading

/-! ## 4. Damage -/

/-- **Record damage stays local.**  A file is opened, and there is another one of the same length
that differs from it, but only in the bytes of one record.  Then the other file is opened too, with
the same index, lookup and header.

Whatever is called on the two sessions and whatever comes of it, as long as both have additions or
neither has: looking for any other loaded record and then fetching it gives the same in both.
Fetching the damaged record gives as many bytes as its entry tells, or an error that says that the
bytes cannot be decoded or have another length. -/
theorem damage_stays_local {fs fs' : FileSystem} {path path' : String} {bytes bytes' : Bytes}
    {mode mode' : Mode} {config : SessionConfig} {start : Session} {i offset : Nat} {e : Entry}
    (hload : fs.load path = .ok bytes) (hmode : mode ≠ .create)
    (hopen : (Session.open fs path mode config).value = .ok start)
    (he : start.index.get? i = some e) (hslot : start.lookup.get? e.key = some ⟨i, offset⟩)
    (hload' : fs'.load path' = .ok bytes') (hmode' : mode' ≠ .create)
    (hlength : bytes'.length = bytes.length) (hne : bytes' ≠ bytes)
    (hsame : bytes.SameOutside bytes' offset e.size.toNat) (config' : SessionConfig) :
    ∃ start', (Session.open fs' path' mode' config').value = .ok start' ∧
      start'.index = start.index ∧ start'.lookup = start.lookup ∧
      start'.header? = start.header? ∧
      ∀ added added' session session', start.Reaches added session →
        start'.Reaches added' session' → ∀ files files' : FileSystem,
        (∀ base, start.base = some base → files.contentOf base.node = .ok bytes) →
        (∀ base, start'.base = some base → files'.contentOf base.node = .ok bytes') →
        ((added' = [] ↔ added = []) → ∀ j other, j ≠ i → start.index.get? j = some other →
          (session'.find other.key).1 = true ∧
            session'.answers files' other.key = session.answers files other.key) ∧
        (session'.find e.key).1 = true ∧
        Readable ((session'.find e.key).2.fetch files').1 ∧
        ∀ value, ((session'.find e.key).2.fetch files').1 = .ok value →
          value.length = e.length.toNat := by
  obtain ⟨node, hvalue⟩ := open_of_load hload hmode config
  obtain ⟨node', hvalue'⟩ := open_of_load hload' hmode' config'
  rw [hopen, eq_comm] at hvalue
  obtain ⟨contents, hparse, rfl⟩ := Fallible.map_eq_ok.mp hvalue
  have hindex : contents.index.get? i = some e := he
  obtain rfl : contents.place i = offset := by
    have hread := reading_of_reaches hload hmode hparse hopen .start
      (base_of_load hload hmode hopen)
    exact (Slot.mk.inj (Option.some.inj ((hread.get?_key hindex).symm.trans hslot))).2
  have hparse' := Contents.parse_of_sameOutside hparse hsame hlength
  rw [hparse'] at hvalue'
  refine ⟨_, hvalue', rfl, rfl, rfl, ?_⟩
  intro added added' session session' hreach hreach' files files' hfiles hfiles'
  have h := reading_of_reaches hload hmode hparse hopen hreach hfiles
  have h' := reading_of_reaches hload' hmode' hparse' hvalue' hreach' hfiles'
  have hfound : ∀ {j : Nat} {other : Entry}, contents.index.get? j = some other →
      (session'.find other.key).1 = true := by
    intro j other hother
    rw [find, h'.locate?_key hother]
    rfl
  refine ⟨fun hadded j other hj hother => ⟨hfound hother, ?_⟩, hfound hindex, ?_⟩
  · exact h.answers_eq h' hother hlength (Contents.slice_of_sameOutside hindex hsame hother hj)
      hadded
  · -- a record that has been altered has bytes, so it does not trail
    have htrailing : ¬ Trailing contents.index.entries i := by
      intro ht
      have hpos := hsame.size_pos hne
      rw [ht.size_eq_zero hindex] at hpos
      exact absurd hpos (by decide)
    rw [(h'.fetch_find hindex).1 htrailing]
    exact ⟨readable_decompress _ _, fun value hvalue => (decompress_eq_ok_iff.mp hvalue).2⟩

/-- A store of two records. -/
def pairStore : Bytes :=
  Contents.front ⟨[⟨[1], UInt64.ofNat (compress defaultLevel [2]).size, 1, none⟩,
    ⟨[3], UInt64.ofNat (compress defaultLevel [4]).size, 1, none⟩]⟩ defaultLevel
    ++ ((compress defaultLevel [2]).bytes ++ (compress defaultLevel [4]).bytes)

/-- A file system with that store, and with one in which the last byte of the first record is
another one. -/
def pairFiles : FileSystem where
  nodes := #[.directory ⟨[("a", 1), ("b", 2)], FileSystem.root, 0o755, 0⟩,
    .file ⟨pairStore, 0o644, 0⟩, .file ⟨pairStore.set 110 0, 0o644, 0⟩]
  clock := 2

/-- The session on the store. -/
def pairSession : Session :=
  match (Session.open pairFiles "a" .read .default).value with
  | .ok session => session
  | .error _ => ofNothing "a" .default .absent

/-- The damaged record cannot be read any more; after an attempt to read it, the other record is
read as in the intact store. -/
theorem damage_stays_local_lastByte : ∃ damaged,
    (Session.open pairFiles "b" .read .default).value = .ok damaged ∧
      damaged.index = pairSession.index ∧
      Readable ((damaged.find [1]).2.fetch pairFiles).1 ∧
      (damaged.call pairFiles (.get [1])).2.answers pairFiles [3]
        = pairSession.answers pairFiles [3] := by
  have hopen : (Session.open pairFiles "a" .read .default).value = .ok pairSession := by
    decide +kernel
  have hfirst : pairSession.index.get? 0
      = some ⟨[1], UInt64.ofNat (compress defaultLevel [2]).size, 1, none⟩ := by decide +kernel
  have hslot : pairSession.lookup.get? [1] = some ⟨0, 97⟩ := by decide +kernel
  have hsame : pairStore.SameOutside (pairStore.set 110 0) 97
      (UInt64.ofNat (compress defaultLevel [2]).size).toNat :=
    .set (by decide) (by decide +kernel) 0
  have hload : pairFiles.load "b" = .ok (pairStore.set 110 0) := rfl
  obtain ⟨damaged, hdamaged, hindex, -, -, hlocal⟩ := damage_stays_local rfl (by decide) hopen
    hfirst hslot hload (by decide : Mode.read ≠ .create) (List.length_set ..) (by decide +kernel)
    hsame .default
  have hlocal := fun added' session' hreach => hlocal [] added' pairSession session' .start hreach
    pairFiles pairFiles (base_of_load rfl (by decide) hopen)
    (base_of_load hload (by decide) hdamaged)
  have hsecond : pairSession.index.get? 1
      = some ⟨[3], UInt64.ofNat (compress defaultLevel [4]).size, 1, none⟩ := by decide +kernel
  have hafter := hlocal [] _ (.call pairFiles (.get [1]) .start)
  exact ⟨damaged, hdamaged, hindex, (hlocal [] damaged .start).2.2.1,
    (hafter.1 Iff.rfl 1 _ (by decide) hsecond).2⟩

end Session
end ConstStore
