/-
# What is in store

Who takes down the acts on a path with their answers knows of items that have to be there: those
that were in store when a session was opened, and those that it has added, are in this session, and
when it commits they are in store.  An `Inventory` is taken like that.  It has no files and needs
no knowledge of what was at the path in the beginning, or of who has been faster.

* `Inventory.note`: what an act and its answer tell.
* `Stored.Gives`: the entry of an item is there, and the bytes of its record.
* `Stock.Describes`: how an open session is related to what the inventory says of it.
* `Inventory.Describes.act`: one act keeps the world as the inventory says.
* `Inventory.Describes.fetch`: what is in a session can be found and fetched there.

A session is known by the files that it was opened on.  No file of theirs is ever altered, so what
was loaded there can still be read; and while the path leads where it led then, this is what is in
store.
-/
import ConstStore.Proofs.Preservation
import ConstStore.Proofs.Race
import ConstStore.Proofs.Session.Values

namespace ConstStore

/-! ## 1. Inventories -/

/-- The items that a call has added, going by its answer. -/
def Call.items (c : Call) (answer : c.Answer) : List Item :=
  (Session.additions defaultLevel c answer).map Record.toItem

/-- At which level they are compressed plays no part. -/
theorem Call.map_toItem_additions (level : Zstd.Level) (c : Call) (answer : c.Answer) :
    (Session.additions level c answer).map Record.toItem = c.items answer := by
  have haccepted : ∀ (item : Item) (answer : Except Error Bool),
      (Session.accepted ⟨item, level⟩ answer).map Record.toItem
        = (Session.accepted ⟨item, defaultLevel⟩ answer).map Record.toItem := by
    intro item answer
    rcases answer with error | _ | _ <;> rfl
  cases c with
  | add key value metadata => exact haccepted ⟨key, value, metadata⟩ answer
  | addValue codec key value metadata => exact haccepted ⟨key, codec.encode value, metadata⟩ answer
  | contains _ | find _ | fetch | get _ | metadata | last | size | info | fetchValue _ => rfl

/-- What is known of an open session. -/
structure Stock where
  /-- The mode that was asked for. -/
  mode : Mode
  /-- What was in store when it was opened, unless a new store was to be started. -/
  seen : List Item
  added : List Item

namespace Stock

/-- What is to be found in the session. -/
def items (s : Stock) : List Item := s.seen ++ s.added

/-- What is in store when the session has committed. -/
def publish (s : Stock) (store : List Item) : List Item :=
  (if s.mode = .create then [] else store) ++ s.items

end Stock

/-- What is known of the sessions and of the store. -/
structure Inventory where
  sessions : Nat → Option Stock
  store : List Item

namespace Inventory

/-- Nothing is known. -/
def start : Inventory := ⟨fun _ => none, []⟩

/-- The inventory with what is known of the session under a handle. -/
def put (i : Inventory) (handle : Nat) (s : Option Stock) : Inventory :=
  { i with sessions := Function.update i.sessions handle s }

/-- The session under a handle has been closed. -/
def closed (i : Inventory) (handle : Nat) : Option (Except Error Outcome) → Inventory
  | some (.ok (.committed _)) =>
    { i.put handle none with store := (i.sessions handle).elim i.store (·.publish i.store) }
  | _ => i.put handle none

/-- Notes an act and its answer. -/
def note (i : Inventory) (handle : Nat) : (a : Act) → Option a.Answer → Inventory
  | .open mode _, some (.ok _) =>
    i.put handle (some ⟨mode, if mode = .create then [] else i.store, []⟩)
  | .call c, some answer =>
    i.put handle ((i.sessions handle).map fun s => { s with added := s.added ++ c.items answer })
  | .close _, answer => i.closed handle answer
  | .drop, _ => i.put handle none
  | _, _ => i

/-- The inventory of a run. -/
def ofEvents (events : List Event) : Inventory :=
  events.foldl (fun i event => i.note event.handle event.act event.answer) start

theorem ofEvents_append (events : List Event) (event : Event) :
    ofEvents (events ++ [event])
      = (ofEvents events).note event.handle event.act event.answer := by
  rw [ofEvents, List.foldl_append]
  rfl

variable {i : Inventory} {handle other : Nat}

/-- What is known of a session does not depend on what is done with other handles. -/
theorem sessions_note_of_ne (h : handle ≠ other) (a : Act) (answer : Option a.Answer) :
    (i.note other a answer).sessions handle = i.sessions handle := by
  have hput : ∀ s, (i.put other s).sessions handle = i.sessions handle := by
    intro s
    simp only [put, Function.update_of_ne h]
  cases a with
  | «open» mode config =>
    rcases answer with _ | _ | _
    · rfl
    · rfl
    · exact hput _
  | call c =>
    cases answer with
    | none => rfl
    | some answer => exact hput _
  | drop => exact hput _
  | close force =>
    rcases answer with _ | _ | outcome
    · exact hput none
    · exact hput none
    · cases outcome <;> exact hput none

/-- A call adds to what is known of its session. -/
theorem sessions_note_call {s : Stock} (h : i.sessions handle = some s) (c : Call)
    (answer : c.Answer) : (i.note handle (.call c) (some answer)).sessions handle
      = some { s with added := s.added ++ c.items answer } := by
  simp only [note, put, h, Option.map_some, Function.update_self]

/-- **What is in a session stays there**, whatever is called. -/
theorem items_note {s : Stock} (h : i.sessions handle = some s) (a : Act)
    (answer : Option a.Answer) (ha : other = handle → ∃ c, a = .call c) :
    ∃ s', (i.note other a answer).sessions handle = some s' ∧ s.items <+: s'.items := by
  by_cases he : handle = other
  · obtain ⟨c, rfl⟩ := ha he.symm
    subst he
    cases answer with
    | none => exact ⟨s, h, List.prefix_refl _⟩
    | some answer =>
      refine ⟨_, sessions_note_call h c answer, ?_⟩
      simp only [Stock.items, ← List.append_assoc]
      exact List.prefix_append _ _
  · exact ⟨s, (sessions_note_of_ne he a answer).trans h, List.prefix_refl _⟩

/-- **What is in store stays there**, unless a session commits that was to start a new store. -/
theorem store_note (a : Act) (answer : Option a.Answer)
    (h : a.commits answer = true → ∀ s ∈ i.sessions handle, s.mode ≠ .create) :
    i.store <+: (i.note handle a answer).store := by
  cases a with
  | «open» mode config => rcases answer with _ | _ | _ <;> exact List.prefix_refl _
  | call c => cases answer <;> exact List.prefix_refl _
  | drop => exact List.prefix_refl _
  | close force =>
    rcases answer with _ | _ | outcome
    · exact List.prefix_refl _
    · exact List.prefix_refl _
    cases outcome with
    | noChanges | discarded _ | conflictLoss _ => exact List.prefix_refl _
    | committed n =>
      show i.store <+: (i.sessions handle).elim i.store (·.publish i.store)
      cases hs : i.sessions handle with
      | none => exact List.prefix_refl _
      | some s =>
        rw [Option.elim_some, Stock.publish, if_neg (h rfl s hs)]
        exact List.prefix_append _ _

end Inventory

/-! ## 2. Stores that give items -/

namespace Stored

/-- The entry has the key of an item, and the bytes of its record are those of the value. -/
structure GivesAt (stored : Stored) (item : Item) (n : Nat) (e : Entry) : Prop where
  entry : stored.entries[n]? = some e
  key : e.key = item.key
  size : e.size ≠ 0
  inside : extent ((stored.entries.take n).map Entry.span) + e.size.toNat ≤ stored.region.length
  value : decompress (stored.region.slice (extent ((stored.entries.take n).map Entry.span))
    e.size.toNat) e.length.toNat = .ok item.value

/-- The store gives these items, unless the length of a value is beyond 2^64. -/
def Gives (stored : Stored) (items : List Item) : Prop :=
  ∀ item ∈ items, item.value.length < UInt64.size → ∃ n e, stored.GivesAt item n e

variable {stored : Stored} {items more : List Item} {added : List Record}

theorem gives_nil (stored : Stored) : stored.Gives [] := nofun

theorem Gives.append (h : stored.Gives items) (h' : stored.Gives more) :
    stored.Gives (items ++ more) := fun item hitem =>
  (List.mem_append.mp hitem).elim (h item) (h' item)

/-- More records behind the others leave them where they are. -/
theorem Gives.extend (h : stored.Gives items) (added : List Record) :
    (stored.extend added).Gives items := by
  intro item hitem hvalue
  obtain ⟨n, e, hat⟩ := h item hitem hvalue
  obtain ⟨hlt, -⟩ := List.getElem?_eq_some_iff.mp hat.entry
  have htake : (stored.extend added).entries.take n = stored.entries.take n :=
    List.take_append_of_le_length (Nat.le_of_lt hlt)
  refine ⟨n, e, ?_, hat.key, hat.size, ?_, ?_⟩
  · exact (List.getElem?_append_left hlt).trans hat.entry
  · rw [htake, Stored.extend, List.length_append]
    exact Nat.le_add_right_of_le hat.inside
  · rw [htake, Stored.extend, Bytes.slice_append_left hat.inside]
    exact hat.value

/-- **Records behind a store that is complete can be read there.** -/
theorem gives_added (hregion : stored.region.length = extent (stored.entries.map Entry.span))
    (hsize : (Record.frames added).length < UInt64.size) :
    (stored.extend added).Gives (added.map Record.toItem) := by
  intro item hitem hvalue
  obtain ⟨r, hr, rfl⟩ := List.mem_map.mp hitem
  obtain ⟨n, hn⟩ := List.mem_iff_getElem?.mp hr
  have hfits : r.Fits := ⟨Nat.lt_of_le_of_lt (Record.length_frame_le hr) hsize, hvalue⟩
  obtain ⟨hslice, hend⟩ := Record.slice_frames hn
  have hfront : extent (((stored.extend added).entries.take (stored.entries.length + n)).map
      Entry.span) = stored.region.length + (Record.frames (added.take n)).length := by
    have hle : (Record.frames (added.take n)).length < UInt64.size := by omega
    rw [extend, List.take_length_add_append, List.map_append, extent_append, ← hregion,
      ← List.map_take, Record.map_span_entry hle, Record.length_frames]
  refine ⟨stored.entries.length + n, r.entry, ?_, rfl, ?_, ?_, ?_⟩
  · rw [extend, List.getElem?_append_right (Nat.le_add_right _ _), Nat.add_sub_cancel_left,
      List.getElem?_map, hn]
    rfl
  · intro hzero
    have hpos := size_compress_pos r.level r.value
    have hsize := hfits.size_entry
    rw [hzero] at hsize
    exact absurd hsize (Nat.ne_of_lt hpos)
  · rw [hfront, hfits.size_entry, extend, List.length_append]
    omega
  · rw [hfront, hfits.size_entry, hfits.length_entry, extend, ← Bytes.slice_drop,
      List.drop_left, hslice]
    exact decompress_compress r.level r.value

end Stored

/-- **What a session has loaded can be found and fetched** as long as its base file is there. -/
theorem Session.Holds.fetch_of_gives {session : Session} {loaded : List Entry}
    {added : List Record} (h : session.Holds loaded added) {files : FileSystem}
    (hbase : session.BaseIn files) {item : Item} {n : Nat} {e : Entry}
    (hat : Stored.GivesAt ⟨loaded, session.region files⟩ item n e) :
    (session.find item.key).1 = true ∧
      ((session.find item.key).2.fetch files).1 = .ok item.value := by
  obtain ⟨hlt, -⟩ := List.getElem?_eq_some_iff.mp hat.entry
  have he : session.index.get? n = some e := by
    rw [Index.get?, h.entries, List.getElem?_append_left hlt]
    exact hat.entry
  obtain ⟨last, hl, rfl⟩ := h.exists_locate? he
  rw [hat.key] at hl
  obtain ⟨e', he', -, ⟨-, hsize, hlength⟩, howner, -⟩ := h.owner_of_locate? hl
  obtain rfl := Option.some.inj (he.symm.trans he')
  have howner := howner fun ht => hat.size (ht.size_eq_zero hat.entry)
  have hlast : (session.find item.key).2.last = some last := hl
  refine ⟨Option.isSome_iff_exists.mpr ⟨last, hl⟩, ?_⟩
  have hf := holds_find h item.key
  rw [hf.fetch_region hbase hlast hat.entry howner hsize, hsize, hlength]
  exact hat.value

/-! ## 3. Sessions -/

/-- The session was opened, and calls on it have added these records.  It has loaded what it is
known to have seen. -/
structure Stock.Describes (s : Stock) (opened : FileSystem) (start : Session)
    (records : List Record) (files : FileSystem) (path : String) (session : Session) : Prop where
  kept : ∃ changed, opened.Keeps files changed
  started : ∃ config, (Session.open opened path s.mode config).value = .ok start
  reached : start.Reaches records session
  seen : Stored.Gives ⟨start.index.entries, start.region opened⟩ s.seen
  added : records.map Record.toItem = s.added

namespace Stock.Describes

variable {s : Stock} {opened files files' : FileSystem} {start session : Session}
  {records : List Record} {path : String}

theorem holds (h : s.Describes opened start records files path session) :
    session.Holds start.index.entries records := by
  obtain ⟨config, hopen⟩ := h.started
  exact h.reached.holds (Session.holds_open hopen)

theorem sameSetup (h : s.Describes opened start records files path session) :
    Session.SameSetup start session := h.reached.reachable.sameSetup

theorem path_eq (h : s.Describes opened start records files path session) :
    session.path = path := by
  obtain ⟨config, hopen⟩ := h.started
  exact h.sameSetup.path.trans (Session.opened_with hopen).1

theorem base_start (h : s.Describes opened start records files path session) :
    start.BaseIn opened := by
  obtain ⟨config, hopen⟩ := h.started
  exact fun base hb => Session.base_of_open hopen hb

theorem base (h : s.Describes opened start records files path session) :
    session.BaseIn files := by
  obtain ⟨changed, hkeeps⟩ := h.kept
  exact (h.base_start.keeps hkeeps).sameSetup h.sameSetup

theorem region_eq (h : s.Describes opened start records files path session) :
    session.region files = start.region opened := by
  obtain ⟨changed, hkeeps⟩ := h.kept
  exact (Session.region_sameSetup h.sameSetup files).trans (h.base_start.region_eq hkeeps)

theorem length_region (h : s.Describes opened start records files path session) :
    (start.region opened).length = extent (start.index.entries.map Entry.span) := by
  obtain ⟨config, hopen⟩ := h.started
  exact Session.length_region (Session.holds_open hopen) h.base_start

theorem length_frames_lt (h : s.Describes opened start records files path session)
    (hfits : session.Fits) : (Record.frames records).length < UInt64.size := by
  rw [h.holds.length_frames]
  exact hfits.pendingBytes_lt

/-- Files are kept by all that happens to them. -/
theorem keeps (h : s.Describes opened start records files path session)
    {changed : NodeId → String → Prop} (hkeeps : files.Keeps files' changed) :
    s.Describes opened start records files' path session := by
  obtain ⟨before, hbefore⟩ := h.kept
  exact { h with kept := ⟨_, hbefore.trans hkeeps⟩ }

/-- A call adds what its answer tells of. -/
theorem call (h : s.Describes opened start records files path session) (c : Call) :
    Stock.Describes { s with added := s.added ++ c.items (session.call files c).1 } opened start
      (records ++ Session.additions session.config.level c (session.call files c).1) files path
      (session.call files c).2 where
  kept := h.kept
  started := h.started
  reached := .call files c h.reached
  seen := h.seen
  added := by rw [List.map_append, h.added, Call.map_toItem_additions]

/-- **What is known to be in a session can be found and fetched there.** -/
theorem fetch (h : s.Describes opened start records files path session)
    (hpending : session.pendingBytes < UInt64.size) {item : Item} (hitem : item ∈ s.items)
    (hvalue : item.value.length < UInt64.size) :
    (session.find item.key).1 = true ∧
      ((session.find item.key).2.fetch files).1 = .ok item.value := by
  rcases List.mem_append.mp hitem with hseen | hadded
  · obtain ⟨n, e, hat⟩ := h.seen item hseen hvalue
    rw [← h.region_eq] at hat
    exact h.holds.fetch_of_gives h.base hat
  · rw [← h.added] at hadded
    obtain ⟨r, hr, rfl⟩ := List.mem_map.mp hadded
    exact h.holds.fetch_of_mem hpending hr hvalue files

end Stock.Describes

/-! ## 4. Worlds -/

/-- The world is as the inventory says. -/
structure Inventory.Describes (i : Inventory) (w : World) : Prop where
  grounded : w.files.Grounded
  sessions : ∀ handle, Option.Rel (fun s session => ∃ opened start records,
    s.Describes opened start records w.files w.path session) (i.sessions handle)
      (w.sessions handle)
  absent : w.files.follow w.path = .error .notFound → i.store = []
  store : ∀ node bytes contents, w.files.follow w.path = .ok node →
    w.files.contentOf node = .ok bytes → Contents.parse bytes = .ok contents →
    Stored.Gives ⟨contents.index.entries, bytes.drop contents.header.dataOffset⟩ i.store

namespace Inventory.Describes

variable {i : Inventory} {w : World} {handle : Nat} {s : Stock} {session : Session}
  {opened : FileSystem} {start : Session} {records : List Record}

theorem sessions_eq_none (h : i.Describes w) (hs : w.sessions handle = none) :
    i.sessions handle = none := by
  have hrel := h.sessions handle
  rw [hs] at hrel
  generalize i.sessions handle = known at hrel ⊢
  cases hrel
  rfl

theorem exists_stock (h : i.Describes w) (hs : w.sessions handle = some session) :
    ∃ s opened start records, i.sessions handle = some s ∧
      s.Describes opened start records w.files w.path session := by
  have hrel := h.sessions handle
  rw [hs] at hrel
  generalize i.sessions handle = known at hrel ⊢
  cases hrel with
  | some hd =>
    obtain ⟨opened, start, records, hd⟩ := hd
    exact ⟨_, opened, start, records, rfl, hd⟩

theorem exists_session (h : i.Describes w) (hs : i.sessions handle = some s) :
    ∃ session opened start records, w.sessions handle = some session ∧
      s.Describes opened start records w.files w.path session := by
  have hrel := h.sessions handle
  rw [hs] at hrel
  generalize w.sessions handle = found at hrel ⊢
  cases hrel with
  | some hd =>
    obtain ⟨opened, start, records, hd⟩ := hd
    exact ⟨_, opened, start, records, rfl, hd⟩

/-- Another session, or none, under one handle. -/
theorem put (h : i.Describes w) (handle : Nat) {known : Option Stock} {found : Option Session}
    (hrel : Option.Rel (fun s session => ∃ opened start records,
      s.Describes opened start records w.files w.path session) known found) :
    (i.put handle known).Describes (w.put handle found) where
  grounded := h.grounded
  sessions := by
    intro other
    by_cases he : other = handle
    · subst he
      simp only [Inventory.put, World.put, Function.update_self]
      exact hrel
    · simp only [Inventory.put, World.put, Function.update_of_ne he]
      exact h.sessions other
  absent := h.absent
  store := h.store

/-- Sessions do not mind what happens to the files. -/
theorem sessions_keeps (h : i.Describes w) {files' : FileSystem}
    {changed : NodeId → String → Prop} (hkeeps : w.files.Keeps files' changed) (handle : Nat) :
    Option.Rel (fun s session => ∃ opened start records,
      s.Describes opened start records files' w.path session) (i.sessions handle)
        (w.sessions handle) := by
  have hrel := h.sessions handle
  generalize i.sessions handle = known at hrel ⊢
  generalize w.sessions handle = found at hrel ⊢
  cases hrel with
  | none => exact .none
  | some hd =>
    obtain ⟨opened, start, records, hd⟩ := hd
    exact .some ⟨opened, start, records, hd.keeps hkeeps⟩

/-- Files that have changed unnoticed. -/
theorem same (h : i.Describes w) {files' : FileSystem} (hs : w.files.Same files') :
    i.Describes { w with files := files' } where
  grounded := hs.grounded h.grounded
  sessions := h.sessions_keeps hs
  absent := fun hf => h.absent ((hs.follow_eq w.path).symm.trans hf)
  store := by
    intro node bytes contents hf hc hparse
    have hf := (hs.follow_eq w.path).symm.trans hf
    rcases FileSystem.follow_cases h.grounded hf with hdir | ⟨bytes', hc'⟩
    · rw [← FileSystem.Keeps.isDirectory_eq hs, FileSystem.isDirectory_of_contentOf hc] at hdir
      exact absurd hdir (by simp)
    · obtain rfl := Except.ok.inj (hc.symm.trans (FileSystem.Keeps.contentOf_eq_ok hs hc'))
      exact h.store node bytes contents hf hc' hparse

/-- **A session that is opened has seen what is in store**, unless it starts a new one. -/
theorem ofOpen (h : i.Describes w) {mode : Mode} {config : SessionConfig}
    (ho : (Session.open w.files w.path mode config).value = .ok session) :
    Stock.Describes ⟨mode, if mode = .create then [] else i.store, []⟩ w.files session []
      w.files w.path session where
  kept := ⟨_, .refl w.files⟩
  started := ⟨config, ho⟩
  reached := .start
  added := rfl
  seen := by
    by_cases hm : mode = .create
    · rw [if_pos hm]
      exact Stored.gives_nil _
    · rw [if_neg hm]
      rcases Session.open_eq_ok.mp ho with ⟨-, base, contents, hb, rfl⟩ | ⟨hnew, snapshot, -, rfl⟩
      · obtain ⟨node, bytes, hnode, hbytes, hparse, rfl⟩ := BaseFile.open_eq_some.mp hb
        have hstore := h.store node bytes contents hnode hbytes hparse
        simp only [Session.region, Session.ofBase, BaseFile.ofContents, hbytes]
        exact hstore
      · rw [h.absent (BaseFile.open_eq_none.mp (hnew.resolve_left hm).2)]
        exact Stored.gives_nil _

/-- **A session that finds the path as it was has loaded what is in store**, unless it starts a
new one. -/
theorem gives_of_current (h : i.Describes w)
    (hd : s.Describes opened start records w.files w.path session) (hm : s.mode ≠ .create)
    {files : FileSystem} (hfollow : files.follow w.path = w.files.follow w.path)
    (htake : Snapshot.take files w.path = .ok session.snapshot) :
    Stored.Gives ⟨start.index.entries, start.region opened⟩ i.store := by
  obtain ⟨config, hopen⟩ := hd.started
  obtain ⟨changed, hkeeps⟩ := hd.kept
  rw [hd.sameSetup.snapshot] at htake
  rcases Session.open_eq_ok.mp hopen with ⟨-, base, contents, hb, rfl⟩ | ⟨hnew, snapshot, hs, rfl⟩
  · obtain ⟨node, bytes, -, hbytes, hparse, rfl⟩ := BaseFile.open_eq_some.mp hb
    obtain ⟨now, hnow, hidentity⟩ := Snapshot.take_eq_present.mp htake
    -- files are told apart by their nodes
    have hnode := congrArg Identity.node hidentity
    rw [FileSystem.node_identityOf] at hnode
    simp only [BaseFile.ofContents, FileSystem.node_identityOf] at hnode
    subst hnode
    have hstore := h.store node bytes contents (hfollow.symm.trans hnow)
      (hkeeps.contentOf_eq_ok hbytes) hparse
    simp only [Session.region, Session.ofBase, BaseFile.ofContents, hbytes]
    exact hstore
  · have hnone := BaseFile.open_eq_none.mp (hnew.resolve_left hm).2
    obtain rfl := Except.ok.inj (hs.symm.trans (Snapshot.take_eq_absent.mpr hnone))
    rw [h.absent (hfollow.symm.trans (Snapshot.take_eq_absent.mp htake))]
    exact Stored.gives_nil _

/-- What a commit puts in place is what was loaded and what was added. -/
theorem parse_of_publishes
    (hd : s.Describes opened start records w.files w.path session) (hfits : session.Fits)
    {buffer : PendingBuffer} {final : FileSystem} {place : FileSystem.Location} {bytes : Bytes}
    (hb : session.pending = some buffer)
    (hp : session.Publishes buffer w.files final place bytes) :
    ∃ contents, Contents.parse bytes = .ok contents ∧
      (⟨contents.index.entries, bytes.drop contents.header.dataOffset⟩ : Stored)
        = Stored.extend ⟨start.index.entries, start.region opened⟩ records := by
  have hholds := hd.holds
  obtain ⟨files, changed, hkeeps, himage⟩ := hp.image
  rw [Session.image_eq hholds (hholds.buffer buffer hb) (hd.base.keeps hkeeps)
    (hd.length_frames_lt hfits), hd.base.region_eq hkeeps] at himage
  obtain rfl := Except.ok.inj himage
  obtain ⟨hparse, hstart⟩ := Session.parse_newStore hholds hd.base hfits
  refine ⟨_, hparse, ?_⟩
  rw [hstart, Session.imageFront_eq, List.drop_left, hd.region_eq, Contents.ofIndex,
    hholds.entries, Stored.extend]

/-- It gives what was in store, unless a new store was to be started, and what was added. -/
theorem gives_publish (h : i.Describes w)
    (hd : s.Describes opened start records w.files w.path session) (hfits : session.Fits)
    {buffer : PendingBuffer} {final : FileSystem} {place : FileSystem.Location} {bytes : Bytes}
    (hp : session.Publishes buffer w.files final place bytes) :
    (Stored.extend ⟨start.index.entries, start.region opened⟩ records).Gives
      (s.publish i.store) := by
  have hadded : (Stored.extend ⟨start.index.entries, start.region opened⟩ records).Gives
      (records.map Record.toItem) :=
    Stored.gives_added hd.length_region (hd.length_frames_lt hfits)
  rw [hd.added] at hadded
  refine Stored.Gives.append ?_ ((hd.seen.extend records).append hadded)
  by_cases hm : s.mode = .create
  · rw [if_pos hm]
    exact Stored.gives_nil _
  · obtain ⟨files, hfollow, htake⟩ := hp.current
    rw [hd.path_eq] at hfollow htake
    rw [if_neg hm]
    exact (h.gives_of_current hd hm hfollow htake).extend records

/-- **A commit puts in store what the session has added**, and leaves there what was, unless a
new store was to be started. -/
theorem commit (h : i.Describes w) (hi : i.sessions handle = some s)
    (hd : s.Describes opened start records w.files w.path session) (hfits : session.Fits)
    {buffer : PendingBuffer} {final : FileSystem} {place : FileSystem.Location} {bytes : Bytes}
    (hb : session.pending = some buffer)
    (hp : session.Publishes buffer w.files final place bytes) (n : Nat) :
    (i.closed handle (some (.ok (.committed n)))).Describes
      { w.put handle none with files := final } := by
  have hput := h.put handle (.none : Option.Rel _ none none)
  have hcases := hp.replaced.follow_cases hp.locate hp.slash
  rw [hd.path_eq] at hcases
  simp only [closed, hi, Option.elim_some]
  exact {
    grounded := hp.replaced.grounded h.grounded
    sessions := hput.sessions_keeps hp.replaced.keeps
    absent := by
      intro hf
      rcases hcases with hnew | hnone
      · exact absurd (hnew.symm.trans hf) (by simp)
      · exact absurd (hnone.symm.trans hf) (by simp)
    store := by
      intro node content contents hf hcontent hparse
      rcases hcases with hnew | hnone
      · obtain rfl := Except.ok.inj (hnew.symm.trans hf)
        obtain rfl := Except.ok.inj (hp.replaced.content.symm.trans hcontent)
        obtain ⟨_, hparse', hstored⟩ := parse_of_publishes hd hfits hb hp
        obtain rfl := Except.ok.inj (hparse.symm.trans hparse')
        rw [hstored]
        exact h.gives_publish hd hfits hp
      · exact absurd (hnone.symm.trans hf) (by simp) }

/-- Closing a session keeps the world as the inventory says. -/
theorem close (h : i.Describes w) (hs : w.sessions handle = some session)
    (hfits : session.Fits) (force : Option Mode) :
    (i.closed handle (some (session.close w.files force).value.1)).Describes
      { w.put handle none with files := (session.close w.files force).value.2 } := by
  obtain ⟨s, opened, start, records, hi, hd⟩ := h.exists_stock hs
  rcases session.close_cases_of_grounded h.grounded force with
    ⟨buffer, final, place, bytes, hb, hvalue, hp⟩ | ⟨answer, final, hvalue, hanswer, hsame⟩
  · rw [hvalue]
    exact h.commit hi hd hfits hb hp _
  · rw [hvalue]
    have hclosed : i.closed handle (some answer) = i.put handle none := by
      unfold closed
      split
      · rename_i n hn
        exact absurd (Option.some.inj hn) (hanswer n)
      · rfl
    rw [hclosed]
    exact (h.put handle .none).same hsame

/-- **One act keeps the world as the inventory says.** -/
theorem act (h : i.Describes w) (hfits : w.Fits) (handle : Nat) (a : Act) :
    (i.note handle a (w.act handle a).1).Describes (w.act handle a).2 := by
  have hnone : w.sessions handle = none → i.put handle none = i := fun hs => by
    rw [Inventory.put, ← h.sessions_eq_none hs, Function.update_eq_self]
  cases a with
  | «open» mode config =>
    cases ho : (Session.open w.files w.path mode config).value with
    | error error =>
      simp only [World.act, ho]
      exact h
    | ok session =>
      simp only [World.act, ho]
      exact h.put handle (.some ⟨_, _, _, h.ofOpen ho⟩)
  | call c =>
    cases hs : w.sessions handle with
    | none =>
      simp only [World.act, hs]
      exact h
    | some session =>
      obtain ⟨s, opened, start, records, hi, hd⟩ := h.exists_stock hs
      simp only [World.act, hs, note, hi, Option.map_some]
      exact h.put handle (.some ⟨_, _, _, hd.call c⟩)
  | close force =>
    cases hs : w.sessions handle with
    | none =>
      simp only [World.act, hs, note, closed, hnone hs]
      exact h
    | some session =>
      simp only [World.act, hs, note]
      exact h.close hs (hfits handle session hs) force
  | drop =>
    cases hs : w.sessions handle with
    | none =>
      simp only [World.act, hs, note, hnone hs]
      exact h
    | some session =>
      simp only [World.act, hs, note]
      exact h.put handle .none

/-- **What is in a session can be found and fetched there.** -/
theorem fetch (h : i.Describes w) (hfits : w.Fits) (hi : i.sessions handle = some s)
    {item : Item} (hitem : item ∈ s.items) (hvalue : item.value.length < UInt64.size) :
    ∃ session, w.sessions handle = some session ∧ (session.find item.key).1 = true ∧
      ((session.find item.key).2.fetch w.files).1 = .ok item.value := by
  obtain ⟨session, opened, start, records, hs, hd⟩ := h.exists_session hi
  exact ⟨session, hs, hd.fetch (hfits handle session hs).pendingBytes_lt hitem hvalue⟩

end Inventory.Describes

/-- **Every run keeps the world as its inventory says**, whatever is at the path at first. -/
theorem World.Run.inventory {path : String} {files : FileSystem} (hg : files.Grounded)
    {events : List Event} {w : World} (h : Run (begin path files) events w) :
    (Inventory.ofEvents events).Describes w := by
  induction h with
  | start =>
    exact ⟨hg, fun _ => .none, fun _ => rfl, fun _ _ _ _ _ _ => Stored.gives_nil _⟩
  | act handle a hrun _ ih =>
    rw [Inventory.ofEvents_append]
    exact ih.act (hrun.fits (World.fits_begin path files)) handle a

end ConstStore
