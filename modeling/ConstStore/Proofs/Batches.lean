/-
# Additions in several sessions

Items can be added to a store in one session, or some of them in one session and the next ones in
the next.  The store does not tell: a session that reopens it continues the index, copies the
records as they are, and refuses the keys that are there, no matter which session has added them.
Even the bytes are the same, because the front is written anew by every session.

* `Item.insertAll`: the items that a store has after additions.
* `FileSystem.Stores`: the path holds the store of some items.
* `FileSystem.Stores.extend`: a session that adds items leaves the store of all of them.
* `FileSystem.load_extendAll`: it does not matter how additions are split over sessions.
-/
import ConstStore.Proofs.Preservation
import Mathlib.Data.List.Infix

namespace ConstStore

/-! ## 1. Adding items -/

/-- Adds items one after the other, whatever the answers are. -/
def Session.addAll (session : Session) (fs : FileSystem) (items : List Item) : Session :=
  items.foldl (fun session item =>
    (session.call fs (.add item.key item.value item.metadata)).2) session

namespace FileSystem

/-- The files after a session that extends the store at a path by some items. -/
def extend (fs : FileSystem) (path : String) (config : SessionConfig) (items : List Item) :
    FileSystem :=
  match (Session.open fs path .write config).value with
  | .error _ => fs
  | .ok session => ((session.addAll fs items).close fs none).value.2

/-- The files after several such sessions, one after the other. -/
def extendAll (fs : FileSystem) (path : String) (config : SessionConfig)
    (batches : List (List Item)) : FileSystem :=
  batches.foldl (fun fs items => fs.extend path config items) fs

theorem load_of_absent {fs : FileSystem} {path : String} (h : fs.follow path = .error .notFound) :
    fs.load path = .error .notFound := by
  rw [load, h]
  rfl

end FileSystem

/-! ## 2. The items of a store -/

namespace Item

/-- The items after one more has been added, which is refused if there is one with its key. -/
def insert (items : List Item) (item : Item) : List Item :=
  if item.key ∈ items.map Item.key then items else items ++ [item]

/-- The items after more have been added, one after the other. -/
def insertAll (items more : List Item) : List Item := more.foldl insert items

/-- The records of items. -/
def records (level : Zstd.Level) (items : List Item) : List Record := items.map (Record.mk · level)

/-- The index that lists items. -/
def index (level : Zstd.Level) (items : List Item) : Index :=
  ⟨(records level items).map Record.entry⟩

/-- The bytes of a store of these items. -/
def store (level : Zstd.Level) (items : List Item) : Bytes :=
  Contents.front (index level items) level ++ Record.frames (records level items)

/-- The numbers in such a store have 64 bits. -/
structure Fits (level : Zstd.Level) (items : List Item) : Prop where
  index : (index level items).serialize.length < UInt64.size
  store : (store level items).length < UInt64.size

instance (level : Zstd.Level) (items : List Item) : Decidable (Fits level items) :=
  decidable_of_iff ((Item.index level items).serialize.length < UInt64.size ∧
    (Item.store level items).length < UInt64.size) ⟨fun h => ⟨h.1, h.2⟩, fun h => ⟨h.1, h.2⟩⟩

variable {level : Zstd.Level} {items more : List Item}

@[simp] theorem records_append (level : Zstd.Level) (items more : List Item) :
    records level (items ++ more) = records level items ++ records level more :=
  List.map_append

theorem insertAll_append (items more others : List Item) :
    insertAll items (more ++ others) = insertAll (insertAll items more) others :=
  List.foldl_append

theorem map_key_records (level : Zstd.Level) (items : List Item) :
    (records level items).map (·.key) = items.map Item.key := by
  rw [records, List.map_map]
  rfl

/-- **A store of items parses.** -/
theorem parse_store (hd : (items.map Item.key).Nodup) (h : Fits level items) :
    Contents.parse (store level items) = .ok (.ofIndex (index level items) level) ∧
      (Contents.ofIndex (index level items) level).header.dataOffset
        = (Contents.front (index level items) level).length := by
  have hlength := h.store
  rw [store, List.length_append] at hlength
  refine Contents.parse_front_append ?_ h.index ?_ h.store
  · rw [index, Record.map_key_entry, map_key_records]
    exact hd
  · rw [index, Record.map_span_entry (by omega), Record.length_frames]

end Item

/-- What is stored at a path that holds the store of these items: nothing if there is none. -/
def Stored.ofItems (level : Zstd.Level) (items : List Item) : Option Stored :=
  if items = [] then none
  else some ⟨(Item.index level items).entries, Record.frames (Item.records level items)⟩

/-! ## 3. A session that adds items -/

namespace Session

variable {session : Session} {fs : FileSystem} {items added : List Item}

theorem Reachable.addAll {start : Session} (h : Reachable start session) (fs : FileSystem)
    (items : List Item) : Reachable start (session.addAll fs items) := by
  induction items generalizing session with
  | nil => exact h
  | cons item items ih => exact ih (.call fs (.add item.key item.value item.metadata) h)

/-- The session has loaded the store of some items at a path, it has added others, and it can go
on. -/
structure Gathers (session : Session) (fs : FileSystem) (path : String) (config : SessionConfig)
    (items added : List Item) : Prop where
  path_eq : session.path = path
  config_eq : session.config = config
  writable : session.mode ≠ .read
  snapshot : Snapshot.take fs path = .ok session.snapshot
  base : session.BaseIn fs
  region : session.region fs = Record.frames (Item.records config.level items)
  holds : session.Holds (Item.index config.level items).entries (Item.records config.level added)

namespace Gathers

variable {path : String} {config : SessionConfig}

/-- A call leaves what the session has been opened with. -/
theorem sameSetup {next : Session} {added' : List Item}
    (h : session.Gathers fs path config items added) (hs : SameSetup session next)
    (hholds : next.Holds (Item.index config.level items).entries
      (Item.records config.level added')) :
    next.Gathers fs path config items added' where
  path_eq := hs.path.trans h.path_eq
  config_eq := hs.config.trans h.config_eq
  writable := hs.mode ▸ h.writable
  snapshot := hs.snapshot ▸ h.snapshot
  base := h.base.sameSetup hs
  region := (region_sameSetup hs fs).trans h.region
  holds := hholds

/-- **One more item** is added, or refused. -/
theorem insert (h : session.Gathers fs path config items added)
    (hdir : fs.checkDirectory (Path.directory path) = .ok ()) (item : Item) :
    ∃ added', Item.insert (items ++ added) item = items ++ added' ∧
      (session.call fs (.add item.key item.value item.metadata)).2.Gathers fs path config items
        added' := by
  have hkeys : session.contains item.key = true ↔ item.key ∈ (items ++ added).map Item.key := by
    rw [h.holds.contains_iff, Item.index, Record.map_key_entry, ← List.map_append,
      ← Item.records_append, Item.map_key_records]
  have hsetup := sameSetup_call session fs (.add item.key item.value item.metadata)
  have hadd := holds_add h.holds fs item.key item.value item.metadata
  rcases add_cases session fs item.key item.value item.metadata with
    ⟨hno, ha⟩ | ⟨⟨-, hk⟩, ⟨cause, -, hcheck, -⟩ | ⟨buffer, -, ha⟩⟩
  · refine ⟨added, if_pos (hkeys.mp (hno.resolve_left h.writable)), h.sameSetup hsetup ?_⟩
    rw [call, ha]
    exact h.holds
  · rw [h.path_eq, hdir] at hcheck
    exact absurd hcheck (by simp)
  · refine ⟨added ++ [item], ?_, h.sameSetup hsetup ?_⟩
    · rw [Item.insert, if_neg (by rw [← hkeys, hk]; simp), List.append_assoc]
    · rw [ha, newRecord, h.config_eq] at hadd
      rw [call, ha, Item.records_append]
      exact hadd

/-- **More items** are added one after the other. -/
theorem insertAll (hdir : fs.checkDirectory (Path.directory path) = .ok ()) (more : List Item) :
    ∀ {session : Session} {added : List Item}, session.Gathers fs path config items added →
      ∃ added', Item.insertAll (items ++ added) more = items ++ added' ∧
        (session.addAll fs more).Gathers fs path config items added' := by
  induction more with
  | nil => exact fun h => ⟨_, rfl, h⟩
  | cons item more ih =>
    intro session added h
    obtain ⟨added', hinsert, hcall⟩ := h.insert hdir item
    obtain ⟨added'', hall, hgathers⟩ := ih hcall
    refine ⟨added'', ?_, hgathers⟩
    rw [← hall, ← hinsert]
    rfl

theorem index_eq (h : session.Gathers fs path config items added) :
    session.index = Item.index config.level (items ++ added) := by
  have hentries := h.holds.entries
  rw [Item.index, ← List.map_append, ← Item.records_append] at hentries
  rw [Item.index, ← hentries]

/-- The items of a session have distinct keys. -/
theorem distinct (h : session.Gathers fs path config items added) :
    ((items ++ added).map Item.key).Nodup := by
  have hdistinct := h.holds.nodup_keys
  rwa [h.index_eq, Item.index, Record.map_key_entry, Item.map_key_records] at hdistinct

/-- **What the session publishes** is the store of all its items. -/
theorem newStore_eq (h : session.Gathers fs path config items added) :
    session.newStore fs (Item.records config.level added)
      = Item.store config.level (items ++ added) := by
  rw [newStore, h.index_eq, h.config_eq, h.region, Item.store, Item.records_append,
    Record.frames_append]

/-- **Closing the session** puts that store in place, where it has added anything. -/
theorem close (h : session.Gathers fs path config items added) (hne : added ≠ [])
    (hfits : Item.Fits config.level (items ++ added)) (hg : fs.Grounded)
    (hs : fs.Storable path) (hhosts : fs.Hosts path config.temporaryPrefix) :
    ∃ answer final, (session.close fs none).value = (answer, final) ∧
      fs.Published final path (Item.store config.level (items ++ added)) := by
  have hrecords : Item.records config.level added ≠ [] := by
    rw [Item.records, ne_eq, List.map_eq_nil_iff]
    exact hne
  have hsize : (Record.frames (Item.records config.level added)).length < UInt64.size := by
    have hlength := hfits.store
    rw [Item.store, Item.records_append, Record.frames_append, List.length_append,
      List.length_append] at hlength
    omega
  obtain ⟨rfl, rfl⟩ : session.path = path ∧ session.config = config := ⟨h.path_eq, h.config_eq⟩
  obtain ⟨final, hvalue, hp⟩ :=
    close_of_current h.holds hrecords h.base hsize hg hs h.snapshot hhosts
  rw [h.newStore_eq] at hp
  exact ⟨_, final, hvalue, hp⟩

end Gathers

/-- A session starts without a buffer. -/
theorem pending_open {path : String} {mode : Mode} {config : SessionConfig}
    (h : (Session.open fs path mode config).value = .ok session) : session.pending = none := by
  rcases open_eq_ok.mp h with ⟨-, base, contents, -, rfl⟩ | ⟨-, snapshot, -, rfl⟩ <;> rfl

/-- Where no buffer can be made, nothing is added. -/
theorem pending_addAll (hdir : fs.checkDirectory (Path.directory session.path) ≠ .ok ())
    (hp : session.pending = none) (items : List Item) :
    (session.addAll fs items).pending = none := by
  induction items generalizing session with
  | nil => exact hp
  | cons item items ih =>
    have hsetup := sameSetup_call session fs (.add item.key item.value item.metadata)
    refine ih (by rw [hsetup.path]; exact hdir) ?_
    rcases add_cases session fs item.key item.value item.metadata with
      ⟨-, ha⟩ | ⟨-, ⟨cause, -, -, ha⟩ | ⟨buffer, hb | ⟨-, hcheck, -⟩, -⟩⟩
    · simp only [call, ha]
      exact hp
    · simp only [call, ha]
      exact hp
    · rw [hp] at hb
      exact absurd hb (by simp)
    · exact absurd hcheck hdir

/-- A session that commits has made its temporary file. -/
theorem locate_of_commit {buffer : PendingBuffer} {n : Nat} {final : FileSystem}
    (h : (session.commit fs buffer).value = (.ok (.committed n), final)) :
    ∃ beginning, fs.locate (Path.child (Path.directory session.path)
      (session.config.temporaryPrefix ++ FileSystem.temporarySuffix 0)) = .ok beginning := by
  rw [commit_value] at h
  cases hcreate : fs.createTemporary (Path.directory session.path)
      session.config.temporaryPrefix session.path with
  | error cause =>
    rw [hcreate] at h
    exact absurd h (by simp)
  | ok made =>
    obtain ⟨⟨beginning, hbeginning, -⟩, -⟩ := FileSystem.createTemporary_eq_ok hcreate
    exact ⟨beginning, hbeginning⟩

/-- **Committing leaves no trace** where no new store can be written beside a path. -/
theorem commit_of_not_hosts {buffer : PendingBuffer} (hg : fs.Grounded)
    (hdir : fs.checkDirectory (Path.directory session.path) = .ok ())
    (hno : ¬ fs.Hosts session.path session.config.temporaryPrefix) :
    fs.Same (session.commit fs buffer).value.2 := by
  rcases commit_cases_of_grounded session buffer hg with
    ⟨final, place, bytes, hvalue, hreplaces⟩ | ⟨answer, final, hvalue, -, hsame⟩
  · exact absurd ⟨⟨place, hreplaces.locate, hreplaces.slash⟩, locate_of_commit hvalue, hdir⟩ hno
  · rw [hvalue]
    exact hsame

end Session

/-! ## 4. Paths that hold the store of some items -/

/-- The path holds the store of these items, or nothing if there are none, and new ones can be
written beside it. -/
structure FileSystem.Stores (fs : FileSystem) (path : String) (config : SessionConfig)
    (items : List Item) : Prop where
  grounded : fs.Grounded
  hosts : fs.Hosts path config.temporaryPrefix
  distinct : (items.map Item.key).Nodup
  absent : items = [] → fs.follow path = .error .notFound
  present : items ≠ [] → fs.load path = .ok (Item.store config.level items) ∧
    Item.Fits config.level items

namespace FileSystem.Stores

variable {fs : FileSystem} {path : String} {config : SessionConfig} {items : List Item}

theorem held (h : fs.Stores path config items) :
    Held fs path (Stored.ofItems config.level items) := by
  unfold Stored.ofItems
  split
  · rename_i hnone
    exact h.absent hnone
  · rename_i hsome
    obtain ⟨hload, hfits⟩ := h.present hsome
    obtain ⟨node, hnode, hbytes⟩ := Fallible.bind_eq_ok.mp hload
    obtain ⟨hparse, hstart⟩ := Item.parse_store h.distinct hfits
    refine ⟨node, _, _, hnode, hbytes, hparse, ?_⟩
    rw [hstart, Item.store, List.drop_left]
    rfl

/-- What is at the path. -/
theorem load_eq (h : fs.Stores path config items) :
    fs.load path
      = if items = [] then .error .notFound else .ok (Item.store config.level items) := by
  split
  · rename_i hnone
    exact load_of_absent (h.absent hnone)
  · rename_i hsome
    exact (h.present hsome).1

/-- Nothing is at the path when there are no items. -/
theorem follow_eq_iff (h : fs.Stores path config items) :
    fs.follow path = .error .notFound ↔ items = [] := by
  refine ⟨fun habsent => ?_, h.absent⟩
  by_contra hsome
  have hload := (h.present hsome).1
  rw [load_of_absent habsent] at hload
  exact absurd hload nofun

/-- **A session that extends the store** has loaded its items. -/
theorem exists_open (h : fs.Stores path config items) : ∃ session,
    (Session.open fs path .write config).value = .ok session ∧
      session.Gathers fs path config items [] := by
  rcases h.held.open_cases .write config with ⟨hread, -⟩ | ⟨hmode, snapshot, ho⟩ |
    ⟨-, base, contents, ho, hstored⟩
  · exact absurd hread (by simp)
  · obtain ⟨hpath, hconfig, htake⟩ := Session.opened_with ho
    have hnone : items = [] := by
      have hstored := (hmode.resolve_left (by simp)).2
      unfold Stored.ofItems at hstored
      split at hstored
      · assumption
      · exact absurd hstored (by simp)
    subst hnone
    exact ⟨_, ho, hpath, hconfig, by simp [Session.ofNothing], htake,
      fun _ hb => Session.base_of_open ho hb, rfl, Session.holds_ofNothing path config snapshot⟩
  · obtain ⟨hpath, hconfig, htake⟩ := Session.opened_with ho
    have hholds := Session.holds_open ho
    unfold Stored.ofItems at hstored
    split at hstored
    · exact absurd hstored (by simp)
    · obtain ⟨hentries, hregion⟩ := Stored.mk.inj (Option.some.inj hstored)
      exact ⟨_, ho, hpath, hconfig, by simp [Session.ofBase], htake,
        fun _ hb => Session.base_of_open ho hb, hregion.symm, hentries ▸ hholds⟩

/-- **A session that adds items** leaves the store of all of them. -/
theorem extend (h : fs.Stores path config items) {more : List Item}
    (hfits : Item.Fits config.level (Item.insertAll items more)) :
    (fs.extend path config more).Stores path config (Item.insertAll items more) := by
  obtain ⟨start, ho, hstart⟩ := h.exists_open
  obtain ⟨added, hadded, hgathers⟩ := hstart.insertAll h.hosts.directory more
  rw [List.append_nil] at hadded
  rw [hadded] at hfits ⊢
  simp only [FileSystem.extend, ho]
  by_cases hne : added = []
  · subst hne
    rw [List.append_nil, Session.close_of_nothing hgathers.holds]
    exact h
  · obtain ⟨answer, final, hvalue, hp⟩ :=
      hgathers.close hne hfits h.grounded h.held.storable h.hosts
    rw [hvalue]
    exact {
      grounded := hp.grounded
      hosts := hp.hosts h.hosts
      distinct := hgathers.distinct
      absent := fun hnone => absurd (List.append_eq_nil_iff.mp hnone).2 hne
      present := fun _ => ⟨Fallible.bind_eq_ok.mpr ⟨_, hp.follow, hp.content⟩, hfits⟩ }

/-- **Sessions that add items one after the other** leave the store of all of them. -/
theorem extendAll (batches : List (List Item)) : ∀ {fs : FileSystem} {items : List Item},
    fs.Stores path config items →
    (∀ front, front <+: batches →
      Item.Fits config.level (Item.insertAll items front.flatten)) →
    (fs.extendAll path config batches).Stores path config
      (Item.insertAll items batches.flatten) := by
  induction batches with
  | nil => exact fun h _ => h
  | cons more batches ih =>
    intro fs items h hfits
    have hmore : Item.insertAll items (more :: batches).flatten
        = Item.insertAll (Item.insertAll items more) batches.flatten := by
      rw [List.flatten_cons, Item.insertAll_append]
    rw [hmore]
    refine ih (h.extend ?_) fun front hfront => ?_
    · have hfirst := hfits [more] (List.prefix_cons_inj .. |>.mpr List.nil_prefix)
      rwa [List.flatten_singleton] at hfirst
    · have hnext := hfits (more :: front) ((List.prefix_cons_inj more).mpr hfront)
      rwa [List.flatten_cons, Item.insertAll_append] at hnext

end FileSystem.Stores

/-! ## 5. Paths where no store can be written -/

namespace FileSystem

variable {fs : FileSystem} {path : String} {config : SessionConfig}

/-- A session that cannot publish leaves no trace. -/
theorem same_extend (hg : fs.Grounded)
    (hno : ¬ fs.Hosts path config.temporaryPrefix) (items : List Item) :
    fs.Same (fs.extend path config items) := by
  unfold extend
  cases ho : (Session.open fs path .write config).value with
  | error e => exact .refl fs
  | ok start =>
    dsimp only
    obtain ⟨hpath, hconfig, -⟩ := Session.opened_with ho
    have hreach : start.Reachable (start.addAll fs items) := Session.Reachable.start.addAll fs items
    have hsetup := hreach.sameSetup
    by_cases hdir : fs.checkDirectory (Path.directory path) = .ok ()
    · obtain ⟨added, hholds⟩ := hreach.holds (Session.holds_open ho)
      by_cases hne : added = []
      · subst hne
        rw [Session.close_of_nothing hholds]
        exact .refl fs
      · obtain ⟨buffer, -, hclose⟩ := Session.close_of_added hholds hne fs
          (by simp : (none : Option Mode) ≠ some .read)
        rw [hclose]
        refine Session.commit_of_not_hosts hg ?_ ?_
        · rw [hsetup.path, hpath]
          exact hdir
        · rw [hsetup.path, hpath, hsetup.config, hconfig]
          exact hno
    · rw [← hpath] at hdir
      rw [Session.close, Session.pending_addAll hdir (Session.pending_open ho)]
      exact .refl fs

theorem follow_extendAll (batches : List (List Item)) : ∀ {fs : FileSystem}, fs.Grounded →
    fs.follow path = .error .notFound → ¬ fs.Hosts path config.temporaryPrefix →
    (fs.extendAll path config batches).follow path = .error .notFound := by
  induction batches with
  | nil => exact fun _ habsent _ => habsent
  | cons items batches ih =>
    intro fs hg habsent hno
    have hsame := same_extend hg hno items
    exact ih (hsame.grounded hg) ((hsame.follow_eq path).trans habsent) (mt hsame.hosts_iff.mp hno)

/-- One session is a batch. -/
theorem extendAll_singleton (fs : FileSystem) (path : String) (config : SessionConfig)
    (items : List Item) : fs.extendAll path config [items] = fs.extend path config items := rfl

/-- **It does not matter how additions are split over sessions.**  Nothing is at the path at
first, and every list of items that a session has written by the way has numbers of 64 bits.  Then
adding the batches in one session each leaves at the path what adding all their items in a single
session leaves there: nothing, or the same bytes.

Where new stores can be written beside the path, these are the bytes of the store of the items
that come first under their keys, and nothing is there if there are none; elsewhere nothing comes
to be there at all. -/
theorem load_extendAll (hg : fs.Grounded) (habsent : fs.follow path = .error .notFound)
    (batches : List (List Item))
    (hfits : ∀ front, front <+: batches →
      Item.Fits config.level (Item.insertAll [] front.flatten)) :
    (fs.extendAll path config batches).load path
        = (fs.extend path config batches.flatten).load path ∧
      ((fs.extendAll path config batches).follow path = .error .notFound ↔
        (fs.extend path config batches.flatten).follow path = .error .notFound) ∧
      (fs.Hosts path config.temporaryPrefix → (fs.extend path config batches.flatten).load path
        = if Item.insertAll [] batches.flatten = [] then .error .notFound
          else .ok (Item.store config.level (Item.insertAll [] batches.flatten))) ∧
      (¬ fs.Hosts path config.temporaryPrefix →
        (fs.extend path config batches.flatten).follow path = .error .notFound) := by
  by_cases hhosts : fs.Hosts path config.temporaryPrefix
  · have hnothing : fs.Stores path config [] :=
      ⟨hg, hhosts, List.nodup_nil, fun _ => habsent, fun hne => absurd rfl hne⟩
    have hsplit := hnothing.extendAll batches hfits
    have hwhole := hnothing.extend (hfits batches List.prefix_rfl)
    exact ⟨hsplit.load_eq.trans hwhole.load_eq.symm,
      hsplit.follow_eq_iff.trans hwhole.follow_eq_iff.symm, fun _ => hwhole.load_eq,
      fun hno => absurd hhosts hno⟩
  · have hsplit := follow_extendAll batches hg habsent hhosts
    have hwhole := follow_extendAll [batches.flatten] hg habsent hhosts
    rw [extendAll_singleton] at hwhole
    exact ⟨(load_of_absent hsplit).trans (load_of_absent hwhole).symm,
      ⟨fun _ => hwhole, fun _ => hsplit⟩, fun hh => absurd hh hhosts, fun _ => hwhole⟩

/-- Additions in four sessions, of which the second one adds nothing, and the third one adds
nothing new. -/
def fourBatches : List (List Item) :=
  [[⟨[1], [2], none⟩], [], [⟨[1], [3], none⟩], [⟨[4], [5, 6], some [7]⟩, ⟨[4], [], none⟩]]

/-- They leave the store of two items. -/
theorem load_extendAll_fourBatches :
    (FileSystem.empty.extendAll "a" .default fourBatches).load "a"
      = .ok (Item.store defaultLevel [⟨[1], [2], none⟩, ⟨[4], [5, 6], some [7]⟩]) := by
  have hfits : ∀ front ∈ fourBatches.inits,
      Item.Fits defaultLevel (Item.insertAll [] front.flatten) := by decide +kernel
  have hosts : FileSystem.empty.Hosts "a" SessionConfig.default.temporaryPrefix :=
    ⟨⟨_, rfl, rfl⟩, ⟨_, rfl⟩, rfl⟩
  obtain ⟨hload, -, hstore, -⟩ := @load_extendAll .empty "a" .default grounded_empty rfl
    fourBatches fun front hfront => hfits front ((List.mem_inits _ _).mpr hfront)
  exact hload.trans (hstore hosts)

end FileSystem
end ConstStore
