/-
# Sessions that extend a store

A session that is opened to write has loaded what is stored at its path, or starts from nothing.  It
keeps what it adds behind that, and closing it puts the whole in place.

* `Stored.bytes`: a store as a session writes it.
* `Held.of_published`: such a store holds what was written.
* `Session.Extends`: how a session is related to what it has loaded and added.
* `Held.exists_extends`, `Extends.add_cases`, `Extends.close`: it is opened, an item is added or
  refused, and it is closed.
-/
import ConstStore.Proofs.Preservation
import ConstStore.Proofs.Race

namespace ConstStore

/-! ## 1. Stores as they are written -/

namespace Stored

/-- The bytes of a store. -/
def bytes (stored : Stored) (level : Zstd.Level) : Bytes :=
  Contents.front ⟨stored.entries⟩ level ++ stored.region

/-- The numbers in these bytes have 64 bits. -/
structure Fits (stored : Stored) (level : Zstd.Level) : Prop where
  index : (Index.mk stored.entries).serialize.length < UInt64.size
  bytes : (stored.bytes level).length < UInt64.size

instance (stored : Stored) (level : Zstd.Level) : Decidable (stored.Fits level) :=
  decidable_of_iff ((Index.mk stored.entries).serialize.length < UInt64.size ∧
    (stored.bytes level).length < UInt64.size) ⟨fun h => ⟨h.1, h.2⟩, fun h => ⟨h.1, h.2⟩⟩

/-- The entries have distinct keys, and their sizes sum up to that of the records. -/
structure Sound (stored : Stored) : Prop where
  distinct : (stored.entries.map Entry.key).Nodup
  region : stored.region.length = extent (stored.entries.map Entry.span)

theorem sound_empty : Stored.empty.Sound := ⟨List.nodup_nil, rfl⟩

end Stored

variable {fs fs' : FileSystem} {path : String} {stored : Stored}

/-- What a path holds has passed the checks. -/
theorem Held.sound (h : Held fs path (some stored)) : stored.Sound := by
  obtain ⟨node, bytes, contents, -, -, hparse, rfl⟩ := h
  obtain ⟨hd, -, hsize⟩ := Contents.parse_eq_ok hparse
  refine ⟨hd, ?_⟩
  rw [List.length_drop, ← hsize, Nat.add_sub_cancel_left]

/-- **A store that has been written is held.** -/
theorem Held.of_published {level : Zstd.Level} (hs : stored.Sound) (hf : stored.Fits level)
    (hp : fs.Published fs' path (stored.bytes level)) : Held fs' path (some stored) := by
  obtain ⟨hparse, hstart⟩ := Contents.parse_front_append hs.distinct hf.index hs.region hf.bytes
  refine ⟨_, _, _, hp.follow, hp.content, hparse, ?_⟩
  rw [hstart, Stored.bytes, List.drop_left]
  rfl

namespace Session

variable {session : Session} {config : SessionConfig} {added : List Record}

/-! ## 2. Sessions and stores -/

/-- The session has loaded this store from a path, it has added these records, and it can go on. -/
structure Extends (session : Session) (fs : FileSystem) (path : String) (config : SessionConfig)
    (stored : Stored) (added : List Record) : Prop where
  path_eq : session.path = path
  config_eq : session.config = config
  writable : session.mode ≠ .read
  snapshot : Snapshot.take fs path = .ok session.snapshot
  base : session.BaseIn fs
  region : session.region fs = stored.region
  holds : session.Holds stored.entries added

namespace Extends

/-- A call leaves what the session has been opened with. -/
theorem sameSetup {next : Session} {added' : List Record}
    (h : session.Extends fs path config stored added) (hs : SameSetup session next)
    (hholds : next.Holds stored.entries added') : next.Extends fs path config stored added' where
  path_eq := hs.path.trans h.path_eq
  config_eq := hs.config.trans h.config_eq
  writable := hs.mode ▸ h.writable
  snapshot := hs.snapshot ▸ h.snapshot
  base := h.base.sameSetup hs
  region := (region_sameSetup hs fs).trans h.region
  holds := hholds

theorem contains_iff (h : session.Extends fs path config stored added) {key : Bytes} :
    session.contains key = true ↔ key ∈ (stored.extend added).entries.map Entry.key := by
  rw [h.holds.contains_iff, Stored.extend, List.map_append, Record.map_key_entry]

/-- **An item is added**, or refused when its key is there. -/
theorem add_cases (h : session.Extends fs path config stored added)
    (hdir : fs.checkDirectory (Path.directory path) = .ok ()) (item : Item) :
    (item.key ∈ (stored.extend added).entries.map Entry.key ∧
        (session.add fs item.key item.value item.metadata).value = .ok (false, session)) ∨
      (item.key ∉ (stored.extend added).entries.map Entry.key ∧ ∃ next,
        (session.add fs item.key item.value item.metadata).value = .ok (true, next) ∧
          next.Extends fs path config stored (added ++ [⟨item, config.level⟩])) := by
  have hsetup := sameSetup_add session fs item.key item.value item.metadata
  have hadd := holds_add h.holds fs item.key item.value item.metadata
  rcases Session.add_cases session fs item.key item.value item.metadata with
    ⟨hno, ha⟩ | ⟨⟨-, hk⟩, ⟨cause, -, hcheck, -⟩ | ⟨buffer, -, ha⟩⟩
  · exact Or.inl ⟨h.contains_iff.mp (hno.resolve_left h.writable), ha⟩
  · rw [h.path_eq, hdir] at hcheck
    exact absurd hcheck (by simp)
  · refine Or.inr ⟨?_, _, ha, ?_⟩
    · rw [← h.contains_iff, hk]
      exact Bool.false_ne_true
    · rw [ha] at hsetup hadd
      rw [newRecord, h.config_eq] at hadd
      exact h.sameSetup hsetup hadd

/-- What the session would publish. -/
theorem newStore_eq (h : session.Extends fs path config stored added) :
    session.newStore fs added = (stored.extend added).bytes config.level := by
  have hindex : session.index = ⟨(stored.extend added).entries⟩ :=
    congrArg Index.mk h.holds.entries
  rw [newStore, hindex, h.config_eq, h.region]
  rfl

theorem sound (h : session.Extends fs path config stored added)
    (hsize : (Record.frames added).length < UInt64.size) : (stored.extend added).Sound := by
  refine ⟨?_, ?_⟩
  · rw [Stored.extend, ← h.holds.entries]
    exact h.holds.nodup_keys
  · rw [Stored.extend, List.length_append, List.map_append, extent_append, ← h.region,
      length_region h.holds h.base, Record.map_span_entry hsize, Record.length_frames]

/-- **Closing the session** puts what it has loaded and added in place. -/
theorem close (h : session.Extends fs path config stored added) (hne : added ≠ [])
    (hfits : (stored.extend added).Fits config.level) (hg : fs.Grounded) (hs : fs.Storable path)
    (hhosts : fs.Hosts path config.temporaryPrefix) :
    ∃ final, (session.close fs none).value = (.ok (.committed added.length), final) ∧
      fs.Published final path ((stored.extend added).bytes config.level) ∧
      Held final path (some (stored.extend added)) := by
  have hsize : (Record.frames added).length < UInt64.size := by
    have hlength := hfits.bytes
    rw [Stored.bytes, Stored.extend, List.length_append, List.length_append] at hlength
    omega
  obtain ⟨rfl, rfl⟩ : session.path = path ∧ session.config = config := ⟨h.path_eq, h.config_eq⟩
  obtain ⟨final, hvalue, hp⟩ :=
    close_of_current h.holds hne h.base hsize hg hs h.snapshot hhosts
  rw [h.newStore_eq] at hp
  exact ⟨final, hvalue, hp, .of_published (h.sound hsize) hfits hp⟩

end Extends
end Session

/-- **A session that can be written has loaded what is stored**, unless it starts from nothing. -/
theorem Held.exists_extends {stored : Option Stored} (h : Held fs path stored) {mode : Mode}
    (hm : mode ≠ .read) (config : SessionConfig) : ∃ session,
      (Session.open fs path mode config).value = .ok session ∧
      session.Extends fs path config
        (if mode = .create then .empty else stored.getD .empty) [] := by
  rcases h.open_cases mode config with ⟨hread, -⟩ | ⟨hmode, snapshot, ho⟩ |
    ⟨hcreate, base, contents, ho, hstored⟩
  · exact absurd hread hm
  · obtain ⟨hpath, hconfig, htake⟩ := Session.opened_with ho
    have hempty : (if mode = .create then Stored.empty else stored.getD .empty) = .empty := by
      rcases hmode with rfl | ⟨rfl, rfl⟩
      · exact if_pos rfl
      · rfl
    rw [hempty]
    exact ⟨_, ho, hpath, hconfig, by simp [Session.ofNothing], htake,
      fun _ hb => Session.base_of_open ho hb, rfl, Session.holds_ofNothing path config snapshot⟩
  · obtain ⟨hpath, hconfig, htake⟩ := Session.opened_with ho
    rw [if_neg hcreate, hstored, Option.getD_some]
    exact ⟨_, ho, hpath, hconfig, hm, htake, fun _ hb => Session.base_of_open ho hb, rfl,
      Session.holds_open ho⟩

end ConstStore
