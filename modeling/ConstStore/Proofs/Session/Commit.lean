/-
# What a commit publishes

A session that has been opened and has accepted additions puts in place, when it is closed, a file
whose bytes are known: a header, an index that lists what was loaded and what was added, the
records of the base file as they are, and the added records.  Nothing is said here about what the
path leads to, so that a name that stands for a symbolic link is covered as well.

* `Reaches`: the sessions that calls lead to, with the records that they have accepted.
* `Unaltered`: neither the path nor the base file has changed since a session was opened.
* `Session.commit_of_unaltered`: then committing succeeds, unless the file system refuses a call.
* `close_publishes`: closing, and the bytes of the new store.
-/
import ConstStore.Proofs.Format
import ConstStore.Proofs.Session.Publish

namespace ConstStore

/-! ## 1. Moving a temporary file -/

/-- Whether a snapshot can be taken depends on where the path leads. -/
theorem Snapshot.exists_take_of_follow {fs fs' : FileSystem} {path : String} {now : Snapshot}
    (hf : fs'.follow path = fs.follow path) (h : take fs path = .ok now) :
    ∃ now', take fs' path = .ok now' := by
  cases now with
  | absent => exact ⟨_, take_eq_absent.mpr (hf.trans (take_eq_absent.mp h))⟩
  | present identity =>
    obtain ⟨node, hnode, -⟩ := take_eq_present.mp h
    exact ⟨_, take_eq_present.mpr ⟨node, hf.trans hnode, rfl⟩⟩

namespace FileSystem

variable {fs fs₁ final : FileSystem} {path : String} {temporary place : Location} {node : NodeId}
  {bytes : Bytes} {permissions : Nat}

/-- A path that does not lead to a directory leads to a file or to nothing. -/
theorem storable_of_take (hg : fs.Grounded) {now : Snapshot}
    (hnow : Snapshot.take fs path = .ok now)
    (hfile : ∀ id, fs.follow path = .ok id → fs.isDirectory id = false) : fs.Storable path := by
  cases now with
  | absent => exact Or.inl (Snapshot.take_eq_absent.mp hnow)
  | present identity =>
    obtain ⟨id, hid, -⟩ := Snapshot.take_eq_present.mp hnow
    rcases follow_cases hg hid with hdir | ⟨bytes, hbytes⟩
    · rw [hfile id hid] at hdir
      exact absurd hdir (by simp)
    · exact Or.inr ⟨id, bytes, hid, hbytes⟩

/-- **A temporary file that has been moved** has taken the name that the path ends in. -/
theorem MadeTemporary.rename_inv (h : MadeTemporary fs path fs₁ temporary node)
    (hg : fs.Grounded) (htemp : fs.isDirectory temporary.directory = true)
    (hl : (fs₁.writeTemporary node bytes permissions).locate path = .ok place)
    (hr : (fs₁.writeTemporary node bytes permissions).rename temporary place = .ok final) :
    fs.locate path = .ok place ∧ place.slash = false ∧ Replaced fs final place bytes := by
  have hwrite := h.keeps_write bytes permissions
  have hl := (hwrite.locate_of_hidden h.hidden_write).mp hl
  obtain ⟨file, -, hfile⟩ := h.node?_write bytes permissions
  rw [rename_eq (h.entry_write htemp bytes permissions) hfile] at hr
  cases hslash : place.slash with
  | true => simp [hslash] at hr
  | false =>
    have hreplaced := h.replaced hl hslash bytes permissions
    rw [hslash, if_neg (by simp)] at hr
    split at hr
    · exact ⟨hl, rfl, Except.ok.inj hr ▸ hreplaced⟩
    · rename_i old he
      -- the name stood for an old node, because the place is not that of the temporary file
      have hne : ¬ (place.directory = temporary.directory ∧ place.name = temporary.name) :=
        fun hc => h.ne_place hl hslash ⟨hc.1.symm, hc.2.symm⟩
      rw [hwrite.entries _ _ hne] at he
      rw [if_neg (h.new ▸ Nat.ne_of_lt (hg.entry _ _ _ he))] at hr
      split at hr
      · exact absurd hr (by simp)
      · exact ⟨hl, rfl, Except.ok.inj hr ▸ hreplaced⟩

/-- Writing a temporary file is not noticed at a path that does not lead to its directory. -/
theorem MadeTemporary.take_write (h : MadeTemporary fs path fs₁ temporary node)
    {above start : String}
    (hcreate : fs.createTemporary above start path = .ok (fs₁, temporary, node))
    (hg : fs.Grounded) (hapart : fs.follow path ≠ .ok temporary.directory) (bytes : Bytes)
    (permissions : Nat) :
    Snapshot.take (fs₁.writeTemporary node bytes permissions) path = Snapshot.take fs path := by
  have hfollow := (h.keeps_write bytes permissions).follow_of_hidden h.hidden_write
  rw [Snapshot.take, Snapshot.take, identity?, identity?, hfollow]
  cases hf : fs.follow path with
  | error cause => cases cause <;> rfl
  | ok id =>
    have hlt : id < fs.nodes.size := by
      rcases follow_cases hg hf with hdir | ⟨content, hcontent⟩
      · exact lt_size_of_isDirectory hdir
      · exact lt_size_of_contentOf hcontent
    have hne : id ≠ temporary.directory := fun he => hapart (he ▸ hf)
    have hnode : (fs₁.writeTemporary node bytes permissions).node? id = fs.node? id := by
      rw [writeTemporary, node?_updateFile_ne _ (h.new ▸ Nat.ne_of_lt hlt),
        node?_createTemporary hcreate hlt hne]
    simp only [identityOf, hnode]

end FileSystem

/-! ## 2. Histories -/

namespace Session

/-- The sessions that calls lead to, with the records that were added by the way: those whose
addition was answered with `true`.  The files may be other ones at every call. -/
inductive Reaches (start : Session) : List Record → Session → Prop
  | start : Reaches start [] start
  | call {added : List Record} {session : Session} (fs : FileSystem) (c : Call) :
      Reaches start added session →
      Reaches start (added ++ additions session.config.level c (session.call fs c).1)
        (session.call fs c).2

variable {start session : Session} {loaded : List Entry} {added : List Record}

theorem Reaches.reachable (h : Reaches start added session) : Reachable start session := by
  induction h with
  | start => exact .start
  | call fs c _ ih => exact .call fs c ih

theorem Reaches.holds (h : Reaches start added session) (hs : start.Holds loaded []) :
    session.Holds loaded added := by
  induction h with
  | start => exact hs
  | call fs c _ ih => exact holds_call ih fs c

/-- What a session keeps of the way in which it was opened. -/
theorem opened_with {fs : FileSystem} {path : String} {mode : Mode} {config : SessionConfig}
    (h : (Session.open fs path mode config).value = .ok session) :
    session.path = path ∧ session.config = config ∧
      Snapshot.take fs path = .ok session.snapshot := by
  rcases open_eq_ok.mp h with ⟨-, base, contents, hopened, rfl⟩ | ⟨-, snapshot, ht, rfl⟩
  · obtain ⟨node, bytes, hnode, -, -, rfl⟩ := BaseFile.open_eq_some.mp hopened
    exact ⟨rfl, rfl, Snapshot.take_eq_present.mpr ⟨node, hnode, rfl⟩⟩
  · exact ⟨rfl, rfl, ht⟩

/-! ## 3. Committing -/

/-- Since a session was opened, what is at its path and in its base file has not changed. -/
structure Unaltered (session : Session) (opened fs : FileSystem) : Prop where
  path : Snapshot.take fs session.path = Snapshot.take opened session.path
  /-- The path does not lead to the directory where the new store is written: that alters it. -/
  apart : ∀ beginning, fs.locate (Path.child (Path.directory session.path)
      (session.config.temporaryPrefix ++ FileSystem.temporarySuffix 0)) = .ok beginning →
    fs.follow session.path ≠ .ok beginning.directory
  base : ∀ base, session.base = some base → fs.contentOf base.node = opened.contentOf base.node

/-- A path that does not lead to a directory does not lead to that one. -/
theorem Unaltered.of_file {opened fs : FileSystem}
    (hpath : Snapshot.take fs session.path = Snapshot.take opened session.path)
    (hfile : ∀ id, fs.follow session.path = .ok id → fs.isDirectory id = false)
    (hbase : ∀ base, session.base = some base →
      fs.contentOf base.node = opened.contentOf base.node) : session.Unaltered opened fs := by
  refine ⟨hpath, fun beginning hb hf => ?_, hbase⟩
  obtain ⟨-, -, -, -, -, -, -, hdir⟩ := FileSystem.locate_eq_ok hb
  rw [hfile _ hf] at hdir
  exact absurd hdir (by simp)

variable {fs : FileSystem} {buffer : PendingBuffer}

/-- **Committing succeeds where nothing has changed**, unless the file system refuses a call; and
it refuses none where a new store can be written and the path does not lead to a directory. -/
theorem commit_of_unaltered (h : session.Holds loaded added) (hb : buffer.Holds added)
    (hbase : session.BaseIn fs) (hsize : (Record.frames added).length < UInt64.size)
    (hg : fs.Grounded) (htake : Snapshot.take fs session.path = .ok session.snapshot)
    (hapart : ∀ beginning, fs.locate (Path.child (Path.directory session.path)
        (session.config.temporaryPrefix ++ FileSystem.temporarySuffix 0)) = .ok beginning →
      fs.follow session.path ≠ .ok beginning.directory) :
    (∃ cause final, (session.commit fs buffer).value = (.error (.io cause), final) ∧
        ¬ (fs.Hosts session.path session.config.temporaryPrefix ∧
          ∀ id, fs.follow session.path = .ok id → fs.isDirectory id = false)) ∨
      ∃ final place, (session.commit fs buffer).value = (.ok (.committed added.length), final) ∧
        fs.locate session.path = .ok place ∧ place.slash = false ∧
        fs.Replaced final place (session.newStore fs added) := by
  rw [commit_value, ← hb.records]
  cases hcreate : fs.createTemporary (Path.directory session.path)
      session.config.temporaryPrefix session.path with
  | error cause =>
    refine Or.inl ⟨cause, fs, rfl, fun ⟨hhosts, _⟩ => ?_⟩
    obtain ⟨beginning, hbeginning⟩ := hhosts.beginning
    obtain ⟨fs₁, name, hok, -⟩ := FileSystem.createTemporary_of_locate session.path hbeginning
    rw [hcreate] at hok
    exact absurd hok (by simp)
  | ok made =>
    obtain ⟨fs₁, temporary, node⟩ := made
    obtain ⟨⟨beginning, hbeginning, hdirectory⟩, hmade⟩ :=
      FileSystem.createTemporary_eq_ok hcreate
    obtain ⟨-, -, -, -, -, -, -, htemp⟩ := FileSystem.locate_eq_ok hbeginning
    have hapart := hapart beginning hbeginning
    rw [← hdirectory] at htemp hapart
    have himage : session.image fs₁ buffer = .ok (session.newStore fs added) := by
      rw [image_eq h hb (hbase.keeps hmade.keeps) hsize, hbase.region_eq hmade.keeps]
      rfl
    obtain ⟨_, htake₁⟩ := Snapshot.exists_take_of_follow
      (hmade.keeps.follow_of_hidden hmade.hidden_write) htake
    obtain ⟨permissions, hpermissions⟩ := exists_newPermissions htake₁
    have hpublish := publish_eq himage hpermissions
      ((hmade.take_write hcreate hg hapart _ permissions).trans htake) temporary
    rw [if_pos rfl] at hpublish
    cases hmove : (fs₁.writeTemporary node (session.newStore fs added) permissions).locate
        session.path >>= (fs₁.writeTemporary node (session.newStore fs added)
          permissions).rename temporary with
    | error cause =>
      rw [hmove] at hpublish
      refine Or.inl ⟨cause, _, by simp only [hpublish, Except.mapError, Except.map]; rfl, ?_⟩
      rintro ⟨hhosts, hfile⟩
      obtain ⟨place, hl, hslash⟩ := hhosts.place
      rw [hmade.rename_eq_ok hg (FileSystem.storable_of_take hg htake hfile) htemp hl
        hslash] at hmove
      exact absurd hmove (by simp)
    | ok final =>
      rw [hmove] at hpublish
      obtain ⟨place, hl, hr⟩ := Fallible.bind_eq_ok.mp hmove
      obtain ⟨hl, hslash, hreplaced⟩ := hmade.rename_inv hg htemp hl hr
      exact Or.inr ⟨final, place, by simp only [hpublish, Except.mapError, Except.map], hl,
        hslash, hreplaced⟩

/-! ## 4. Closing -/

/-- The bytes are a header, a frame that lists the entries that a session has loaded and those
that it has added, the records of its base file as they are, and the added records. -/
def Extension (start : Session) (opened : FileSystem) (added : List Record) (bytes : Bytes) :
    Prop :=
  ∃ (size length : UInt64) (frame : Bytes), size.toNat = frame.length ∧
    bytes = (Header.ofIndex size length).encode ++ frame ++ start.region opened
      ++ Record.frames added ∧
    Index.decode frame length.toNat = .ok ⟨start.index.entries ++ added.map Record.entry⟩

/-- The records of a base file that has not changed. -/
theorem region_congr {fs opened : FileSystem} (h : ∀ base, session.base = some base →
    fs.contentOf base.node = opened.contentOf base.node) :
    session.region fs = session.region opened := by
  unfold region
  cases hb : session.base with
  | none => rfl
  | some base => simp only [h base hb]

/-- **The new store extends the old one.** -/
theorem extension_newStore {opened : FileSystem} (h : session.Holds start.index.entries added)
    (hfits : session.Fits) (hregion : session.region fs = start.region opened) :
    start.Extension opened added (session.newStore fs added) := by
  have hstore := hfits.store
  rw [imageFront_eq, Contents.length_front] at hstore
  have hentries : session.index = ⟨start.index.entries ++ added.map Record.entry⟩ := by
    rw [← h.entries]
  refine ⟨UInt64.ofNat (session.index.encode session.config.level).size,
    UInt64.ofNat (session.index.encode session.config.level).length,
    (session.index.encode session.config.level).bytes,
    UInt64.toNat_ofNat_of_lt' (by omega), ?_, ?_⟩
  · simp only [newStore, Contents.front, hregion, List.append_assoc]
  · have hlength : (UInt64.ofNat (session.index.encode session.config.level).length).toNat
        = session.index.serialize.length := UInt64.toNat_ofNat_of_lt' hfits.index
    rw [hlength, Index.decode_encode (Codec.entries_fitsByLength _ hfits.index), ← hentries]

/-- **What a commit publishes.**  A session was opened and calls have added records to it; neither
the path nor the base file has been altered since, and its numbers have 64 bits.  Then closing it
answers that these records are committed, and one name has come to stand for a new file, while
everything else is as it was: the new file is a header, a frame that lists the loaded and the
added entries, the records of the base file as they are, and the added records.  Where the path
did not lead to a directory it leads to that file now, and opening it loads these entries.

Otherwise the file system has refused a call, and it refuses none where a new store can be written
beside a path that does not lead to a directory. -/
theorem close_publishes {opened fs : FileSystem} {path : String} {mode : Mode}
    {config : SessionConfig} {start session : Session} {added : List Record}
    (hopen : (Session.open opened path mode config).value = .ok start)
    (hreach : start.Reaches added session) (hadded : added ≠ []) (hfits : session.Fits)
    (hg : fs.Grounded) (hsame : start.Unaltered opened fs) {force : Option Mode}
    (hforce : force ≠ some .read) :
    (∃ cause final, (session.close fs force).value = (.error (.io cause), final) ∧
        ¬ (fs.Hosts path config.temporaryPrefix ∧
          ∀ id, fs.follow path = .ok id → fs.isDirectory id = false)) ∨
      ∃ final place bytes,
        (session.close fs force).value = (.ok (.committed added.length), final) ∧
        fs.locate path = .ok place ∧ fs.Replaced final place bytes ∧
        start.Extension opened added bytes ∧
        ((∀ id, fs.follow path = .ok id → fs.isDirectory id = false) →
          final.load path = .ok bytes ∧
          ∀ mode config, mode ≠ .create → ∃ reopened,
            (Session.open final path mode config).value = .ok reopened ∧
            reopened.index.entries = start.index.entries ++ added.map Record.entry) := by
  obtain ⟨hpath, hconfig, htake⟩ := opened_with hopen
  have hsetup := hreach.reachable.sameSetup
  have h := hreach.holds (holds_open hopen)
  obtain ⟨buffer, hb, hclose⟩ := close_of_added h hadded fs hforce
  have hbase : start.BaseIn fs := by
    intro base hbase
    obtain ⟨content, hcontent, hsize⟩ := base_of_open hopen hbase
    exact ⟨content, (hsame.base base hbase).trans hcontent, hsize⟩
  have hsize : (Record.frames added).length < UInt64.size := by
    rw [h.length_frames]
    exact hfits.pendingBytes_lt
  have hnow : Snapshot.take fs session.path = .ok session.snapshot := by
    rw [hsetup.path, hsetup.snapshot, hsame.path, hpath, htake]
  have hapart := hsame.apart
  rw [← hsetup.path, ← hsetup.config] at hapart
  have hcases := commit_of_unaltered h hb (hbase.sameSetup hsetup) hsize hg hnow hapart
  rw [← hclose, hsetup.path, hpath, hsetup.config, hconfig] at hcases
  rcases hcases with hrefused | ⟨final, place, hvalue, hl, hslash, hreplaced⟩
  · exact Or.inl hrefused
  · have hregion : session.region fs = start.region opened :=
      (region_sameSetup hsetup fs).trans (region_congr hsame.base)
    refine Or.inr ⟨final, place, _, hvalue, hl, hreplaced, extension_newStore h hfits hregion,
      fun hfile => ?_⟩
    rw [hsetup.path, hpath] at hnow
    have hp := hreplaced.published hg hl hslash
      ((FileSystem.storable_of_take hg hnow hfile).impassable hg hl hslash)
    refine ⟨Fallible.bind_eq_ok.mpr ⟨_, hp.follow, hp.content⟩, fun mode config hmode => ?_⟩
    have hreopen := open_of_file hp.follow hp.content hmode config
    rw [(parse_newStore h (hbase.sameSetup hsetup) hfits).1] at hreopen
    exact ⟨_, hreopen, h.entries⟩

/-- A file system with a store whose only record does not decode. -/
def damagedFiles : FileSystem where
  nodes := #[.directory ⟨[("a", 1)], FileSystem.root, 0o755, 0⟩,
    .file ⟨Contents.front ⟨[⟨[1], 1, 5, none⟩]⟩ defaultLevel ++ [0], 0o644, 0⟩]
  clock := 1

/-- A session that extends that store. -/
def damagedSession : Session :=
  match (Session.open damagedFiles "a" .write .default).value with
  | .ok session => session
  | .error _ => ofNothing "a" .default .absent

/-- A record is added to that store, whose old record stays as it is. -/
theorem close_publishes_damaged : ∃ session added final bytes,
    damagedSession.Reaches added session ∧ added.length = 1 ∧
      (session.close damagedFiles none).value = (.ok (.committed 1), final) ∧
      damagedSession.Extension damagedFiles added bytes ∧ final.load "a" = .ok bytes := by
  have hopen : (Session.open damagedFiles "a" .write .default).value = .ok damagedSession := by
    decide +kernel
  have hreach := Reaches.call damagedFiles (.add [2] [3] none) (.start : damagedSession.Reaches [] _)
  have hone : ([] ++ additions damagedSession.config.level (.add [2] [3] none)
      (damagedSession.call damagedFiles (.add [2] [3] none)).1).length = 1 := by decide +kernel
  have hfile : ∀ id, damagedFiles.follow "a" = .ok id → damagedFiles.isDirectory id = false := by
    intro id hid
    obtain rfl : 1 = id := Except.ok.inj ((by decide +kernel : _ = .ok 1).symm.trans hid)
    rfl
  have hsame : damagedSession.Unaltered damagedFiles damagedFiles :=
    .of_file rfl ((opened_with hopen).1.symm ▸ hfile) fun _ _ => rfl
  have hcases := close_publishes hopen hreach (by decide +kernel) (by decide +kernel)
    (FileSystem.grounded_of_nodes rfl (by decide +kernel)) hsame
    (by decide : (none : Option Mode) ≠ some .read)
  rw [hone] at hcases
  rcases hcases with ⟨cause, final, -, hno⟩ | ⟨final, place, bytes, hclose, -, -, hext, hload⟩
  · exact absurd ⟨⟨⟨_, rfl, rfl⟩, ⟨_, rfl⟩, rfl⟩, hfile⟩ hno
  · exact ⟨_, _, final, bytes, hreach, hone, hclose, hext, (hload hfile).1⟩

end Session
end ConstStore
