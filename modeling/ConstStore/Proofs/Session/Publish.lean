/-
# Publishing

Committing a session either puts a complete new store at its path, or leaves the path and every
file as they are.  Which of the two it is depends on what there is at the path: the snapshot of
the session has to be what a snapshot taken now would be.

* `image_eq`: the new store is a front, the records of the base file, and the added records.
* `commit_cases`: the three ways in which committing ends.
* `parse_newStore`: what is published parses, and gives the index of the session back.
* `close_of_nothing`, `close_of_read`, `close_of_added`: when closing commits.
-/
import ConstStore.Proofs.FileSystem.Place
import ConstStore.Proofs.FileSystem.Temporary
import ConstStore.Proofs.Session.Records
import ConstStore.Proofs.Session.Writing
import ConstStore.Session.Close

namespace ConstStore

/-! ## 1. Paths to files -/

namespace FileSystem

/-- A path leads to nothing or to a file. -/
def Storable (fs : FileSystem) (path : String) : Prop :=
  fs.follow path = .error .notFound ∨
    ∃ id bytes, fs.follow path = .ok id ∧ fs.contentOf id = .ok bytes

variable {fs fs' : FileSystem} {changed : NodeId → String → Prop} {path : String}

theorem isDirectory_of_contentOf {id : NodeId} {bytes : Bytes}
    (h : fs.contentOf id = .ok bytes) : fs.isDirectory id = false := by
  obtain ⟨file, hn, -⟩ := contentOf_eq_ok.mp h
  rw [isDirectory, hn]

theorem kindOf_of_contentOf {id : NodeId} {bytes : Bytes} (h : fs.contentOf id = .ok bytes) :
    fs.kindOf id = .leaf := by
  obtain ⟨file, hn, -⟩ := contentOf_eq_ok.mp h
  rw [kindOf, hn]

theorem node_identityOf (fs : FileSystem) (id : NodeId) : (fs.identityOf id).node = id := by
  unfold identityOf
  split <;> rfl

theorem lt_size_of_contentOf {id : NodeId} {bytes : Bytes} (h : fs.contentOf id = .ok bytes) :
    id < fs.nodes.size := by
  obtain ⟨file, hn, -⟩ := contentOf_eq_ok.mp h
  exact (Array.getElem?_eq_some_iff.mp hn).1

theorem Storable.exists_take (h : fs.Storable path) :
    ∃ now, Snapshot.take fs path = .ok now := by
  rcases h with h | ⟨id, bytes, h, -⟩
  · exact ⟨_, Snapshot.take_eq_absent.mpr h⟩
  · exact ⟨_, Snapshot.take_eq_present.mpr ⟨id, h, rfl⟩⟩

/-- The place of such a path is impassable. -/
theorem Storable.impassable (h : fs.Storable path) (hg : fs.Grounded) {place : Location}
    (hl : fs.locate path = .ok place) (hslash : place.slash = false) :
    Impassable fs place.directory place.name := by
  rcases h with h | ⟨id, bytes, h, hb⟩
  · exact impassable_of_follow hg hl hslash
      (fun id hf => by rw [h] at hf; exact absurd hf (by simp)) (by rw [h]; simp)
  · refine impassable_of_follow hg hl hslash (fun id' hf => ?_) (by rw [h]; simp)
    rw [h] at hf
    rw [← Except.ok.inj hf]
    exact isDirectory_of_contentOf hb

/-- Nothing can be noticed of a change but new nodes without a name. -/
def Same (fs fs' : FileSystem) : Prop := fs.Keeps fs' fun _ _ => False

theorem Same.follow_eq (h : fs.Same fs') (path : String) : fs'.follow path = fs.follow path :=
  Keeps.follow_of_hidden h fun _ _ hc => absurd hc not_false

/-- It neither makes directories nor takes them away. -/
theorem Same.checkDirectory_iff (h : fs.Same fs') (path : String) :
    fs'.checkDirectory path = .ok () ↔ fs.checkDirectory path = .ok () :=
  ⟨Keeps.checkDirectory_inv h fun _ _ => False.elim,
    Keeps.checkDirectory_of_impassable h fun _ _ => False.elim⟩

theorem Same.grounded (h : fs.Same fs') (hg : fs.Grounded) : fs'.Grounded :=
  Keeps.grounded h hg fun _ _ _ hc => absurd hc not_false

/-- A snapshot depends on what the path leads to and on the file there. -/
theorem Keeps.take_eq (h : fs.Keeps fs' changed) (hs : fs.Storable path)
    (hf : fs'.follow path = fs.follow path) : Snapshot.take fs' path = Snapshot.take fs path := by
  rw [Snapshot.take, Snapshot.take, identity?, identity?, hf]
  rcases hs with hs | ⟨id, bytes, hs, hb⟩
  · rw [hs]
  · rw [hs]
    simp only [h.identityOf_eq hb]

end FileSystem

/-! ## 2. The new store -/

namespace Session

variable {session : Session} {loaded : List Entry} {added : List Record} {fs : FileSystem}
  {buffer : PendingBuffer}

/-- The base file of the session, if there is one, is a file as long as it was when opened. -/
def BaseIn (session : Session) (fs : FileSystem) : Prop :=
  ∀ base, session.base = some base →
    ∃ content, fs.contentOf base.node = .ok content ∧ content.length = base.size

/-- The records of the base file. -/
def region (session : Session) (fs : FileSystem) : Bytes :=
  match session.base with
  | none => []
  | some base =>
    match fs.contentOf base.node with
    | .ok content => content.drop base.header.dataOffset
    | .error _ => []

theorem BaseIn.keeps (h : session.BaseIn fs) {fs' : FileSystem}
    {changed : NodeId → String → Prop} (hk : fs.Keeps fs' changed) : session.BaseIn fs' := by
  intro base hb
  obtain ⟨content, hcontent, hsize⟩ := h base hb
  exact ⟨content, hk.contentOf_eq_ok hcontent, hsize⟩

theorem BaseIn.region_eq (h : session.BaseIn fs) {fs' : FileSystem}
    {changed : NodeId → String → Prop} (hk : fs.Keeps fs' changed) :
    session.region fs' = session.region fs := by
  unfold region
  cases hb : session.base with
  | none => rfl
  | some base =>
    obtain ⟨content, hcontent, -⟩ := h base hb
    simp only [hcontent, hk.contentOf_eq_ok hcontent]

theorem imageFront_eq (session : Session) :
    session.imageFront = Contents.front session.index session.config.level := rfl

/-- The records of the base file are copied whole. -/
theorem baseRegion_eq (h : session.Holds loaded added) (hbase : session.BaseIn fs) :
    session.baseRegion fs = .ok (session.region fs) := by
  unfold baseRegion region
  cases hb : session.base with
  | none => rfl
  | some base =>
    obtain ⟨content, hcontent, hsize⟩ := hbase base hb
    have hstart : base.header.dataOffset ≤ content.length := by
      have h := h.baseSize
      simp only [baseSize, dataStart, hb] at h
      omega
    have hcopy : (base.cursor.copyRegion content base.header.dataOffset
        (base.size - base.header.dataOffset)).1 = .ok (content.drop base.header.dataOffset) := by
      rw [Cursor.copyRegion_of_le (h.base base hb) (by omega), Bytes.slice,
        List.take_of_length_le (by rw [List.length_drop]; omega)]
    simp only [BaseFile.copyRecords, hcontent, hcopy, Except.mapError]

theorem length_region (h : session.Holds loaded added) (hbase : session.BaseIn fs) :
    (session.region fs).length = extent (loaded.map Entry.span) := by
  have hsum := h.baseSize
  unfold region
  cases hb : session.base with
  | none =>
    simp only [baseSize, dataStart, hb] at hsum
    simp only [List.length_nil]
    omega
  | some base =>
    obtain ⟨content, hcontent, hsize⟩ := hbase base hb
    simp only [baseSize, dataStart, hb] at hsum
    simp only [hcontent, List.length_drop]
    omega

/-- **The new store** is a front for the index, the records of the base file, and the added
ones. -/
theorem image_eq (h : session.Holds loaded added) (hb : buffer.Holds added)
    (hbase : session.BaseIn fs) (hsize : (Record.frames added).length < UInt64.size) :
    session.image fs buffer = .ok
      (Contents.front session.index session.config.level
        ++ (session.region fs ++ Record.frames added)) := by
  have hadded : buffer.copyRecords.1 = .ok (Record.frames added) := by
    have hcopy : (buffer.cursor.copyRegion buffer.content 0 buffer.size).1
        = .ok (Record.frames added) := by
      rw [Cursor.copyRegion_of_le hb.cursor (by rw [PendingBuffer.size]; omega), Bytes.slice,
        List.drop_zero, PendingBuffer.size, List.take_length, hb.content]
    simp only [PendingBuffer.copyRecords, hcopy, Except.mapError]
  have hbytes : session.index.recordBytes
      = (session.region fs).length + (Record.frames added).length := by
    rw [recordBytes_eq_extent, h.entries, List.map_append, Record.map_span_entry hsize,
      extent_append, length_region h hbase, Record.length_frames]
  simp only [image, baseRegion_eq h hbase, hadded, bind, Except.bind, Fallible.guard]
  rw [if_pos (by rw [hbytes, List.length_append, List.length_append, Nat.add_assoc]),
    imageFront_eq, List.append_assoc]
  rfl

end Session

/-! ## 3. A new store at a path -/

namespace FileSystem

variable {fs fs₁ : FileSystem} {path : String} {temporary place : Location} {node : NodeId}
  {bytes : Bytes}

/-- A new file with these bytes has come to the path, and nothing else has changed. -/
structure Published (fs fs' : FileSystem) (path : String) (bytes : Bytes) : Prop where
  keeps : ∃ changed, fs.Keeps fs' changed ∧
    ∀ directory name, changed directory name → fs.Impassable directory name
  follow : fs'.follow path = .ok fs.nodes.size
  content : fs'.contentOf fs.nodes.size = .ok bytes
  grounded : fs'.Grounded

/-- A new file with these bytes has taken the name at a place, and nothing else has changed. -/
structure Replaced (fs fs' : FileSystem) (place : Location) (bytes : Bytes) : Prop where
  keeps : fs.Keeps fs' fun d n => d = place.directory ∧ n = place.name
  entry : fs'.entry? place.directory place.name = some fs.nodes.size
  content : fs'.contentOf fs.nodes.size = .ok bytes

theorem Replaced.grounded {fs' : FileSystem} (h : Replaced fs fs' place bytes)
    (hg : fs.Grounded) : fs'.Grounded := by
  refine h.keeps.grounded hg ?_
  rintro d n id ⟨rfl, rfl⟩ hid
  rw [h.entry, Option.some.injEq] at hid
  exact hid ▸ lt_size_of_contentOf h.content

/-- **A new file at an impassable place is what the path leads to.** -/
theorem Replaced.published {fs' : FileSystem} (h : Replaced fs fs' place bytes)
    (hg : fs.Grounded) (hl : fs.locate path = .ok place) (hslash : place.slash = false)
    (himp : fs.Impassable place.directory place.name) : Published fs fs' path bytes := by
  have hplace : ∀ d n, d = place.directory ∧ n = place.name → fs.Impassable d n := by
    rintro d n ⟨rfl, rfl⟩
    exact himp
  exact {
    keeps := ⟨_, h.keeps, hplace⟩
    follow := follow_of_entry (h.keeps.locate_of_impassable hplace hl) hslash h.entry
      (kindOf_of_contentOf h.content)
    content := h.content
    grounded := h.grounded hg }

/-- **Where a new file has taken the name that a path ends in**, the path leads to this file.  If
the way to the name led through the name itself, it leads nowhere now. -/
theorem Replaced.follow_cases {fs' : FileSystem} (h : Replaced fs fs' place bytes)
    (hl : fs.locate path = .ok place) (hslash : place.slash = false) :
    fs'.follow path = .ok fs.nodes.size ∨ fs'.follow path = .error .notDirectory := by
  obtain ⟨above, links, hcheck, hplain, hparts, htrail, hle⟩ := exists_walk_of_locate hl hslash
  have hleaf : fs'.hop place.directory place.name
      = .leaf (.ok (.node fs.nodes.size)) .notDirectory := by
    rw [hop_of_plain hplain, h.entry, hopTo, kindOf_of_contentOf h.content]
  have hwalk := htrail.walk_to_leaf (fun _ _ => h.keeps.hop_eq) hleaf maxLinks hle
  rw [← hparts] at hwalk
  exact hwalk.imp (fun hw => follow_eq_ok.mpr ⟨hcheck, hw⟩) (follow_of_walk_error hcheck)

/-- The temporary file, written. -/
def writeTemporary (fs : FileSystem) (node : NodeId) (bytes : Bytes) (permissions : Nat) :
    FileSystem :=
  fs.updateFile node fun file => { file with content := bytes, permissions }

theorem MadeTemporary.keeps_write (h : MadeTemporary fs path fs₁ temporary node) (bytes : Bytes)
    (permissions : Nat) : fs.Keeps (fs₁.writeTemporary node bytes permissions)
      fun d n => d = temporary.directory ∧ n = temporary.name := by
  obtain ⟨file, hfile⟩ := h.file
  exact h.keeps.updateFile (Nat.le_of_eq h.new.symm) hfile _

theorem MadeTemporary.hidden_write (h : MadeTemporary fs path fs₁ temporary node) :
    ∀ directory name, directory = temporary.directory ∧ name = temporary.name →
      name ∉ fs.namesOn path := by
  rintro directory name ⟨-, rfl⟩
  exact h.hidden

theorem MadeTemporary.node?_write (h : MadeTemporary fs path fs₁ temporary node) (bytes : Bytes)
    (permissions : Nat) : ∃ file, file.content = bytes ∧
      (fs₁.writeTemporary node bytes permissions).node? node = some (.file file) := by
  obtain ⟨file, hfile⟩ := h.file
  exact ⟨_, rfl, node?_updateFile_self hfile _⟩

/-- The name at the place of the path is not that of the temporary file. -/
theorem MadeTemporary.ne_place (h : MadeTemporary fs path fs₁ temporary node)
    (hl : fs.locate path = .ok place) (hslash : place.slash = false) :
    ¬ (temporary.directory = place.directory ∧ temporary.name = place.name) := by
  rintro ⟨-, hname⟩
  obtain ⟨above, links, -, -, hparts, -, -⟩ := exists_walk_of_locate hl hslash
  refine h.hidden (List.mem_append_left _ ?_)
  rw [hparts, hname]
  exact List.mem_append_right _ List.mem_cons_self

/-- **A temporary file that is moved to the place of a path replaces what has that name.** -/
theorem MadeTemporary.replaced (h : MadeTemporary fs path fs₁ temporary node)
    (hl : fs.locate path = .ok place) (hslash : place.slash = false) (bytes : Bytes)
    (permissions : Nat) :
    Replaced fs ((fs₁.writeTemporary node bytes permissions).moveName temporary place node)
      place bytes := by
  have hwrite := h.keeps_write bytes permissions
  have hmove := keeps_moveName (fs₁.writeTemporary node bytes permissions) temporary place node
  obtain ⟨file, hbytes, hfile⟩ := h.node?_write bytes permissions
  obtain ⟨-, -, -, -, -, -, -, hdir⟩ := locate_eq_ok hl
  refine ⟨(hwrite.trans hmove).narrow fun d n hc => ?_, ?_, ?_⟩
  · by_cases htemp : d = temporary.directory ∧ n = temporary.name
    · obtain ⟨rfl, rfl⟩ := htemp
      rw [entry?_moveName_source (h.ne_place hl hslash), h.free]
    · rw [hmove.entries d n (not_or.mpr ⟨htemp, hc⟩), hwrite.entries d n htemp]
  · rw [← h.new]
    exact entry?_moveName_target ((hwrite.isDirectory_eq _).trans hdir)
  · rw [← h.new]
    exact contentOf_eq_ok.mpr ⟨file, hmove.files node file hfile, hbytes⟩

/-- Its name stands for it until then. -/
theorem MadeTemporary.entry_write (h : MadeTemporary fs path fs₁ temporary node)
    (htemp : fs.isDirectory temporary.directory = true) (bytes : Bytes) (permissions : Nat) :
    FileSystem.entry? (fs₁.writeTemporary node bytes permissions) temporary.directory
      temporary.name = some node := by
  rw [writeTemporary, entry?_updateFile]
  exact h.entry htemp

/-- **A temporary file can be moved** to a place that does not ask for a directory. -/
theorem MadeTemporary.rename_eq_ok (h : MadeTemporary fs path fs₁ temporary node)
    (hg : fs.Grounded) (hs : fs.Storable path)
    (htemp : fs.isDirectory temporary.directory = true) (hl : fs.locate path = .ok place)
    (hslash : place.slash = false) (bytes : Bytes) (permissions : Nat) :
    ((fs₁.writeTemporary node bytes permissions).locate path
        >>= (fs₁.writeTemporary node bytes permissions).rename temporary)
      = .ok ((fs₁.writeTemporary node bytes permissions).moveName temporary place node) := by
  have hwrite := h.keeps_write bytes permissions
  obtain ⟨file, -, hfile⟩ := h.node?_write bytes permissions
  have hentry := h.entry_write htemp bytes permissions
  refine Fallible.bind_eq_ok.mpr
    ⟨place, (hwrite.locate_of_hidden h.hidden_write).mpr hl,
      rename_of_file hentry hfile hslash fun old he => ?_⟩
  -- what the name stood for is an old node, and the place is impassable
  have hne : ¬ (place.directory = temporary.directory ∧ place.name = temporary.name) :=
    fun hc => h.ne_place hl hslash ⟨hc.1.symm, hc.2.symm⟩
  rw [hwrite.entries _ _ hne] at he
  obtain ⟨above, links, -, hplain, -⟩ := exists_walk_of_locate hl hslash
  have hold := isDirectory_of_impassable (hs.impassable hg hl hslash) hplain he
  exact ⟨h.new ▸ Nat.ne_of_lt (hg.entry _ _ _ he), (hwrite.isDirectory_eq old).trans hold⟩

/-- It can be moved nowhere else. -/
theorem MadeTemporary.rename_eq_error (h : MadeTemporary fs path fs₁ temporary node)
    (htemp : fs.isDirectory temporary.directory = true)
    (hno : ¬ ∃ place, fs.locate path = .ok place ∧ place.slash = false) (bytes : Bytes)
    (permissions : Nat) : ∃ cause, ((fs₁.writeTemporary node bytes permissions).locate path
        >>= (fs₁.writeTemporary node bytes permissions).rename temporary) = .error cause := by
  have hwrite := h.keeps_write bytes permissions
  obtain ⟨file, -, hfile⟩ := h.node?_write bytes permissions
  have hentry := h.entry_write htemp bytes permissions
  cases hl : (fs₁.writeTemporary node bytes permissions).locate path with
  | error cause => exact ⟨cause, rfl⟩
  | ok place =>
    have hl' := (hwrite.locate_of_hidden h.hidden_write).mp hl
    have hslash : place.slash = true := by
      by_cases hslash : place.slash = true
      · exact hslash
      · exact absurd ⟨place, hl', Bool.eq_false_iff.mpr hslash⟩ hno
    refine ⟨.notDirectory, ?_⟩
    show (fs₁.writeTemporary node bytes permissions).rename temporary place = _
    rw [rename_eq hentry hfile, if_pos hslash]

/-- A temporary file whose name is dropped has left no trace. -/
theorem MadeTemporary.same (h : MadeTemporary fs path fs₁ temporary node) :
    fs.Same (fs₁.dropName temporary.directory temporary.name) := by
  have hdrop := keeps_dropName fs₁ temporary.directory temporary.name
  refine (h.keeps.trans hdrop).narrow fun d n _ => ?_
  by_cases htemp : d = temporary.directory ∧ n = temporary.name
  · obtain ⟨rfl, rfl⟩ := htemp
    rw [entry?_dropName_self, h.free]
  · rw [hdrop.entries d n htemp, h.keeps.entries d n htemp]

/-- A new store can be written beside the one at a path, and moved there. -/
structure Hosts (fs : FileSystem) (path temporaryPrefix : String) : Prop where
  place : ∃ place, fs.locate path = .ok place ∧ place.slash = false
  beginning : ∃ beginning, fs.locate
    (Path.child (Path.directory path) (temporaryPrefix ++ temporarySuffix 0)) = .ok beginning
  directory : fs.checkDirectory (Path.directory path) = .ok ()

theorem Published.hosts {fs' : FileSystem} (h : Published fs fs' path bytes)
    {temporaryPrefix : String} (hh : fs.Hosts path temporaryPrefix) :
    fs'.Hosts path temporaryPrefix := by
  obtain ⟨changed, hkeeps, himp⟩ := h.keeps
  obtain ⟨⟨place, hplace, hslash⟩, ⟨beginning, hbeginning⟩, hdir⟩ := hh
  exact ⟨⟨place, hkeeps.locate_of_impassable himp hplace, hslash⟩,
    ⟨beginning, hkeeps.locate_of_impassable himp hbeginning⟩,
    hkeeps.checkDirectory_of_impassable himp hdir⟩

/-- Whether a new store can be written does not depend on what cannot be noticed. -/
theorem Same.hosts_iff {fs' : FileSystem} (h : fs.Same fs') {temporaryPrefix : String} :
    fs'.Hosts path temporaryPrefix ↔ fs.Hosts path temporaryPrefix := by
  have hlocate : ∀ {path : String} {place : Location},
      fs'.locate path = .ok place ↔ fs.locate path = .ok place :=
    Keeps.locate_of_hidden h fun _ _ hc => absurd hc not_false
  constructor
  · rintro ⟨⟨place, hplace, hslash⟩, ⟨beginning, hbeginning⟩, hdir⟩
    exact ⟨⟨place, hlocate.mp hplace, hslash⟩, ⟨beginning, hlocate.mp hbeginning⟩,
      (h.checkDirectory_iff _).mp hdir⟩
  · rintro ⟨⟨place, hplace, hslash⟩, ⟨beginning, hbeginning⟩, hdir⟩
    exact ⟨⟨place, hlocate.mpr hplace, hslash⟩, ⟨beginning, hlocate.mpr hbeginning⟩,
      (h.checkDirectory_iff _).mpr hdir⟩

end FileSystem

/-! ## 4. Committing -/

namespace Session

variable {session : Session} {loaded : List Entry} {added : List Record}
  {fs fs₁ : FileSystem} {buffer : PendingBuffer} {temporary : FileSystem.Location}
  {node : NodeId}

/-- The store that the session would publish. -/
def newStore (session : Session) (fs : FileSystem) (added : List Record) : Bytes :=
  Contents.front session.index session.config.level
    ++ (session.region fs ++ Record.frames added)

theorem exists_newPermissions {now : Snapshot}
    (h : Snapshot.take fs session.path = .ok now) :
    ∃ permissions, session.newPermissions fs = .ok permissions := by
  unfold newPermissions FileSystem.permissions?
  cases now with
  | absent =>
    rw [Snapshot.take_eq_absent.mp h]
    exact ⟨_, rfl⟩
  | present identity =>
    obtain ⟨node, hnode, -⟩ := Snapshot.take_eq_present.mp h
    rw [hnode]
    exact ⟨_, rfl⟩

/-- What publishing answers, where the new store and its permissions are there. -/
theorem publish_eq {bytes : Bytes} {permissions : Nat} {now : Snapshot}
    (himage : session.image fs buffer = .ok bytes)
    (hpermissions : session.newPermissions fs = .ok permissions)
    (htake : Snapshot.take (fs.writeTemporary node bytes permissions) session.path = .ok now)
    (temporary : FileSystem.Location) :
    session.publish fs buffer temporary node =
      if now = session.snapshot then
        (((fs.writeTemporary node bytes permissions).locate session.path
          >>= (fs.writeTemporary node bytes permissions).rename temporary).mapError Error.io).map
            fun final => some (final, bytes.length)
      else .ok none := by
  simp only [FileSystem.writeTemporary] at htake ⊢
  simp only [publish, write_sound, Device.demand_sound, himage, hpermissions, bind, Except.bind,
    Snapshot.unchanged, htake, Except.map, decide_eq_true_eq]
  by_cases hsame : now = session.snapshot
  · rw [if_pos hsame, if_pos hsame]
    generalize FileSystem.locate _ session.path = located
    cases located with
    | error cause => rfl
    | ok place =>
      dsimp only
      generalize FileSystem.rename _ temporary place = moved
      cases moved <;> rfl
  · rw [if_neg hsame, if_neg hsame]
    rfl

/-- The three ways in which publishing ends, for a temporary file that has been made. -/
theorem publish_cases (h : session.Holds loaded added) (hb : buffer.Holds added)
    (hbase : session.BaseIn fs) (hsize : (Record.frames added).length < UInt64.size)
    (hg : fs.Grounded) (hs : fs.Storable session.path)
    (hmade : FileSystem.MadeTemporary fs session.path fs₁ temporary node)
    (htemp : fs.isDirectory temporary.directory = true) :
    (∃ final, session.publish fs₁ buffer temporary node
          = .ok (some (final, (session.newStore fs added).length)) ∧
        Snapshot.take fs session.path = .ok session.snapshot ∧
        fs.Published final session.path (session.newStore fs added)) ∨
      (session.publish fs₁ buffer temporary node = .ok none ∧
        ∃ now, Snapshot.take fs session.path = .ok now ∧ now ≠ session.snapshot) ∨
      (∃ error, session.publish fs₁ buffer temporary node = .error error ∧
        ¬ ∃ place, fs.locate session.path = .ok place ∧ place.slash = false) := by
  have himage : session.image fs₁ buffer = .ok (session.newStore fs added) := by
    rw [image_eq h hb (hbase.keeps hmade.keeps) hsize, hbase.region_eq hmade.keeps]
    rfl
  have hfollow₁ := hmade.keeps.follow_of_hidden hmade.hidden_write
  have hs₁ : fs₁.Storable session.path := by
    rw [FileSystem.Storable, hfollow₁]
    rcases hs with hs | ⟨id, bytes, hs, hbytes⟩
    · exact Or.inl hs
    · exact Or.inr ⟨id, bytes, hs, hmade.keeps.contentOf_eq_ok hbytes⟩
  obtain ⟨_, hnow₁⟩ := hs₁.exists_take
  obtain ⟨permissions, hpermissions⟩ := exists_newPermissions hnow₁
  obtain ⟨now, hnow⟩ := hs.exists_take
  have hwrite := hmade.keeps_write (session.newStore fs added) permissions
  have htake := (hwrite.take_eq hs (hwrite.follow_of_hidden hmade.hidden_write)).trans hnow
  have hpublish := publish_eq himage hpermissions htake temporary
  by_cases hsame : now = session.snapshot
  · rw [if_pos hsame] at hpublish
    rw [hsame] at hnow
    by_cases hplace : ∃ place, fs.locate session.path = .ok place ∧ place.slash = false
    · obtain ⟨place, hl, hslash⟩ := hplace
      rw [hmade.rename_eq_ok hg hs htemp hl hslash] at hpublish
      exact Or.inl ⟨_, hpublish, hnow, (hmade.replaced hl hslash _ permissions).published hg hl
        hslash (hs.impassable hg hl hslash)⟩
    · obtain ⟨cause, hmove⟩ := hmade.rename_eq_error htemp hplace
        (session.newStore fs added) permissions
      rw [hmove] at hpublish
      exact Or.inr (Or.inr ⟨_, hpublish, hplace⟩)
  · rw [if_neg hsame] at hpublish
    exact Or.inr (Or.inl ⟨hpublish, now, hnow, hsame⟩)

/-- **Publishing is the same on every device**, unless a step fails. -/
theorem publish_follows (device : Device) (session : Session) (fs : FileSystem)
    (buffer : PendingBuffer) (temporary : FileSystem.Location) (node : NodeId) :
    device.Follows (session.publish fs buffer temporary node device)
      (session.publish fs buffer temporary node) := by
  unfold publish
  rw [write_sound]
  refine (write_follows _ _ _ device).bind fun bytes _ => (device.demand_follows _).bind fun _ _ =>
    Device.Follows.bind (.refl _) fun permissions _ => (device.demand_follows _).bind fun _ _ =>
    (device.demand_follows _).bind fun _ _ => Device.Follows.bind (.refl _) fun unchanged _ => ?_
  split
  · exact (device.demand_follows _).bind fun _ _ => .refl _
  · exact .refl _

/-- What committing answers on a device, without the lines that report it.  Whether the new name
lasts is no part of that. -/
theorem commit_value_on (device : Device) (session : Session) (fs : FileSystem)
    (buffer : PendingBuffer) :
    (session.commit fs buffer device).value =
      match session.createTemporary fs device with
      | .error error => (.error error, fs)
      | .ok (fs, temporary, node) =>
        match session.publish fs buffer temporary node device with
        | .error error => (.error error, fs.dropName temporary.directory temporary.name)
        | .ok none => (.ok (.conflictLoss buffer.records),
            fs.dropName temporary.directory temporary.name)
        | .ok (some (published, _)) => (.ok (.committed buffer.records), published) := by
  unfold commit
  cases session.createTemporary fs device with
  | error error => rfl
  | ok created =>
    obtain ⟨fs₁, temporary, node⟩ := created
    dsimp only
    cases session.publish fs₁ buffer temporary node device with
    | error error => rfl
    | ok published =>
      rcases published with _ | ⟨published, size⟩
      · rfl
      · dsimp only
        split <;> rfl

/-- What committing answers, without the lines that report it. -/
theorem commit_value (session : Session) (fs : FileSystem) (buffer : PendingBuffer) :
    (session.commit fs buffer).value =
      match fs.createTemporary (Path.directory session.path) session.config.temporaryPrefix
        session.path with
      | .error cause => (.error (.io cause), fs)
      | .ok (fs, temporary, node) =>
        match session.publish fs buffer temporary node with
        | .error error => (.error error, fs.dropName temporary.directory temporary.name)
        | .ok none => (.ok (.conflictLoss buffer.records),
            fs.dropName temporary.directory temporary.name)
        | .ok (some (published, _)) => (.ok (.committed buffer.records), published) := by
  rw [commit_value_on, createTemporary, Device.demand_sound]
  cases fs.createTemporary (Path.directory session.path) session.config.temporaryPrefix
    session.path <;> rfl

/-- **The three ways in which committing ends**: the new store is at the path, or there is
something else at the path than when the session was opened, or it fails. -/
theorem commit_cases (h : session.Holds loaded added) (hb : buffer.Holds added)
    (hbase : session.BaseIn fs) (hsize : (Record.frames added).length < UInt64.size)
    (hg : fs.Grounded) (hs : fs.Storable session.path) :
    (∃ final, (session.commit fs buffer).value = (.ok (.committed added.length), final) ∧
        Snapshot.take fs session.path = .ok session.snapshot ∧
        fs.Published final session.path (session.newStore fs added)) ∨
      (∃ final, (session.commit fs buffer).value = (.ok (.conflictLoss added.length), final) ∧
        (∃ now, Snapshot.take fs session.path = .ok now ∧ now ≠ session.snapshot) ∧
        fs.Same final) ∨
      (∃ error final, (session.commit fs buffer).value = (.error error, final) ∧
        ¬ fs.Hosts session.path session.config.temporaryPrefix ∧ fs.Same final) := by
  rw [commit_value, ← hb.records]
  cases hcreate : fs.createTemporary (Path.directory session.path)
      session.config.temporaryPrefix session.path with
  | error cause =>
    refine Or.inr (Or.inr ⟨.io cause, fs, rfl, fun hhosts => ?_, .refl fs⟩)
    obtain ⟨beginning, hbeginning⟩ := hhosts.beginning
    obtain ⟨fs₁, name, hok, -⟩ := FileSystem.createTemporary_of_locate session.path hbeginning
    rw [hcreate] at hok
    exact absurd hok (by simp)
  | ok made =>
    obtain ⟨fs₁, temporary, node⟩ := made
    obtain ⟨⟨beginning, hbeginning, hdir⟩, hmade⟩ := FileSystem.createTemporary_eq_ok hcreate
    obtain ⟨-, -, -, -, -, -, -, htemp⟩ := FileSystem.locate_eq_ok hbeginning
    rw [← hdir] at htemp
    rcases publish_cases h hb hbase hsize hg hs hmade htemp with
      ⟨final, hpublish, hsnapshot, hpublished⟩ | ⟨hpublish, hnow⟩ | ⟨error, hpublish, hno⟩
    · exact Or.inl ⟨final, by simp only [hpublish], hsnapshot, hpublished⟩
    · exact Or.inr (Or.inl ⟨_, by simp only [hpublish], hnow, hmade.same⟩)
    · exact Or.inr (Or.inr ⟨error, _, by simp only [hpublish], fun hhosts => hno hhosts.place,
        hmade.same⟩)

/-! ## 5. The published store -/

/-- The store that the session would publish has numbers of 64 bits. -/
structure Fits (session : Session) : Prop where
  index : session.index.serialize.length < UInt64.size
  store : session.imageFront.length + session.baseSize + session.pendingBytes < UInt64.size

instance (session : Session) : Decidable session.Fits :=
  decidable_of_iff (session.index.serialize.length < UInt64.size ∧
      session.imageFront.length + session.baseSize + session.pendingBytes < UInt64.size)
    ⟨fun h => ⟨h.1, h.2⟩, fun h => ⟨h.index, h.store⟩⟩

theorem Fits.pendingBytes_lt (h : session.Fits) : session.pendingBytes < UInt64.size := by
  have := h.store
  omega

theorem Holds.length_frames (h : session.Holds loaded added) :
    (Record.frames added).length = session.pendingBytes := by
  rw [h.pendingBytes_eq, Record.length_frames]

/-- **What is published parses**, and gives the index of the session back. -/
theorem parse_newStore (h : session.Holds loaded added) (hbase : session.BaseIn fs)
    (hfits : session.Fits) :
    Contents.parse (session.newStore fs added)
        = .ok (Contents.ofIndex session.index session.config.level) ∧
      (Contents.ofIndex session.index session.config.level).header.dataOffset
        = session.imageFront.length := by
  have hframes := h.length_frames
  have hregion := length_region h hbase
  have hpending := hfits.pendingBytes_lt
  have htotal := hfits.store
  have hbaseSize := h.baseSize
  refine Contents.parse_front_append h.nodup_keys hfits.index ?_ ?_
  · rw [h.entries, List.map_append, Record.map_span_entry (hframes ▸ hpending), extent_append,
      List.length_append, hregion, Record.length_frames]
  · rw [List.length_append, List.length_append, ← imageFront_eq]
    omega

/-! ## 6. Closing -/

/-- A session that has added nothing is closed without a word, with a buffer or without. -/
theorem close_eq_noChanges (h : session.Holds loaded []) (fs : FileSystem)
    (force : Option Mode) (device : Device) :
    session.close fs force device = pure (.ok .noChanges, fs) := by
  unfold close
  split
  · rfl
  · rename_i buffer hb
    rw [if_pos (by simp [(h.buffer buffer hb).records])]

theorem close_of_nothing (h : session.Holds loaded []) (fs : FileSystem) (force : Option Mode)
    (device : Device := .sound) :
    (session.close fs force device).value = (.ok .noChanges, fs) := by
  rw [close_eq_noChanges h]
  rfl

/-- A session that has added something can be written, and its buffer has records. -/
theorem exists_buffer (h : session.Holds loaded added) (hne : added ≠ []) :
    ∃ buffer, session.pending = some buffer ∧ buffer.Holds added ∧
      ¬ (!session.mode.isWritable || buffer.records = 0) = true := by
  cases hp : session.pending with
  | none => exact absurd (h.noBuffer hp) hne
  | some buffer =>
    have hb := h.buffer buffer hp
    have hw : session.mode.isWritable = true := by
      cases hm : session.mode with
      | read =>
        rw [h.readOnly hm] at hp
        exact absurd hp (by simp)
      | write | create => rfl
    have hr : buffer.records ≠ 0 := by
      rw [hb.records, ne_eq, List.length_eq_zero_iff]
      exact hne
    exact ⟨buffer, rfl, hb, by simp [hw, hr]⟩

theorem close_of_read (h : session.Holds loaded added) (hne : added ≠ []) (fs : FileSystem)
    (device : Device := .sound) :
    (session.close fs (some .read) device).value = (.ok (.discarded added.length), fs) := by
  obtain ⟨buffer, hp, hb, hopen⟩ := exists_buffer h hne
  rw [close, hp]
  dsimp only
  rw [if_neg hopen, if_pos rfl, ← hb.records]
  rfl

/-- A session with additions is committed unless it is told to drop them. -/
theorem close_of_added (h : session.Holds loaded added) (hne : added ≠ []) (fs : FileSystem)
    {force : Option Mode} (hforce : force ≠ some .read) (device : Device := .sound) :
    ∃ buffer, buffer.Holds added ∧
      session.close fs force device = session.commit fs buffer device := by
  obtain ⟨buffer, hp, hb, hopen⟩ := exists_buffer h hne
  refine ⟨buffer, hb, ?_⟩
  rw [close, hp]
  dsimp only
  rw [if_neg hopen, if_neg hforce]

/-- **A session that has added something replaces the store**, where its path is as it was and a new
store can be written beside it. -/
theorem close_of_current (h : session.Holds loaded added) (hne : added ≠ [])
    (hbase : session.BaseIn fs) (hsize : (Record.frames added).length < UInt64.size)
    (hg : fs.Grounded) (hs : fs.Storable session.path)
    (hnow : Snapshot.take fs session.path = .ok session.snapshot)
    (hhosts : fs.Hosts session.path session.config.temporaryPrefix) :
    ∃ final, (session.close fs none).value = (.ok (.committed added.length), final) ∧
      fs.Published final session.path (session.newStore fs added) := by
  obtain ⟨buffer, hb, hclose⟩ := close_of_added h hne fs (by simp : (none : Option Mode) ≠ some .read)
  rw [hclose]
  rcases commit_cases h hb hbase hsize hg hs with
    ⟨final, hvalue, -, hp⟩ | ⟨-, -, ⟨now, hother, hne⟩, -⟩ | ⟨-, -, -, hno, -⟩
  · exact ⟨final, hvalue, hp⟩
  · exact absurd (Except.ok.inj (hother.symm.trans hnow)) hne
  · exact absurd hhosts hno

theorem BaseIn.sameSetup {next : Session} (h : session.BaseIn fs)
    (hs : SameSetup session next) : next.BaseIn fs := by
  intro base hb
  obtain ⟨old, hold, hsetup⟩ := hs.base_eq_some hb
  obtain ⟨content, hcontent, hsize⟩ := h old hold
  have hnode : base.node = old.node := congrArg (·.1) hsetup
  have hbase : base.size = old.size := congrArg (·.2.2.size) hsetup
  exact ⟨content, hnode ▸ hcontent, hsize.trans hbase.symm⟩

theorem region_sameSetup {next : Session} (hs : SameSetup session next) (fs : FileSystem) :
    next.region fs = session.region fs := by
  rcases hs.base_cases with ⟨hold, hnew⟩ | ⟨old, base, hold, hnew, hsetup⟩
  · simp only [region, hold, hnew]
  · have hnode : base.node = old.node := congrArg (·.1) hsetup
    have hheader : base.header = old.header := congrArg (·.2.1) hsetup
    simp only [region, hold, hnew, hnode, hheader]

end Session
end ConstStore
