/-
# The tool and the store

Every run of the tool opens the store anew, and all that it knows of earlier runs is in the file.
For one that puts values into a store, runs of the tool are nevertheless like calls on one and the
same store: a `Shelf` is kept of what is stored and of what was put there, and the tool answers as
the shelf says.

* `Shelf.after`: what a put makes of a shelf.
* `Shelf.Describes`: how a shelf is related to the file at its path.
* `Shelf.Describes.put`: one run of the tool that puts a value.
* `Tool.Filled`: the shelves that runs of the tool lead to.
* `Shelf.Agrees`: what the tool answers, going by the shelf.
* `Tool.run_agrees`: it does so after any number of puts.
-/
import ConstStore.Proofs.Extending
import ConstStore.Proofs.Inventory
import ConstStore.Tool.Run

namespace ConstStore

/-! ## 1. Shelves -/

/-- An item that is put into a store, or is to be the only one in a new store. -/
structure Put where
  item : Item
  create : Bool

namespace Put

/-- The record that the tool writes. -/
def record (p : Put) : Record := ⟨p.item, defaultLevel⟩

/-- The arguments ask to put the item into the store at a path, and its value can be read. -/
def Asked (p : Put) (fs : FileSystem) (path : String) (arguments : List String) (input : Bytes) :
    Prop :=
  ∃ key file metadata,
    Tool.Request.parse arguments = .run (.put path key file metadata p.create) ∧
    Tool.inputValue fs file input = .ok p.item.value ∧
    p.item.key = Utf8.bytes key ∧ p.item.metadata = metadata.map Utf8.bytes

end Put

/-- What is stored at a path, and the items of it that have been put there. -/
structure Shelf where
  stored : Option Stored
  items : List Item

namespace Shelf

/-- The keys in store. -/
def keys (s : Shelf) : List Bytes := (s.stored.getD .empty).entries.map Entry.key

/-- A put is accepted when its key is not there, or when it starts a new store. -/
def Accepts (s : Shelf) (p : Put) : Prop := p.create = true ∨ p.item.key ∉ s.keys

instance (s : Shelf) (p : Put) : Decidable (s.Accepts p) :=
  inferInstanceAs (Decidable (p.create = true ∨ p.item.key ∉ s.keys))

/-- What an accepted put leaves in store: what was there, unless it starts a new store, and its
record behind that. -/
def next (s : Shelf) (p : Put) : Stored :=
  (if p.create then .empty else s.stored.getD .empty).extend [p.record]

/-- The shelf after a put. -/
def after (s : Shelf) (p : Put) : Shelf :=
  if s.Accepts p then ⟨some (s.next p), (if p.create then [] else s.items) ++ [p.item]⟩ else s

/-- There is room for the item: if it is accepted, the numbers in the new store have 64 bits. -/
def HasRoom (s : Shelf) (p : Put) : Prop :=
  s.Accepts p → p.item.value.length < UInt64.size ∧ (s.next p).Fits defaultLevel

instance (s : Shelf) (p : Put) : Decidable (s.HasRoom p) :=
  inferInstanceAs (Decidable (s.Accepts p →
    p.item.value.length < UInt64.size ∧ (s.next p).Fits defaultLevel))

/-- The path holds what is stored, all items of the shelf are in it, and new stores can be written
beside it. -/
structure Describes (s : Shelf) (fs : FileSystem) (path : String) : Prop where
  grounded : fs.Grounded
  hosts : fs.Hosts path SessionConfig.default.temporaryPrefix
  held : Held fs path s.stored
  lengths : ∀ item ∈ s.items, item.value.length < UInt64.size
  gives : (s.stored.getD .empty).Gives s.items

end Shelf

/-! ## 2. Putting -/

namespace Tool

variable {fs : FileSystem} {path : String} {s : Shelf} {p : Put} {arguments : List String}
  {input : Bytes}

/-- Opening a session is opening a store. -/
theorem openStore_of_open {mode : Mode} {session : Session}
    (h : (Session.open fs path mode .default).value = .ok session) :
    openStore fs path mode = .ok session := by
  rw [openStore, h]
  rfl

theorem run_of_ok {command : Command} {output : Bytes} {fs' : FileSystem}
    (hparse : Request.parse arguments = .run command)
    (h : execute fs input command = (.ok output, fs')) :
    run fs arguments input = ⟨0, output, "", fs'⟩ := by
  simp only [run, hparse, h]

theorem run_of_error {command : Command} {failure : Failure} {fs' : FileSystem}
    (hparse : Request.parse arguments = .run command)
    (h : execute fs input command = (.error failure, fs')) :
    run fs arguments input = ⟨1, [], failure.render, fs'⟩ := by
  simp only [run, hparse, h]

/-- **Adding a record** fails when its key is there, and else leaves a session to be closed. -/
theorem addRecord_cases (h : s.Describes fs path) {key : String} {metadata : Option String}
    (hkey : p.item.key = Utf8.bytes key) (hmetadata : p.item.metadata = metadata.map Utf8.bytes) :
    (¬ s.Accepts p ∧
        ∃ failure, addRecord fs path key p.item.value metadata p.create = .error failure) ∨
      (s.Accepts p ∧ ∃ session,
        addRecord fs path key p.item.value metadata p.create = .ok session ∧
          session.Extends fs path .default
            (if p.create then .empty else s.stored.getD .empty) [p.record]) := by
  have hmode : (if p.create then Mode.create else Mode.write) ≠ .read := by
    cases p.create <;> exact nofun
  have hloaded : (if (if p.create then Mode.create else Mode.write) = .create then Stored.empty
      else s.stored.getD .empty) = if p.create then .empty else s.stored.getD .empty := by
    cases p.create <;> rfl
  -- a session that starts a new store has no key yet, so it accepts what the shelf accepts
  have haccepts : s.Accepts p ↔ p.item.key ∉
      ((if p.create then Stored.empty else s.stored.getD .empty).extend []).entries.map
        Entry.key := by
    rw [Shelf.Accepts, Shelf.keys, Stored.extend, List.map_nil, List.append_nil]
    cases p.create with
    | false => simp
    | true => simp [Stored.empty]
  obtain ⟨session, hopen, hextends⟩ := h.held.exists_extends hmode .default
  rw [hloaded] at hextends
  rw [addRecord, openStore_of_open hopen, ← hkey, ← hmetadata]
  rcases hextends.add_cases h.hosts.directory p.item with ⟨hk, ha⟩ | ⟨hk, next, ha, hnext⟩
  · refine Or.inl ⟨fun hno => haccepts.mp hno hk, ?_⟩
    simp only [bind, Except.bind, ha]
    exact ⟨_, rfl⟩
  · refine Or.inr ⟨haccepts.mpr hk, next, ?_, hnext⟩
    simp only [bind, Except.bind, ha]
    rfl

end Tool

namespace Shelf
namespace Describes

variable {fs : FileSystem} {path : String} {s : Shelf} {p : Put} {arguments : List String}
  {input : Bytes}

/-- The records of a store fill it, if there is one. -/
theorem length_region (h : s.Describes fs path) :
    (s.stored.getD .empty).region.length
      = extent ((s.stored.getD .empty).entries.map Entry.span) := by
  have hheld := h.held
  cases hs : s.stored with
  | none => rfl
  | some stored =>
    rw [hs] at hheld
    exact hheld.sound.region

/-- **An accepted put** gives its item, and those that are kept. -/
theorem gives_next (h : s.Describes fs path) (hfits : (s.next p).Fits defaultLevel) :
    (s.next p).Gives ((if p.create then [] else s.items) ++ [p.item]) := by
  have hsize : (Record.frames [p.record]).length < UInt64.size := by
    have hlength := hfits.bytes
    rw [Stored.bytes, next, Stored.extend, List.length_append, List.length_append] at hlength
    omega
  cases hcreate : p.create with
  | false =>
    have hnext : s.next p = (s.stored.getD .empty).extend [p.record] := by
      rw [next, hcreate]
      rfl
    rw [hnext]
    exact (h.gives.extend [p.record]).append (Stored.gives_added h.length_region hsize)
  | true =>
    have hnext : s.next p = Stored.empty.extend [p.record] := by
      rw [next, hcreate]
      rfl
    rw [hnext]
    exact Stored.gives_added Stored.sound_empty.region hsize

/-- **One put**: the tool refuses it and leaves the files, or it leaves what the shelf says. -/
theorem put (h : s.Describes fs path) (hp : p.Asked fs path arguments input)
    (hroom : s.HasRoom p) :
    (¬ s.Accepts p ∧ (Tool.run fs arguments input).code = 1 ∧
        (Tool.run fs arguments input).files = fs) ∨
      (s.Accepts p ∧ (Tool.run fs arguments input).code = 0 ∧
        (s.after p).Describes (Tool.run fs arguments input).files path) := by
  obtain ⟨key, file, metadata, hparse, hvalue, hkey, hmetadata⟩ := hp
  have hinput : Tool.inputValue fs file input
      >>= (Tool.addRecord fs path key · metadata p.create)
        = Tool.addRecord fs path key p.item.value metadata p.create := by
    rw [hvalue]
    rfl
  rcases Tool.addRecord_cases h hkey hmetadata with
    ⟨hno, failure, hadd⟩ | ⟨hyes, session, hadd, hextends⟩
  · have hput : Tool.execute fs input (.put path key file metadata p.create)
        = (.error failure, fs) := by
      simp only [Tool.execute, Tool.putValue, hinput, hadd]
      rfl
    rw [Tool.run_of_error hparse hput]
    exact Or.inl ⟨hno, rfl, rfl⟩
  · obtain ⟨hlength, hfits⟩ := hroom hyes
    obtain ⟨final, hclose, hpublished, hheld⟩ := hextends.close (List.cons_ne_nil _ _) hfits
      h.grounded h.held.storable h.hosts
    have hput : Tool.execute fs input (.put path key file metadata p.create) = (.ok [], final) := by
      simp only [Tool.execute, Tool.putValue, hinput, hadd, hclose]
      rfl
    rw [Tool.run_of_ok hparse hput, after, if_pos hyes]
    refine Or.inr ⟨hyes, rfl, ?_⟩
    exact {
      grounded := hpublished.grounded
      hosts := hpublished.hosts h.hosts
      held := hheld
      lengths := by
        intro item hitem
        rcases List.mem_append.mp hitem with hold | hnew
        · refine h.lengths item ?_
          cases hcreate : p.create with
          | false => rwa [hcreate] at hold
          | true =>
            rw [hcreate] at hold
            exact absurd hold List.not_mem_nil
        · rw [List.mem_singleton.mp hnew]
          exact hlength
      gives := h.gives_next hfits }

/-! ## 3. Reading -/

/-- A store that is there is opened with what is stored. -/
theorem exists_openStore (h : s.Describes fs path) {stored : Stored} (hs : s.stored = some stored) :
    ∃ session, Tool.openStore fs path .read = .ok session ∧ session.Holds stored.entries [] ∧
      session.BaseIn fs ∧ session.region fs = stored.region := by
  rcases h.held.open_cases .read .default with ⟨-, hnone, -⟩ | ⟨hmode, -, -⟩ |
    ⟨-, base, contents, hopen, hstored⟩
  · exact absurd (hnone.symm.trans hs) nofun
  · rcases hmode with hmode | ⟨hmode, -⟩ <;> exact absurd hmode nofun
  · obtain rfl := Option.some.inj (hs.symm.trans hstored)
    exact ⟨_, Tool.openStore_of_open hopen, Session.holds_open hopen,
      fun _ hb => Session.base_of_open hopen hb, rfl⟩

/-- **Showing the keys** shows those of the entries, in their order. -/
theorem showKeys_eq (h : s.Describes fs path) {stored : Stored} (hs : s.stored = some stored) :
    Tool.showKeys fs path = .ok (stored.entries.flatMap fun e => e.key ++ [0x0a]) := by
  obtain ⟨session, hopen, hholds, -⟩ := h.exists_openStore hs
  have hentries : session.info.entries = stored.entries :=
    hholds.entries.trans (List.append_nil _)
  rw [Tool.showKeys, hopen]
  exact congrArg (fun entries : List Entry => Except.ok (entries.flatMap fun e => e.key ++ [0x0a]))
    hentries

/-- **Getting an item of the shelf** gives its value. -/
theorem getValue_eq (h : s.Describes fs path) {item : Item} (hitem : item ∈ s.items) {key : String}
    (hkey : item.key = Utf8.bytes key) : Tool.getValue fs path key = .ok item.value := by
  obtain ⟨n, e, hat⟩ := h.gives item hitem (h.lengths item hitem)
  obtain ⟨stored, hs⟩ : ∃ stored, s.stored = some stored := by
    cases hs : s.stored with
    | some stored => exact ⟨stored, rfl⟩
    | none =>
      have hentry := hat.entry
      rw [hs] at hentry
      exact absurd hentry nofun
  rw [hs, Option.getD_some] at hat
  obtain ⟨session, hopen, hholds, hbase, hregion⟩ := h.exists_openStore hs
  have hthere : Stored.GivesAt ⟨stored.entries, session.region fs⟩ item n e := by
    rw [hregion]
    exact hat
  obtain ⟨hfound, hfetch⟩ := hholds.fetch_of_gives hbase hthere
  have hget : (session.get fs (Utf8.bytes key)).1 = .ok (some item.value) := by
    rw [Session.get_fst, ← hkey, if_pos hfound, hfetch]
    rfl
  rw [Tool.getValue, hopen]
  simp only [bind, Except.bind, hget]
  rfl

/-- **Getting a key that is not there** fails, also when there is no store. -/
theorem getValue_of_not_mem (h : s.Describes fs path) {key : String}
    (hkey : Utf8.bytes key ∉ s.keys) :
    ∃ failure, Tool.getValue fs path key = .error failure := by
  cases hs : s.stored with
  | none =>
    rcases h.held.open_cases .read .default with ⟨-, -, hopen⟩ | ⟨hmode, -, -⟩ |
      ⟨-, _, _, -, hstored⟩
    · rw [Tool.getValue, Tool.openStore, hopen]
      exact ⟨_, rfl⟩
    · rcases hmode with hmode | ⟨hmode, -⟩ <;> exact absurd hmode nofun
    · exact absurd (hs.symm.trans hstored) nofun
  | some stored =>
    obtain ⟨session, hopen, hholds, -⟩ := h.exists_openStore hs
    have hmiss : ¬ (session.find (Utf8.bytes key)).1 = true := by
      rw [hholds.find_fst, hholds.contains_iff, List.map_nil, List.append_nil]
      rw [keys, hs] at hkey
      exact hkey
    have hget : (session.get fs (Utf8.bytes key)).1 = .ok none := by
      rw [Session.get_fst, if_neg hmiss]
    rw [Tool.getValue, hopen]
    simp only [bind, Except.bind, hget]
    exact ⟨_, rfl⟩

end Describes

/-! ## 4. What the tool answers -/

/-- **The tool answers as the shelf says.** -/
structure Agrees (s : Shelf) (fs : FileSystem) (path : String) : Prop where
  held : Held fs path s.stored
  /-- A put succeeds just when its key is not there; then its record comes behind the others, and
  otherwise the files are left alone. -/
  appends : ∀ (p : Put) (arguments : List String) (input : Bytes), p.create = false →
    p.Asked fs path arguments input → s.HasRoom p →
    ((Tool.run fs arguments input).code = 0 ↔ p.item.key ∉ s.keys) ∧
      (p.item.key ∉ s.keys → Held (Tool.run fs arguments input).files path
        (some ((s.stored.getD .empty).extend [p.record]))) ∧
      (p.item.key ∈ s.keys → (Tool.run fs arguments input).code = 1 ∧
        (Tool.run fs arguments input).files = fs)
  /-- A put that is to start a new store always succeeds, and its record is the only one then. -/
  creates : ∀ (p : Put) (arguments : List String) (input : Bytes), p.create = true →
    p.Asked fs path arguments input → s.HasRoom p →
    (Tool.run fs arguments input).code = 0 ∧
      Held (Tool.run fs arguments input).files path (some (Stored.empty.extend [p.record]))
  keys : ∀ (arguments : List String) (input : Bytes) (stored : Stored),
    Tool.Request.parse arguments = .run (.keys path) → s.stored = some stored →
    (Tool.run fs arguments input).code = 0 ∧ (Tool.run fs arguments input).output
      = stored.entries.flatMap fun e => e.key ++ [0x0a]
  get : ∀ (arguments : List String) (input : Bytes) (key : String),
    Tool.Request.parse arguments = .run (.get path key) →
    (∀ item ∈ s.items, item.key = Utf8.bytes key → (Tool.run fs arguments input).code = 0 ∧
      (Tool.run fs arguments input).output = item.value) ∧
    (Utf8.bytes key ∉ s.keys → (Tool.run fs arguments input).code = 1 ∧
      (Tool.run fs arguments input).output = [])

theorem Describes.agrees {fs : FileSystem} {path : String} {s : Shelf} (h : s.Describes fs path) :
    s.Agrees fs path where
  held := h.held
  appends := by
    intro p arguments input hcreate hasked hroom
    have haccepts : s.Accepts p ↔ p.item.key ∉ s.keys :=
      or_iff_right (by rw [hcreate]; exact Bool.false_ne_true)
    rcases h.put hasked hroom with ⟨hno, hcode, hfiles⟩ | ⟨hyes, hcode, hafter⟩
    · have hmem : p.item.key ∈ s.keys := not_not.mp (mt haccepts.mpr hno)
      refine ⟨⟨fun hzero => ?_, fun hnew => absurd hmem hnew⟩, fun hnew => absurd hmem hnew,
        fun _ => ⟨hcode, hfiles⟩⟩
      exact absurd (hcode.symm.trans hzero) (by decide)
    · have hnew := haccepts.mp hyes
      have hheld := hafter.held
      rw [after, if_pos hyes, next, hcreate] at hheld
      exact ⟨⟨fun _ => hnew, fun _ => hcode⟩, fun _ => hheld, fun hmem => absurd hmem hnew⟩
  creates := by
    intro p arguments input hcreate hasked hroom
    rcases h.put hasked hroom with ⟨hno, -, -⟩ | ⟨hyes, hcode, hafter⟩
    · exact absurd (Or.inl hcreate) hno
    · have hheld := hafter.held
      rw [after, if_pos hyes, next, hcreate] at hheld
      exact ⟨hcode, hheld⟩
  keys := by
    intro arguments input stored hparse hs
    have hshow : Tool.execute fs input (.keys path)
        = (.ok (stored.entries.flatMap fun e => e.key ++ [0x0a]), fs) := by
      rw [Tool.execute, h.showKeys_eq hs]
    rw [Tool.run_of_ok hparse hshow]
    exact ⟨rfl, rfl⟩
  get := by
    intro arguments input key hparse
    constructor
    · intro item hitem hkey
      have hget : Tool.execute fs input (.get path key) = (.ok item.value, fs) := by
        rw [Tool.execute, h.getValue_eq hitem hkey]
      rw [Tool.run_of_ok hparse hget]
      exact ⟨rfl, rfl⟩
    · intro hkey
      obtain ⟨failure, hmiss⟩ := h.getValue_of_not_mem hkey
      have hget : Tool.execute fs input (.get path key) = (.error failure, fs) := by
        rw [Tool.execute, hmiss]
      rw [Tool.run_of_error hparse hget]
      exact ⟨rfl, rfl⟩

end Shelf

/-! ## 5. Any number of puts -/

namespace Tool

/-- The shelves and the files that runs of the tool lead to which put items into the store at a
path.  Nobody else writes to this store; other files may change in between. -/
inductive Filled (path : String) (start : Shelf) (files : FileSystem) : Shelf → FileSystem → Prop
  | start : Filled path start files start files
  | put {s : Shelf} {fs : FileSystem} {p : Put} {arguments : List String} {input : Bytes} :
      Filled path start files s fs → p.Asked fs path arguments input → s.HasRoom p →
      Filled path start files (s.after p) (run fs arguments input).files
  | elsewhere {s : Shelf} {fs fs' : FileSystem} : Filled path start files s fs → fs'.Grounded →
      fs'.Hosts path SessionConfig.default.temporaryPrefix → Held fs' path s.stored →
      Filled path start files s fs'

theorem Filled.describes {path : String} {start s : Shelf} {files fs : FileSystem}
    (h : Filled path start files s fs) (hstart : start.Describes files path) :
    s.Describes fs path := by
  induction h with
  | start => exact hstart
  | put _ hasked hroom ih =>
    rcases ih.put hasked hroom with ⟨hno, -, hfiles⟩ | ⟨-, -, hafter⟩
    · rw [Shelf.after, if_neg hno, hfiles]
      exact ih
    · exact hafter
  | elsewhere _ hg hhosts hheld ih => exact ⟨hg, hhosts, hheld, ih.lengths, ih.gives⟩

/-- **The tool agrees with the store.**  At first nothing is at a path or an accepted store, and new
stores can be written beside it.  Then after any puts that there was room for, the path holds what
was there at first with the records of these puts behind it, as far as no put has started a new
store or was refused; and the tool answers accordingly, whether it is to put one more item, to show
the keys, or to get a value. -/
theorem run_agrees {files fs : FileSystem} {path : String} {stored : Option Stored} {s : Shelf}
    (hg : files.Grounded) (hhosts : files.Hosts path SessionConfig.default.temporaryPrefix)
    (hheld : Held files path stored) (h : Filled path ⟨stored, []⟩ files s fs) :
    s.Agrees fs path :=
  (h.describes ⟨hg, hhosts, hheld, nofun, Stored.gives_nil _⟩).agrees

/-- A value is put under a key, another one is refused there, and a third one, put with `--create`,
is all that is left. -/
theorem run_agrees_created : ∃ fs,
    Filled "a" ⟨none, []⟩ .empty ⟨some (Stored.empty.extend [⟨⟨[0x6b], [2], none⟩, defaultLevel⟩]),
      [⟨[0x6b], [2], none⟩]⟩ fs ∧
    (run fs ["get", "a", "k"] []).output = [2] ∧ (run fs ["keys", "a"] []).output = [0x6b, 0x0a] ∧
    (run fs ["put", "a", "k"] [3]).code = 1 := by
  have hosts : FileSystem.empty.Hosts "a" SessionConfig.default.temporaryPrefix :=
    ⟨⟨_, rfl, rfl⟩, ⟨_, rfl⟩, rfl⟩
  have hkey : ([0x6b] : Bytes) = Utf8.bytes "k" := by decide +kernel
  have hparse : Request.parse ["put", "a", "k"] = .run (.put "a" "k" none none false) := by
    decide +kernel
  have hparse' : Request.parse ["put", "a", "k", "--create"]
      = .run (.put "a" "k" none none true) := by decide +kernel
  have hput : ∀ (value : Bytes) (fs : FileSystem),
      Put.Asked ⟨⟨[0x6b], value, none⟩, false⟩ fs "a" ["put", "a", "k"] value :=
    fun value fs => ⟨"k", none, none, hparse, rfl, hkey, rfl⟩
  have hcreate : ∀ fs,
      Put.Asked ⟨⟨[0x6b], [2], none⟩, true⟩ fs "a" ["put", "a", "k", "--create"] [2] :=
    fun fs => ⟨"k", none, none, hparse', rfl, hkey, rfl⟩
  have hheld : Held .empty "a" none := rfl
  have h₁ := (Filled.start : Filled "a" ⟨none, []⟩ .empty ⟨none, []⟩ .empty).put
    (hput [1] .empty) (by decide +kernel)
  have h₂ := h₁.put (hput [9] _) (by decide +kernel)
  have h₃ := h₂.put (hcreate _) (by decide +kernel)
  have hagrees := run_agrees FileSystem.grounded_empty hosts hheld h₃
  obtain ⟨hget, -⟩ := hagrees.get ["get", "a", "k"] [] "k" (by decide +kernel)
  obtain ⟨-, hkeys⟩ := hagrees.keys ["keys", "a"] [] _ (by decide +kernel) rfl
  obtain ⟨-, -, hrefused⟩ := hagrees.appends ⟨⟨[0x6b], [3], none⟩, false⟩ ["put", "a", "k"] [3] rfl
    (hput [3] _) (by decide +kernel)
  exact ⟨_, h₃, (hget ⟨[0x6b], [2], none⟩ (by decide +kernel) (by decide +kernel)).2, hkeys,
    (hrefused (by decide +kernel)).1⟩

end Tool
end ConstStore
