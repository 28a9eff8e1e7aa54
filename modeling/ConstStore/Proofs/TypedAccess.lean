/-
# Typed access

Beside the calls for byte strings a session has two for typed values, which take a codec.  Adding a
value checks the mode and the key before anything is written for the value, and adding the bytes
checks both again.  Fetching a value may fail on bytes that could be fetched well, and what it
leaves behind must not depend on that.

* `Session.TypedAsBytes`: what typed calls do, told by the calls for byte strings.
* `Session.Holds.fetch_congr`: what fetching gives does not depend on what was read before.
* `KnownAt`: where a value is that has been added, going by acts and answers.
* `typed_access`: every session treats typed values as bytes, and a value comes back wherever it
  is known to be.
-/
import ConstStore.Proofs.Inventory
import ConstStore.Proofs.Session.Additions
import ConstStore.Proofs.ValueType

namespace ConstStore

/-! ## 1. Codecs -/

/-- The codecs that programs use: the one that leaves byte strings as they are, and those of the
types of values. -/
inductive Codec.OfProtocol : {α : Type} → Codec α → Prop
  | raw : OfProtocol .raw
  | typed (type : ValueType) : OfProtocol type.codec

/-- **What they write is read back**, unless it is more than a 64-bit number of bytes. -/
theorem Codec.OfProtocol.undoes {α : Type} {codec : Codec α} (h : codec.OfProtocol) {value : α}
    (hlen : (codec.encode value).length < UInt64.size) :
    codec.deserialize (codec.encode value) = .ok value := by
  cases h with
  | raw => rfl
  | typed type => exact (AcceptsOwn.of_exact type.exact).undoes value (type.fitsByLength value hlen)

/-! ## 2. Fetching again -/

/-- What is read from a base file does not depend on what was read before. -/
theorem BaseFile.readRecord_congr {base old : BaseFile} (hsetup : base.setup = old.setup)
    (h : base.cursor.Coherent) (h' : old.cursor.Coherent) (fs : FileSystem)
    (offset size length : Nat) :
    (base.readRecord fs offset size length).1 = (old.readRecord fs offset size length).1 := by
  have hnode : base.node = old.node := congrArg (·.1) hsetup
  have hheader : base.header = old.header := congrArg (·.2.1) hsetup
  have hsize : base.size = old.size := congrArg (·.2.2.size) hsetup
  simp only [readRecord, hnode, hheader, hsize]
  by_cases hout : offset < old.header.dataOffset ∨ old.size < offset + size
  · rw [if_pos hout, if_pos hout]
  · rw [if_neg hout, if_neg hout]
    cases fs.contentOf old.node with
    | error cause => rfl
    | ok content => simp only [Cursor.readAt_fst h, Cursor.readAt_fst h']

/-- Nor is what is read from a buffer. -/
theorem PendingBuffer.readRecord_congr {buffer old : PendingBuffer} {added : List Record}
    (h : buffer.Holds added) (h' : old.Holds added) (offset size length : Nat) :
    (buffer.readRecord offset size length).1 = (old.readRecord offset size length).1 := by
  have hcontent : buffer.content = old.content := h.content.trans h'.content.symm
  have hsize : buffer.size = old.size := congrArg List.length hcontent
  rw [readRecord, readRecord, hsize]
  by_cases hout : old.size < offset + size
  · rw [if_pos hout, if_pos hout]
  · rw [if_neg hout, if_neg hout]
    simp only [hcontent, Cursor.readAt_fst h.cursor, Cursor.readAt_fst h'.cursor]

namespace Session

variable {s t session : Session} {loaded : List Entry} {added : List Record}

/-- **Sessions that hold the same and have found the same fetch the same.** -/
theorem Holds.fetch_congr (h : s.Holds loaded added) (h' : t.Holds loaded added)
    (hs : SameSetup s t) (hlast : t.last = s.last) (hpending : t.pending = none ↔ s.pending = none)
    (fs : FileSystem) : (t.fetch fs).1 = (s.fetch fs).1 := by
  unfold fetch
  rw [hlast]
  cases s.last with
  | none => rfl
  | some last =>
    dsimp only
    cases last.source with
    | base =>
      rcases hs.base_cases with ⟨hold, hnew⟩ | ⟨old, base, hold, hnew, hsetup⟩
      · simp only [hold, hnew]
      · simp only [hold, hnew]
        exact BaseFile.readRecord_congr hsetup (h'.base base hnew) (h.base old hold) fs _ _ _
    | pending =>
      cases hold : s.pending with
      | none => simp only [hpending.mpr hold]
      | some old =>
        obtain ⟨buffer, hnew⟩ := Option.ne_none_iff_exists'.mp fun hn =>
          absurd (hold.symm.trans (hpending.mp hn)) (by simp)
        simp only [hnew]
        exact PendingBuffer.readRecord_congr (h'.buffer buffer hnew) (h.buffer old hold) _ _ _

/-- Fetching a second time gives what the first time would have given. -/
theorem Holds.fetch_fetch (h : s.Holds loaded added) (fs files : FileSystem) :
    ((s.fetch fs).2.fetch files).1 = (s.fetch files).1 :=
  h.fetch_congr (holds_fetch h fs) (sameSetup_fetch s fs) (last_fetch s fs)
    (pending_fetch_eq_none_iff s fs) files

/-! ## 3. Typed values and bytes -/

variable {α : Type}

/-- Finding a key, and then fetching a value with a codec, gives this value. -/
def Yields (session : Session) (files : FileSystem) (codec : Codec α) (key : Bytes) (value : α) :
    Prop :=
  (session.find key).1 = true ∧ ((session.find key).2.fetchValue files codec).1 = .ok value

theorem yields_of_fetch {files : FileSystem} {codec : Codec α} {key : Bytes} {value : α}
    (hfind : (session.find key).1 = true)
    (hfetch : ((session.find key).2.fetch files).1 = .ok (codec.encode value))
    (hundoes : codec.deserialize (codec.encode value) = .ok value) :
    session.Yields files codec key value := by
  refine ⟨hfind, ?_⟩
  rw [fetchValue_eq, hfetch]
  exact hundoes

/-- **Typed access is byte access with a codec.** -/
structure TypedAsBytes (session : Session) : Prop where
  /-- Adding a value is adding what is written for it: with the same answer, and the same session
  afterwards. -/
  add : ∀ fs (α : Type) (codec : Codec α) key value metadata,
    session.call fs (.addValue codec key value metadata)
      = session.call fs (.add key (codec.encode value) metadata)
  /-- A value that has been added comes back from now on, whatever is called afterwards and
  whatever has become of the files. -/
  back : ∀ fs (α : Type) (codec : Codec α) key value metadata more next,
    codec.OfProtocol → (codec.encode value).length < UInt64.size →
    (session.call fs (.addValue codec key value metadata)).1 = .ok true →
    (session.call fs (.addValue codec key value metadata)).2.History more next →
    next.pendingBytes < UInt64.size → ∀ files, next.Yields files codec key value
  /-- Fetching a value is fetching the bytes and reading them. -/
  fetch : ∀ fs (α : Type) (codec : Codec α),
    session.fetchValue fs codec
      = ((session.fetch fs).1 >>= codec.deserialize, (session.fetch fs).2)
  /-- Whether or not it succeeds, it changes nothing that can be noticed, and fetching gives
  afterwards what it would have given. -/
  again : ∀ fs (α : Type) (codec : Codec α),
    let next := (session.fetchValue fs codec).2
    next.last = session.last ∧ next.index = session.index ∧ next.lookup = session.lookup ∧
      next.stored = session.stored ∧ next.pendingRecords = session.pendingRecords ∧
      ∀ files, (next.fetch files).1 = (session.fetch files).1

/-- It is so for every session. -/
theorem Holds.typedAsBytes (h : session.Holds loaded added) : session.TypedAsBytes where
  add fs α codec key value metadata := by
    simp only [call, addValue_value]
    rfl
  back fs α codec key value metadata more next hcodec hlen hanswer hnext hpending files := by
    have hholds := hnext.holds (holds_call h fs (.addValue codec key value metadata))
    simp only [additions, hanswer, accepted] at hholds
    have hmem : (⟨⟨key, codec.encode value, metadata⟩, session.config.level⟩ : Record)
        ∈ (added ++ [⟨⟨key, codec.encode value, metadata⟩, session.config.level⟩]) ++ more :=
      List.mem_append_left _ (List.mem_append_right _ (List.mem_singleton_self _))
    obtain ⟨hfind, hfetch⟩ := hholds.fetch_of_mem hpending hmem hlen files
    exact yields_of_fetch hfind hfetch (hcodec.undoes hlen)
  fetch fs α codec := session.fetchValue_eq fs codec
  again fs α codec := by
    have hfetch := holds_fetch h fs
    rw [fetchValue_eq]
    refine ⟨last_fetch session fs, h.index_congr hfetch,
      h.lookup_congr hfetch (sameSetup_fetch session fs), ?_, ?_, h.fetch_fetch fs⟩
    · rw [hfetch.stored_eq, h.stored_eq]
    · rw [hfetch.pendingRecords_eq, h.pendingRecords_eq]

end Session

/-! ## 4. Across sessions -/

/-- Where a value can be. -/
inductive Place where
  | session (handle : Nat)
  | store

/-- A value under a key is known to be at a place, going by the acts so far and their answers. -/
inductive KnownAt {α : Type} (codec : Codec α) (key : Bytes) (value : α) :
    List Event → Place → Prop
  /-- It has been added in a session. -/
  | added {events : List Event} (handle : Nat) (metadata : Option Bytes) :
      KnownAt codec key value (events ++
        [⟨handle, .call (.addValue codec key value metadata), some (.ok true)⟩]) (.session handle)
  /-- It stays there, whatever is called and whatever is done with other handles. -/
  | stays {events : List Event} {handle : Nat} (event : Event) :
      KnownAt codec key value events (.session handle) →
      (event.handle = handle → ∃ c, event.act = .call c) →
      KnownAt codec key value (events ++ [event]) (.session handle)
  /-- The session has committed. -/
  | committed {events : List Event} {handle : Nat} (force : Option Mode) (n : Nat) :
      KnownAt codec key value events (.session handle) →
      KnownAt codec key value (events ++ [⟨handle, .close force, some (.ok (.committed n))⟩])
        .store
  /-- It stays in store, unless a session commits that was to start a new store. -/
  | remains {events : List Event} (event : Event) :
      KnownAt codec key value events .store →
      (event.act.commits event.answer = true →
        ∀ s ∈ (Inventory.ofEvents events).sessions event.handle, s.mode ≠ .create) →
      KnownAt codec key value (events ++ [event]) .store
  /-- A session has been opened to read the store or to extend it. -/
  | reopened {events : List Event} (handle : Nat) {mode : Mode} (config : SessionConfig)
      (effective : Mode) :
      KnownAt codec key value events .store → mode ≠ .create →
      KnownAt codec key value
        (events ++ [⟨handle, .open mode config, some (.ok effective)⟩]) (.session handle)

/-- The inventory has an item at a place. -/
def Inventory.Has (i : Inventory) (item : Item) : Place → Prop
  | .session handle => ∃ s, i.sessions handle = some s ∧ item ∈ s.items
  | .store => item ∈ i.store

namespace Inventory.Has

variable {i : Inventory} {item : Item} {handle other : Nat}

/-- What is in a session stays there. -/
theorem stays (h : i.Has item (.session handle)) {a : Act} (answer : Option a.Answer)
    (ha : other = handle → ∃ c, a = .call c) :
    (i.note other a answer).Has item (.session handle) := by
  obtain ⟨s, hs, hitem⟩ := h
  obtain ⟨s', hs', hprefix⟩ := items_note hs a answer ha
  exact ⟨s', hs', hprefix.subset hitem⟩

/-- What is in a session that commits is in store. -/
theorem committed (h : i.Has item (.session handle)) (force : Option Mode) (n : Nat) :
    (i.note handle (.close force) (some (.ok (.committed n)))).Has item .store := by
  obtain ⟨s, hs, hitem⟩ := h
  show item ∈ (i.sessions handle).elim _ _
  rw [hs]
  exact List.mem_append_right _ hitem

/-- What is in store stays there. -/
theorem remains (h : i.Has item .store) {a : Act} {answer : Option a.Answer}
    (ha : a.commits answer = true → ∀ s ∈ i.sessions handle, s.mode ≠ .create) :
    (i.note handle a answer).Has item .store :=
  (store_note a answer ha).subset h

/-- What is in store is in a session that is opened to read it or to extend it. -/
theorem reopened (h : i.Has item .store) {mode : Mode} (hm : mode ≠ .create)
    (config : SessionConfig) (effective : Mode) :
    (i.note handle (.open mode config) (some (.ok effective))).Has item (.session handle) := by
  refine ⟨_, Function.update_self .., ?_⟩
  rw [if_neg hm]
  exact List.mem_append_left _ h

end Inventory.Has

section

variable {α : Type} {codec : Codec α} {key : Bytes} {value : α} {path : String}
  {files : FileSystem} {events : List Event} {place : Place}

/-- A value that every run of these events has put at a place, and one more event, by which all
that is at this place comes to another one. -/
theorem World.Run.has_next {next : Place} {event : Event}
    (hbefore : ∀ {w}, Run (begin path files) events w →
      ∃ metadata, (Inventory.ofEvents events).Has ⟨key, codec.encode value, metadata⟩ place)
    (hevent : ∀ {item}, (Inventory.ofEvents events).Has item place →
      ((Inventory.ofEvents events).note event.handle event.act event.answer).Has item next)
    {w : World} (h : Run (begin path files) (events ++ [event]) w) :
    ∃ metadata, (Inventory.ofEvents (events ++ [event])).Has ⟨key, codec.encode value, metadata⟩
      next := by
  obtain ⟨before, hrun, -⟩ := h.concat_inv
  obtain ⟨metadata, hhas⟩ := hbefore hrun
  rw [Inventory.ofEvents_append]
  exact ⟨metadata, hevent hhas⟩

/-- **What is known of a value is in the inventory.** -/
theorem KnownAt.has (hg : files.Grounded) (h : KnownAt codec key value events place) :
    ∀ {w : World}, World.Run (World.begin path files) events w →
      ∃ metadata, (Inventory.ofEvents events).Has ⟨key, codec.encode value, metadata⟩ place := by
  induction h with
  | @added events handle metadata =>
    intro w hrun
    obtain ⟨before, hbefore, hevent⟩ := hrun.concat_inv
    -- there is an answer, so there has been a session
    cases hsession : before.sessions handle with
    | none => simp [World.act, hsession] at hevent
    | some session =>
      obtain ⟨s, -, -, -, hs, -⟩ := (hbefore.inventory hg).exists_stock hsession
      rw [Inventory.ofEvents_append]
      exact ⟨metadata, _, Inventory.sessions_note_call hs _ _,
        List.mem_append_right _ (List.mem_append_right _ (List.mem_singleton_self _))⟩
  | stays event _ ha ih => exact World.Run.has_next ih fun h => h.stays event.answer ha
  | committed force n _ ih => exact World.Run.has_next ih fun h => h.committed force n
  | remains event _ ha ih => exact World.Run.has_next ih fun h => h.remains ha
  | reopened handle config effective _ hm ih =>
    exact World.Run.has_next ih fun h => h.reopened hm config effective

end

/-- **Typed access agrees with byte access.**  In every session, whatever has been called on it and
whatever has failed, adding and fetching typed values is adding and fetching what is written for
them.  A value that has been added comes back in the same session; and in every run on a path, once
its session has committed, in every session that is opened later, however many have come and gone
since, as long as nobody commits a store that was started anew. -/
theorem typed_access {path : String} {files : FileSystem} (hg : files.Grounded)
    {events : List Event} {w : World} (h : World.Run (World.begin path files) events w) :
    (∀ {opened : FileSystem} {path : String} {mode : Mode} {config : SessionConfig}
        {start session : Session} {before : List Record},
      (Session.open opened path mode config).value = .ok start →
      start.History before session → session.TypedAsBytes) ∧
    ∀ {α : Type} {codec : Codec α} {key : Bytes} {value : α} {handle : Nat}, codec.OfProtocol →
      (codec.encode value).length < UInt64.size →
      KnownAt codec key value events (.session handle) →
      ∃ session, w.sessions handle = some session ∧ session.Yields w.files codec key value := by
  refine ⟨fun hopen hreach => (hreach.holds (Session.holds_open hopen)).typedAsBytes,
    fun hcodec hlen hknown => ?_⟩
  obtain ⟨metadata, s, hs, hitem⟩ := hknown.has hg h
  obtain ⟨session, hsession, hfind, hfetch⟩ := (h.inventory hg).fetch
    (h.fits (World.fits_begin path files)) hs hitem hlen
  exact ⟨session, hsession, Session.yields_of_fetch hfind hfetch (hcodec.undoes hlen)⟩

/-- A text is added and committed, a session that extends the store commits another record, and
the text comes back in a third session.  A session on a damaged store treats values as bytes, too. -/
theorem typed_access_reopened :
    (∃ events w session, World.Run (World.begin "a" .empty) events w ∧
      w.sessions 0 = some session ∧ session.Yields w.files .string [1] "Übersicht") ∧
    Session.damagedSession.TypedAsBytes := by
  have h₁ : World.Run (World.begin "a" .empty) _ _ := .start
  have h₂ := h₁.next 0 (.open .create .default) (by decide +kernel)
  have h₃ := h₂.answered 0 (.call (.addValue .string [1] "Übersicht" none)) (some (.ok true))
    (by decide +kernel) (by decide +kernel)
  have h₄ := h₃.answered 0 (.close none) (some (.ok (.committed 1))) (by decide +kernel)
    (by decide +kernel)
  have h₅ := h₄.next 1 (.open .write .default) (by decide +kernel)
  have h₆ := h₅.next 1 (.call (.add [2] [3] none)) (by decide +kernel)
  have h₇ := h₆.answered 1 (.close none) (some (.ok (.committed 1))) (by decide +kernel)
    (by decide +kernel)
  have h₈ := h₇.answered 0 (.open .read .default) (some (.ok .read)) (by decide +kernel)
    (by decide +kernel)
  have hopen : (Session.open Session.damagedFiles "a" .write .default).value
      = .ok Session.damagedSession := by decide +kernel
  obtain ⟨hbytes, hback⟩ := typed_access FileSystem.grounded_empty h₈
  obtain ⟨session, hs, hyields⟩ := hback (.typed .string)
    (by decide +kernel : (Codec.string.encode "Übersicht").length < UInt64.size)
    (.reopened 0 .default .read (.remains _ (.remains _ (.remains _ (.committed none 1
      (.added 0 none)) (by decide +kernel)) (by decide +kernel)) (by decide +kernel)) (by decide))
  exact ⟨⟨_, _, session, h₈, hs, hyields⟩, hbytes hopen .start⟩

end ConstStore
