/-
# What a user sees of a session

To its user a session is a list of items with distinct keys, to which items are added.  A `Draft`
is just that, with what was found last and the number of items added.  It has no files, no places
and no compression.

* `Draft.answers`, `Draft.after`: what calls answer, and what they change.
* `Draft.Mirrors`: how a session is related to what its user sees.
* `Draft.Mirrors.answers_call`, `Draft.Mirrors.call`: a call answers what the draft says, and
  leaves session and draft related.
-/
import ConstStore.Proofs.Session.Values

namespace ConstStore

/-! ## 1. Drafts -/

/-- A session as its user sees it. -/
structure Draft where
  mode : Mode
  /-- The items, in the order in which they were added. -/
  items : List Item
  /-- How many of them the session has added. -/
  added : Nat
  /-- The item that was found last, and its position. -/
  found : Option (Item × Nat)

namespace Draft

/-- The item with a key, and its position. -/
def find? (d : Draft) (key : Bytes) : Option (Item × Nat) :=
  d.items.zipIdx.find? fun place => place.1.key = key

/-- Whether an item with this key would be added. -/
def accepts (d : Draft) (key : Bytes) : Bool := d.mode.isWritable && (d.find? key).isNone

/-- Adds an item, unless the session is read-only or has the key. -/
def add (d : Draft) (item : Item) : Draft :=
  if d.accepts item.key then { d with items := d.items ++ [item], added := d.added + 1 } else d

/-- The value of the item that was found last. -/
def value (d : Draft) : Except Error Bytes :=
  match d.found with
  | none => .error .noPriorFind
  | some (item, _) => .ok item.value

/-- What a call has to answer. -/
def answers (d : Draft) : (c : Call) → c.Answer → Prop
  | .contains key, answer => answer = (d.find? key).isSome
  | .find key, answer => answer = (d.find? key).isSome
  | .fetch, answer => answer = d.value
  | .get key, answer => answer = .ok ((d.find? key).map (·.1.value))
  | .metadata, answer => answer = d.found.bind (·.1.metadata)
  | .last, answer => answer.map (fun last => (last.key, last.ordinal, last.length))
      = d.found.map fun (item, ordinal) => (item.key, ordinal, item.value.length)
  | .size, answer => answer = d.items.length
  | .info, answer =>
    answer.entries.map (fun e => (e.key, e.length.toNat, e.metadata))
        = d.items.map (fun item => (item.key, item.value.length, item.metadata)) ∧
      answer.slots.map (·.1) = d.items.map (·.key)
  | .add key _ _, answer => answer = .ok (d.accepts key)
  | .addValue _ key _ _, answer => answer = .ok (d.accepts key)
  | .fetchValue codec, answer => answer = d.value >>= fun bytes =>
      (codec.read bytes).mapError fun fault => .decode (.value fault)

/-- The draft after a call. -/
def after (d : Draft) : Call → Draft
  | .find key | .get key => { d with found := d.find? key }
  | .add key value metadata => d.add ⟨key, value, metadata⟩
  | .addValue codec key value metadata => d.add ⟨key, codec.encode value, metadata⟩
  | .contains _ | .fetch | .metadata | .last | .size | .info | .fetchValue _ => d

/-- What closing the session has to answer. -/
def outcome (d : Draft) (force : Option Mode) : Outcome :=
  if d.added = 0 then .noChanges
  else if force = some .read then .discarded d.added
  else .committed d.added

end Draft

/-! ## 2. What calls add -/

/-- The value that a call would add has a length of 64 bits. -/
def Call.ValueFits : Call → Prop
  | .add _ value _ => value.length < UInt64.size
  | .addValue codec _ value _ => (codec.encode value).length < UInt64.size
  | _ => True

namespace Draft

theorem found_add (d : Draft) (item : Item) : (d.add item).found = d.found := by
  unfold add
  split <;> rfl

/-- Adding appends the item when the answer is `true`, and nothing otherwise. -/
theorem add_eq (d : Draft) (r : Record) {answer : Except Error Bool}
    (h : answer = .ok (d.accepts r.key)) :
    (d.add r.toItem).mode = d.mode ∧
      (d.add r.toItem).items = d.items ++ (Session.accepted r answer).map Record.toItem ∧
      (d.add r.toItem).added = d.added + (Session.accepted r answer).length := by
  subst h
  by_cases ha : d.accepts r.key = true
  · rw [add, if_pos ha, ha]
    exact ⟨rfl, rfl, rfl⟩
  · rw [add, if_neg ha, Bool.eq_false_iff.mpr ha]
    simp [Session.accepted]

/-- **A call adds the items that its answer tells of.** -/
theorem after_eq (d : Draft) (level : Zstd.Level) {c : Call} {answer : c.Answer}
    (h : d.answers c answer) :
    (d.after c).mode = d.mode ∧
      (d.after c).items
        = d.items ++ (Session.additions level c answer).map Record.toItem ∧
      (d.after c).added = d.added + (Session.additions level c answer).length := by
  cases c with
  | add key value metadata => exact d.add_eq ⟨⟨key, value, metadata⟩, level⟩ h
  | addValue codec key value metadata =>
    exact d.add_eq ⟨⟨key, codec.encode value, metadata⟩, level⟩ h
  | contains _ | find _ | fetch | get _ | metadata | last | size | info | fetchValue _ =>
    simp [after, Session.additions]

end Draft

/-- What a call adds is the value that it was given. -/
theorem Call.ValueFits.additions {c : Call} (h : c.ValueFits) (level : Zstd.Level)
    (answer : c.Answer) :
    ∀ r ∈ Session.additions level c answer, r.value.length < UInt64.size := by
  have haccepted : ∀ r : Record, r.value.length < UInt64.size → ∀ answer : Except Error Bool,
      ∀ s ∈ Session.accepted r answer, s.value.length < UInt64.size := by
    intro r hr answer s hs
    unfold Session.accepted at hs
    split at hs
    · rwa [List.mem_singleton.mp hs]
    · exact absurd hs (by simp)
  cases c with
  | add key value metadata => exact haccepted ⟨⟨key, value, metadata⟩, level⟩ h answer
  | addValue codec key value metadata =>
    exact haccepted ⟨⟨key, codec.encode value, metadata⟩, level⟩ h answer
  | contains _ | find _ | fetch | get _ | metadata | last | size | info | fetchValue _ =>
    exact fun r hr => absurd hr (by simp [Session.additions])

/-! ## 3. Sessions and drafts -/

/-- An item is found at its position, when keys are distinct. -/
theorem find?_zipIdx {items : List Item} (hd : (items.map Item.key).Nodup) {n : Nat}
    {item : Item} (h : items[n]? = some item) :
    items.zipIdx.find? (fun place => place.1.key = item.key) = some (item, n) := by
  obtain ⟨hn, hitem⟩ := List.getElem?_eq_some_iff.mp h
  rw [List.find?_eq_some_iff_getElem]
  refine ⟨by simp, n, by simpa using hn, by simp [hitem], ?_⟩
  intro m hm
  have hne : items[m].key ≠ item.key := by
    intro heq
    rw [← hitem, ← List.getElem_map Item.key, ← List.getElem_map Item.key,
      hd.getElem_inj_iff] at heq
    · exact absurd heq (Nat.ne_of_lt hm)
    all_goals rw [List.length_map]; omega
  simpa using hne

/-- What a session and its user remember of the last key that was looked up: nothing, or one
record. -/
inductive Remembered (dataStart : Nat) (loaded added : List Record) :
    Option LastLookup → Option (Item × Nat) → Prop
  | nothing : Remembered dataStart loaded added none none
  | record {last : LastLookup} {r : Record} (h : Points dataStart loaded added last r) :
      Remembered dataStart loaded added (some last) (some (r.toItem, last.ordinal))

theorem Remembered.append {dataStart : Nat} {loaded added : List Record}
    {last : Option LastLookup} {found : Option (Item × Nat)}
    (h : Remembered dataStart loaded added last found) (more : List Record) :
    Remembered dataStart loaded (added ++ more) last found := by
  cases h with
  | nothing => exact .nothing
  | record hp => exact .record (hp.append more)

/-- The draft is what a user sees of a session that has loaded and added these records. -/
structure Draft.Mirrors (d : Draft) (session : Session) (files : FileSystem)
    (loaded added : List Record) : Prop where
  carries : session.Carries files loaded added
  mode : session.mode = d.mode
  items : d.items = (loaded ++ added).map Record.toItem
  count : d.added = added.length
  found : Remembered session.dataStart loaded added session.last d.found

namespace Draft.Mirrors

variable {d : Draft} {session : Session} {files : FileSystem} {loaded added : List Record}

theorem map_key_items (h : d.Mirrors session files loaded added) :
    d.items.map Item.key = (loaded ++ added).map (·.key) := by
  rw [h.items, List.map_map]
  rfl

/-- **Finding a key is finding its item.** -/
theorem remembered_find? (h : d.Mirrors session files loaded added) (key : Bytes) :
    Remembered session.dataStart loaded added (session.locate? key) (d.find? key) := by
  cases hl : session.locate? key with
  | none =>
    have hnone : d.find? key = none := by
      rw [h.carries.locate?_eq_none, ← h.map_key_items] at hl
      rw [find?, List.find?_eq_none]
      rintro ⟨item, ordinal⟩ hmem hkey
      have hitem := List.fst_mem_of_mem_zipIdx hmem
      exact hl (List.mem_map.mpr ⟨item, hitem, of_decide_eq_true hkey⟩)
    rw [hnone]
    exact .nothing
  | some last =>
    obtain ⟨r, hp, hk⟩ := h.carries.points_of_locate? hl
    have hitem : d.items[last.ordinal]? = some r.toItem := by
      rw [h.items, List.getElem?_map, hp.record]
      rfl
    have hfind := find?_zipIdx (h.map_key_items ▸ h.carries.nodup) hitem
    rw [show r.toItem.key = key from hk] at hfind
    rw [find?, hfind]
    exact .record hp

theorem isSome_find? (h : d.Mirrors session files loaded added) (key : Bytes) :
    (d.find? key).isSome = (session.find key).1 := by
  have hrel := h.remembered_find? key
  rw [Session.find]
  generalize session.locate? key = last at hrel ⊢
  generalize d.find? key = found at hrel ⊢
  cases hrel <;> rfl

/-- **Fetching gives the value of the item found last.** -/
theorem fetch_eq (h : d.Mirrors session files loaded added) :
    (session.fetch files).1 = d.value := by
  have hrel := h.found
  rw [value]
  generalize hlast : session.last = last at hrel
  generalize d.found = found at hrel ⊢
  cases hrel with
  | nothing => simp only [Session.fetch, hlast]
  | record hp => exact h.carries.fetch_eq hlast hp

theorem metadata?_eq (h : d.Mirrors session files loaded added) :
    session.metadata? = d.found.bind (·.1.metadata) := by
  have hrel := h.found
  generalize hlast : session.last = last at hrel
  generalize d.found = found at hrel ⊢
  cases hrel with
  | nothing => simp only [Session.metadata?, hlast]; rfl
  | record hp => exact h.carries.metadata?_eq hlast hp

theorem last_eq (h : d.Mirrors session files loaded added) :
    session.last.map (fun last => (last.key, last.ordinal, last.length))
      = d.found.map fun (item, ordinal) => (item.key, ordinal, item.value.length) := by
  have hrel := h.found
  generalize session.last = last at hrel ⊢
  generalize d.found = found at hrel ⊢
  cases hrel with
  | nothing => rfl
  | record hp => rw [Option.map_some, Option.map_some, hp.key, hp.length]

/-- The session after finding a key. -/
theorem find (h : d.Mirrors session files loaded added) (key : Bytes) :
    ({ d with found := d.find? key } : Draft).Mirrors (session.find key).2 files loaded added where
  carries := ⟨Session.holds_find h.carries.holds key, h.carries.base, h.carries.region,
    h.carries.fits⟩
  mode := h.mode
  items := h.items
  count := h.count
  found := h.remembered_find? key

theorem get_eq (h : d.Mirrors session files loaded added) (key : Bytes) :
    (session.get files key).1 = .ok ((d.find? key).map (·.1.value)) := by
  have hfetch := (h.find key).fetch_eq
  have hfound := h.isSome_find? key
  simp only [value] at hfetch
  unfold Session.get
  split
  · rename_i heq
    rw [heq, Option.isSome_eq_false_iff, Option.isNone_iff_eq_none] at hfound
    rw [hfound]
    rfl
  · rename_i next heq
    rw [heq] at hfound hfetch
    obtain ⟨found, hd⟩ := Option.isSome_iff_exists.mp hfound
    rw [hd] at hfetch ⊢
    simp only [hfetch]
    rfl

/-- **What a session lists are the items in the order in which they were added.** -/
theorem info_eq (h : d.Mirrors session files loaded added) :
    session.info.entries.map (fun e => (e.key, e.length.toNat, e.metadata))
        = d.items.map (fun item => (item.key, item.value.length, item.metadata)) ∧
      session.info.slots.map (·.1) = d.items.map (·.key) := by
  refine ⟨?_, ?_⟩
  · simp only [Session.info, h.carries.holds.entries, ← List.map_append, h.items, List.map_map]
    refine List.map_congr_left fun r hr => ?_
    show (r.key, r.entry.length.toNat, r.metadata) = _
    rw [(h.carries.fits r hr).length_entry]
    rfl
  · simp only [Session.info, h.carries.holds.lookup, Lookup.snapshot_layout,
      Lookup.map_fst_places, h.carries.holds.map_key_spans, h.carries.map_key_entries,
      h.map_key_items]

theorem size_eq (h : d.Mirrors session files loaded added) : session.size = d.items.length := by
  rw [Session.size, Index.size, h.carries.holds.entries, ← List.map_append, List.length_map,
    h.items, List.length_map]

/-- **Adding is accepted** when the session can be written and does not have the key. -/
theorem add_eq (h : d.Mirrors session files loaded added)
    (hdir : files.checkDirectory (Path.directory session.path) = .ok ())
    (key value : Bytes) (metadata : Option Bytes) :
    (session.settle (session.add files key value metadata).value).1 = .ok (d.accepts key) := by
  have hcontains := (h.isSome_find? key).trans (h.carries.holds.find_fst key)
  have hwritable : d.mode.isWritable = true ↔ session.mode ≠ .read := by
    rw [← h.mode]
    cases session.mode <;> simp [Mode.isWritable]
  rw [accepts, ← Option.not_isSome, hcontains]
  rcases Session.add_cases session files key value metadata with
    ⟨hno, ha⟩ | ⟨⟨hm, hk⟩, ⟨cause, -, hcheck, -⟩ | ⟨buffer, -, ha⟩⟩
  · rw [ha, Session.settle]
    rcases hno with hread | hk
    · have hw : d.mode.isWritable = false := by
        rw [Bool.eq_false_iff, ne_eq, hwritable]
        exact fun hm => hm hread
      rw [hw, Bool.false_and]
    · rw [hk, Bool.not_true, Bool.and_false]
  · rw [hdir] at hcheck
    exact absurd hcheck (by simp)
  · rw [ha, Session.settle, hwritable.mpr hm, hk]
    rfl

/-- **A call answers what the draft says.** -/
theorem answers_call (h : d.Mirrors session files loaded added)
    (hdir : files.checkDirectory (Path.directory session.path) = .ok ()) (c : Call) :
    d.answers c (session.call files c).1 := by
  cases c with
  | contains key => exact (h.carries.holds.find_fst key).symm.trans (h.isSome_find? key).symm
  | find key => exact (h.isSome_find? key).symm
  | fetch => exact h.fetch_eq
  | get key => exact h.get_eq key
  | metadata => exact h.metadata?_eq
  | last => exact h.last_eq
  | size => exact h.size_eq
  | info => exact h.info_eq
  | add key value metadata => exact h.add_eq hdir key value metadata
  | addValue codec key value metadata =>
    simp only [Session.call, Session.addValue_value]
    exact h.add_eq hdir key (codec.encode value) metadata
  | fetchValue codec =>
    have hfetch := h.fetch_eq
    simp only [Session.call, Session.fetchValue, answers, ← hfetch]
    cases (session.fetch files).1 <;> rfl

/-- A call leaves the session to its user as the draft says. -/
theorem call (h : d.Mirrors session files loaded added)
    (hdir : files.checkDirectory (Path.directory session.path) = .ok ()) (c : Call)
    (hnext : (session.call files c).2.Fits) (hvalue : c.ValueFits) :
    (d.after c).Mirrors (session.call files c).2 files loaded
      (added ++ Session.additions session.config.level c (session.call files c).1) := by
  have hsetup := Session.sameSetup_call session files c
  obtain ⟨hmode, hitems, hcount⟩ := d.after_eq session.config.level (h.answers_call hdir c)
  refine ⟨h.carries.call c hnext ?_, hsetup.mode.trans (h.mode.trans hmode.symm), ?_, ?_, ?_⟩
  · exact hvalue.additions session.config.level _
  · rw [hitems, h.items, ← List.map_append, List.append_assoc]
  · rw [hcount, h.count, List.length_append]
  · rw [Session.dataStart_sameSetup hsetup]
    refine Remembered.append ?_ _
    cases c with
    | find key => exact h.remembered_find? key
    | get key =>
      simp only [Session.call, Session.last_get]
      exact h.remembered_find? key
    | contains key | metadata | last | size | info => exact h.found
    | fetch =>
      simp only [Session.call, Session.last_fetch]
      exact h.found
    | fetchValue codec =>
      simp only [Session.call, Session.fetchValue, Session.last_fetch]
      exact h.found
    | add key value metadata =>
      simp only [Session.call, Session.last_add, Draft.after, Draft.found_add]
      exact h.found
    | addValue codec key value metadata =>
      simp only [Session.call, Session.addValue_value, Session.last_add, Draft.after,
        Draft.found_add]
      exact h.found

end Draft.Mirrors

end ConstStore
