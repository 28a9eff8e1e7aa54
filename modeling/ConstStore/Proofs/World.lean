/-
# Sessions that share a path

A `World` is a file system with the sessions that are open on one path, each under a handle of its
own.  Whatever the programs behind these handles do, they do one `Act` after the other: they open
and close sessions, make calls on them, or just drop them.  A `Run` is a sequence of acts with
their answers; nobody else touches the files.

A run stays inside the sizes that the format can tell: what an open session would publish has
numbers of 64 bits (`World.Fits`).

* `Held`: what is stored at the path.
* `Held.open_cases`: what a session is opened with, going by that.
* `Session.held_newStore`: what a session puts in place.
-/
import ConstStore.Proofs.Session.Publish
import Mathlib.Logic.Function.Basic

namespace ConstStore

/-! ## 1. Acts -/

/-- What a program does with its handle. -/
inductive Act : Type 1 where
  /-- Opens a session, in place of one that it has. -/
  | open (mode : Mode) (config : SessionConfig)
  | call (c : Call)
  | close (force : Option Mode)
  /-- Gives the session up without closing it. -/
  | drop

/-- What an act answers.  Opening tells the mode in effect. -/
def Act.Answer : Act → Type
  | «open» .. => Except Error Mode
  | call c => c.Answer
  | close _ => Except Error Outcome
  | drop => Unit

/-! Answers can be compared where it is known what they are. -/

instance (mode : Mode) (config : SessionConfig) : DecidableEq (Act.open mode config).Answer :=
  inferInstanceAs (DecidableEq (Except Error Mode))

instance {α : Type} (codec : Codec α) (key : Bytes) (value : α) (metadata : Option Bytes) :
    DecidableEq (Act.call (.addValue codec key value metadata)).Answer :=
  inferInstanceAs (DecidableEq (Except Error Bool))

instance (force : Option Mode) : DecidableEq (Act.close force).Answer :=
  inferInstanceAs (DecidableEq (Except Error Outcome))

/-- An act on a handle, and its answer if there was a session. -/
structure Event where
  handle : Nat
  act : Act
  answer : Option act.Answer

/-! ## 2. Worlds -/

/-- A file system with the open sessions on a path. -/
structure World where
  path : String
  files : FileSystem
  sessions : Nat → Option Session

namespace World

/-- A world in which nobody has opened anything. -/
def begin (path : String) (files : FileSystem) : World := ⟨path, files, fun _ => none⟩

/-- The world with a session under a handle, or without one. -/
def put (w : World) (handle : Nat) (session : Option Session) : World :=
  { w with sessions := Function.update w.sessions handle session }

/-- Carries out an act, on a device that is sound unless it is given. -/
def act (w : World) (handle : Nat) (a : Act) (device : Device := .sound) :
    Option a.Answer × World :=
  match a with
  | .open mode config =>
    match (Session.open w.files w.path mode config).value with
    | .error error => (some (.error error), w)
    | .ok session => (some (.ok session.mode), w.put handle (some session))
  | .call c =>
    match w.sessions handle with
    | none => (none, w)
    | some session =>
      (some (session.call w.files c).1, w.put handle (some (session.call w.files c).2))
  | .close force =>
    match w.sessions handle with
    | none => (none, w)
    | some session =>
      (some (session.close w.files force device).value.1,
        { w.put handle none with files := (session.close w.files force device).value.2 })
  | .drop =>
    match w.sessions handle with
    | none => (none, w)
    | some _ => (some (), w.put handle none)

/-- Acts do not change what the world is about. -/
theorem act_path (w : World) (handle : Nat) (a : Act) : (w.act handle a).2.path = w.path := by
  cases a with
  | «open» mode config => simp only [act]; split <;> rfl
  | call _ | close _ | drop => simp only [act]; split <;> rfl

/-- What every open session would publish has numbers of 64 bits. -/
def Fits (w : World) : Prop :=
  ∀ handle session, w.sessions handle = some session → session.Fits

/-- A sequence of acts with their answers, and the world that it leads to. -/
inductive Run (start : World) : List Event → World → Prop
  | start : Run start [] start
  | act {events : List Event} {w : World} (handle : Nat) (a : Act) :
      Run start events w → (w.act handle a).2.Fits →
      Run start (events ++ [⟨handle, a, (w.act handle a).1⟩]) (w.act handle a).2

/-- An act changes no session but its own. -/
theorem sessions_act (w : World) {handle other : Nat} (h : other ≠ handle) (a : Act) :
    (w.act handle a).2.sessions other = w.sessions other := by
  cases a with
  | «open» mode config =>
    simp only [act]
    split
    · rfl
    · exact Function.update_of_ne h _ _
  | call _ | close _ | drop =>
    simp only [act]
    split
    · rfl
    · exact Function.update_of_ne h _ _

theorem Run.fits {start w : World} {events : List Event} (h : Run start events w)
    (hs : start.Fits) : w.Fits := by
  cases h with
  | start => exact hs
  | act handle a _ hfits => exact hfits

theorem fits_begin (path : String) (files : FileSystem) : (begin path files).Fits := by
  intro _ _ hs
  exact absurd hs (by simp [begin])

/-- A run goes on as long as the session that acts stays inside the sizes. -/
theorem Run.next {path : String} {files : FileSystem} {events : List Event} {w : World}
    (h : Run (begin path files) events w) (handle : Nat) (a : Act)
    (hs : ∀ session ∈ (w.act handle a).2.sessions handle, session.Fits) :
    Run (begin path files) (events ++ [⟨handle, a, (w.act handle a).1⟩]) (w.act handle a).2 := by
  refine .act handle a h ?_
  intro other session ho
  by_cases he : other = handle
  · exact hs session (he ▸ ho)
  · rw [w.sessions_act he a] at ho
    exact h.fits (fits_begin path files) other session ho

/-- The act is known by its answer. -/
theorem Run.answered {path : String} {files : FileSystem} {events : List Event} {w : World}
    (h : Run (begin path files) events w) (handle : Nat) (a : Act) (answer : Option a.Answer)
    (ha : (w.act handle a).1 = answer)
    (hs : ∀ session ∈ (w.act handle a).2.sessions handle, session.Fits) :
    Run (begin path files) (events ++ [⟨handle, a, answer⟩]) (w.act handle a).2 :=
  ha ▸ h.next handle a hs

/-- The last event of a run is an act in the world before. -/
theorem Run.concat_inv {start w : World} {events : List Event} {event : Event}
    (h : Run start (events ++ [event]) w) : ∃ before, Run start events before ∧
      event = ⟨event.handle, event.act, (before.act event.handle event.act).1⟩ := by
  generalize hall : events ++ [event] = all at h
  cases h with
  | start => exact absurd hall (by simp)
  | @act before w handle a hrun _ =>
    obtain ⟨rfl, hlast⟩ := List.append_inj' hall rfl
    obtain rfl := List.singleton_inj.mp hlast
    exact ⟨w, hrun, rfl⟩

end World

/-! ## 3. What is stored at a path -/

/-- What a store holds: its entries, and the bytes of their records, one behind the other. -/
structure Stored where
  entries : List Entry
  region : Bytes
  deriving DecidableEq

/-- The store at a path holds this; `none` when nothing is there. -/
def Held (files : FileSystem) (path : String) : Option Stored → Prop
  | none => files.follow path = .error .notFound
  | some stored => ∃ node bytes contents, files.follow path = .ok node ∧
      files.contentOf node = .ok bytes ∧ Contents.parse bytes = .ok contents ∧
      stored = ⟨contents.index.entries, bytes.drop contents.header.dataOffset⟩

namespace Held

variable {files files' : FileSystem} {path : String} {stored : Option Stored}

theorem storable (h : Held files path stored) : files.Storable path := by
  cases stored with
  | none => exact Or.inl h
  | some stored =>
    obtain ⟨node, bytes, -, hnode, hbytes, -⟩ := h
    exact Or.inr ⟨node, bytes, hnode, hbytes⟩

/-- The node at the path is one that there is. -/
theorem lt_size (h : Held files path stored) {node : NodeId}
    (hnode : files.follow path = .ok node) : node < files.nodes.size := by
  rcases h.storable with hs | ⟨id, bytes, hs, hbytes⟩
  · exact absurd (hs.symm.trans hnode) (by simp)
  · obtain rfl := Except.ok.inj (hs.symm.trans hnode)
    exact FileSystem.lt_size_of_contentOf hbytes

theorem same (h : Held files path stored) (hs : files.Same files') : Held files' path stored := by
  cases stored with
  | none => exact (hs.follow_eq path).trans h
  | some stored =>
    obtain ⟨node, bytes, contents, hnode, hbytes, hparse⟩ := h
    exact ⟨node, bytes, contents, (hs.follow_eq path).trans hnode,
      FileSystem.Keeps.contentOf_eq_ok hs hbytes, hparse⟩

/-- What is stored is what a session on the base file has loaded. -/
theorem open_eq (h : Held files path stored) {base : BaseFile} {contents : Contents}
    (ho : (BaseFile.open files path).value = .ok (some (base, contents))) {session : Session}
    (hb : session.base = some base) :
    stored = some ⟨contents.index.entries, session.region files⟩ := by
  obtain ⟨node, bytes, hnode, hbytes, hparse, rfl⟩ := BaseFile.open_eq_some.mp ho
  cases stored with
  | none => exact absurd (h.symm.trans hnode) (by simp)
  | some stored =>
    obtain ⟨node', bytes', contents', hnode', hbytes', hparse', rfl⟩ := h
    obtain rfl := Except.ok.inj (hnode.symm.trans hnode')
    obtain rfl := Except.ok.inj (hbytes.symm.trans hbytes')
    obtain rfl := Except.ok.inj (hparse.symm.trans hparse')
    simp only [Session.region, hb, BaseFile.ofContents, hbytes]

/-- **What opening a session does**: there is nothing to be read, it starts a new store, or it
loads what is stored. -/
theorem open_cases (h : Held files path stored) (mode : Mode) (config : SessionConfig) :
    (mode = .read ∧ stored = none ∧
        (Session.open files path mode config).value = .error (.io (.missingStore path))) ∨
      ((mode = .create ∨ mode = .write ∧ stored = none) ∧ ∃ snapshot,
        (Session.open files path mode config).value = .ok (.ofNothing path config snapshot)) ∨
      (mode ≠ .create ∧ ∃ base contents,
        (Session.open files path mode config).value
            = .ok (.ofBase path mode config base contents) ∧
          stored = some ⟨contents.index.entries,
            (Session.ofBase path mode config base contents).region files⟩) := by
  obtain ⟨snapshot, hsnapshot⟩ := h.storable.exists_take
  cases hs : stored with
  | none =>
    rw [hs] at h
    have hnone := BaseFile.open_eq_none.mpr h
    cases mode with
    | read =>
      refine Or.inl ⟨rfl, rfl, ?_⟩
      rw [Session.open_value, if_neg (by simp), hnone]
      rfl
    | write =>
      exact Or.inr (Or.inl ⟨Or.inr ⟨rfl, rfl⟩, snapshot,
        Session.open_eq_ok.mpr (Or.inr ⟨Or.inr ⟨rfl, hnone⟩, snapshot, hsnapshot, rfl⟩)⟩)
    | create =>
      exact Or.inr (Or.inl ⟨Or.inl rfl, snapshot,
        Session.open_eq_ok.mpr (Or.inr ⟨Or.inl rfl, snapshot, hsnapshot, rfl⟩)⟩)
  | some store =>
    by_cases hm : mode = .create
    · exact Or.inr (Or.inl ⟨Or.inl hm, snapshot,
        Session.open_eq_ok.mpr (Or.inr ⟨Or.inl hm, snapshot, hsnapshot, rfl⟩)⟩)
    · obtain ⟨node, bytes, contents, hnode, hbytes, hparse, -⟩ := hs ▸ h
      have hopen := BaseFile.open_eq_some.mpr ⟨node, bytes, hnode, hbytes, hparse, rfl⟩
      refine Or.inr (Or.inr ⟨hm, _, contents,
        Session.open_eq_ok.mpr (Or.inl ⟨hm, _, contents, hopen, rfl⟩), ?_⟩)
      exact (hs ▸ h).open_eq hopen rfl

end Held

/-- **What a session puts in place** holds what it has loaded and what it has added. -/
theorem Session.held_newStore {session : Session} {loaded : List Entry} {added : List Record}
    {files files' : FileSystem} {path : String} (h : session.Holds loaded added)
    (hbase : session.BaseIn files) (hfits : session.Fits)
    (hp : files.Published files' path (session.newStore files added)) :
    Held files' path
      (some ⟨loaded ++ added.map Record.entry, session.region files ++ Record.frames added⟩) := by
  obtain ⟨hparse, hstart⟩ := parse_newStore h hbase hfits
  refine ⟨_, _, _, hp.follow, hp.content, hparse, ?_⟩
  have hdrop : (session.newStore files added).drop
      (Contents.ofIndex session.index session.config.level).header.dataOffset
        = session.region files ++ Record.frames added := by
    rw [hstart, newStore]
    exact List.drop_left
  rw [hdrop, Contents.ofIndex, h.entries]

end ConstStore
