/-
# Sessions do not see each other

A session reads the file that it has opened and the buffer that it has made, and nobody else
writes either.  So what other sessions do makes no difference to it: the same calls have the same
answers when everything that the others do is left out.

There is one thing that it shares with them.  Its buffer is made when it first adds something, in
the directory of its path, which is looked up only then.  A commit takes no directory away, but it
may take the name of a symbolic link that leads to one; paths through that link then lead to no
directory any more, and the addition is refused.

* `World.play`: what sessions on any paths do, one after the other.
* `Session.call_congr`: what a call depends on.
* `World.checkDirectory_move`: directories are neither made nor lost, except through such a link.
* `Shadows.own`, `Shadows.other`: one move of the session itself, and of another one.
* `isolated`: a session does not notice the others, unless it loses its directory in this way
  before it has made its buffer.
* `not_isolated`: then an addition notices.
-/
import ConstStore.Proofs.Preservation

namespace ConstStore

/-! ## 1. Moves -/

/-- An act on a handle; if it opens a session, then on this path. -/
structure Move where
  path : String
  handle : Nat
  act : Act

/-- Whether an act is a call. -/
def Act.isCall : Act → Bool
  | .call _ => true
  | .open .. | .close _ | .drop => false

/-- The session may still have to make its buffer. -/
def Session.Unbuffered (session : Session) : Prop :=
  session.mode ≠ .read ∧ session.pending = none

instance (session : Session) : Decidable session.Unbuffered :=
  inferInstanceAs (Decidable (_ ∧ _))

namespace World

/-- Carries out a move. -/
def move (w : World) (m : Move) : Event × World :=
  let moved := ({ w with path := m.path } : World).act m.handle m.act
  (⟨m.handle, m.act, moved.1⟩, moved.2)

/-- Carries out moves, one after the other. -/
def play : World → List Move → List Event × World
  | w, [] => ([], w)
  | w, m :: moves =>
    let rest := (w.move m).2.play moves
    ((w.move m).1 :: rest.1, rest.2)

/-- The two ways in which a move ends are those of its act. -/
theorem move_cases {w : World} (hg : w.files.Grounded) (m : Move) :
    ((w.move m).1.act.commits (w.move m).1.answer = false ∧
        w.files.Same (w.move m).2.files) ∨
      ((w.move m).1.act.commits (w.move m).1.answer = true ∧ ∃ session place bytes,
        w.sessions m.handle = some session ∧
        session.Replaces w.files (w.move m).2.files place bytes) :=
  @act_cases { w with path := m.path } hg m.handle m.act .sound

/-- If a move commits at a path that leads to a directory, it leaves this directory alone. -/
def Spares (w : World) (m : Move) (directory : String) : Prop :=
  (w.move m).1.act.commits (w.move m).1.answer = true →
    (∃ session ∈ w.sessions m.handle, w.files.checkDirectory session.path = .ok ()) →
    w.files.checkDirectory directory = .ok () →
    (w.move m).2.files.checkDirectory directory = .ok ()

/-- The moves of other handles spare the directory of a session, as long as it may still have to
make its buffer. -/
def SparesBuffer (handle : Nat) : World → List Move → Prop
  | _, [] => True
  | w, m :: moves =>
    (m.handle ≠ handle → ∀ session ∈ w.sessions handle, session.Unbuffered →
      w.Spares m (Path.directory session.path)) ∧
    (w.move m).2.SparesBuffer handle moves

instance (w : World) (m : Move) (directory : String) : Decidable (w.Spares m directory) :=
  inferInstanceAs (Decidable (_ → _))

instance decidableSparesBuffer (handle : Nat) :
    (w : World) → (moves : List Move) → Decidable (w.SparesBuffer handle moves)
  | _, [] => .isTrue trivial
  | w, m :: moves =>
    have : Decidable ((w.move m).2.SparesBuffer handle moves) := decidableSparesBuffer handle _ _
    inferInstanceAs (Decidable (_ ∧ _))

end World

/-! ## 2. Calls on other files -/

/-- The file system has refused an addition. -/
def Call.Refused : (c : Call) → c.Answer → Prop
  | .add .., answer | .addValue .., answer => ∃ cause, answer = .error (.io cause)
  | _, _ => False

/-- Two events that are the same, up to the reason for which an addition is refused. -/
inductive Event.Alike : Event → Event → Prop
  | same (event : Event) : Alike event event
  | refused (handle : Nat) {c : Call} {answer answer' : c.Answer} :
      c.Refused answer → c.Refused answer' →
      Alike ⟨handle, .call c, some answer⟩ ⟨handle, .call c, some answer'⟩

namespace Session

variable {session : Session} {fs fs' : FileSystem}

/-- A session finds the same on two file systems: its base file, and whether there is a directory
for a buffer that it may have to make. -/
structure Agrees (session : Session) (fs fs' : FileSystem) : Prop where
  base : ∀ base, session.base = some base → fs'.contentOf base.node = fs.contentOf base.node
  directory : session.Unbuffered →
    (fs'.checkDirectory (Path.directory session.path) = .ok () ↔
      fs.checkDirectory (Path.directory session.path) = .ok ())

theorem fetch_congr (h : ∀ base, session.base = some base →
      fs'.contentOf base.node = fs.contentOf base.node) :
    session.fetch fs' = session.fetch fs := by
  unfold fetch
  split
  · rfl
  · split
    · split
      · rfl
      · rename_i base hb
        simp only [BaseFile.readRecord, h base hb]
    · rfl

/-- An addition depends on whether there is a directory; without one it is refused. -/
theorem add_congr (h : session.Agrees fs fs') (key value : Bytes) (metadata : Option Bytes) :
    (session.settle (session.add fs' key value metadata).value).2
        = (session.settle (session.add fs key value metadata).value).2 ∧
      ((session.settle (session.add fs' key value metadata).value).1
          = (session.settle (session.add fs key value metadata).value).1 ∨
        (∃ cause, (session.settle (session.add fs' key value metadata).value).1
          = .error (.io cause)) ∧
        ∃ cause, (session.settle (session.add fs key value metadata).value).1
          = .error (.io cause)) := by
  rw [add_value, add_value]
  by_cases hno : session.mode = .read ∨ session.contains key = true
  · rw [if_pos hno, if_pos hno]
    exact ⟨rfl, Or.inl rfl⟩
  rw [if_neg hno, if_neg hno]
  cases hp : session.pending with
  | some buffer => exact ⟨rfl, Or.inl rfl⟩
  | none =>
    have hd := h.directory ⟨fun hm => hno (Or.inl hm), hp⟩
    cases hfs : fs.checkDirectory (Path.directory session.path) with
    | ok _ =>
      rw [hd.mpr hfs]
      exact ⟨rfl, Or.inl rfl⟩
    | error cause =>
      cases hfs' : fs'.checkDirectory (Path.directory session.path) with
      | ok _ => exact absurd (hfs.symm.trans (hd.mp hfs')) (by simp)
      | error cause' => exact ⟨rfl, Or.inr ⟨⟨cause', rfl⟩, cause, rfl⟩⟩

/-- **A call depends on what the session agrees about**: it leads to the same session, with the
same answer unless both times an addition is refused. -/
theorem call_congr (h : session.Agrees fs fs') (c : Call) :
    (session.call fs' c).2 = (session.call fs c).2 ∧
      ((session.call fs' c).1 = (session.call fs c).1 ∨
        c.Refused (session.call fs' c).1 ∧ c.Refused (session.call fs c).1) := by
  have hsame : session.call fs' c = session.call fs c →
      (session.call fs' c).2 = (session.call fs c).2 ∧
        ((session.call fs' c).1 = (session.call fs c).1 ∨
          c.Refused (session.call fs' c).1 ∧ c.Refused (session.call fs c).1) :=
    fun heq => ⟨congrArg Prod.snd heq, Or.inl (congrArg Prod.fst heq)⟩
  cases c with
  | contains key | find key | metadata | last | size | info => exact ⟨rfl, Or.inl rfl⟩
  | fetch => exact hsame (fetch_congr h.base)
  | fetchValue codec =>
    refine hsame ?_
    show session.fetchValue fs' codec = session.fetchValue fs codec
    rw [fetchValue, fetchValue, fetch_congr h.base]
  | get key =>
    refine hsame ?_
    have hbase : (session.find key).2.base = session.base := rfl
    show session.get fs' key = session.get fs key
    unfold get
    split
    · rfl
    · rename_i next heq
      rw [heq] at hbase
      rw [fetch_congr (hbase ▸ h.base)]
  | add key value metadata => exact add_congr h key value metadata
  | addValue codec key value metadata =>
    simp only [call, addValue_value]
    exact add_congr h key (codec.encode value) metadata

theorem Unbuffered.of_call {c : Call} (h : (session.call fs c).2.Unbuffered) :
    session.Unbuffered :=
  ⟨(sameSetup_call session fs c).mode ▸ h.1, ((pending_call_eq_none_iff session fs c).mp h.2).1⟩

end Session

/-! ## 3. Directories -/

variable {fs fs' : FileSystem} {place : FileSystem.Location} {bytes : Bytes}

theorem FileSystem.isDirectory_of_checkDirectory {path : String}
    (h : fs.checkDirectory path ≠ .ok ()) {id : NodeId} (hf : fs.follow path = .ok id) :
    fs.isDirectory id = false := by
  rw [Bool.eq_false_iff]
  intro hd
  have hne : path ≠ "" := by
    rintro rfl
    exact absurd (follow_eq_ok.mp hf).1 (by decide)
  refine h (Fallible.bind_eq_ok.mpr ⟨id, by rw [if_neg hne, hf], ?_⟩)
  rw [if_pos hd]
  rfl

namespace Session.Replaces

variable {session : Session} (h : session.Replaces fs fs' place bytes)
include h

/-- A commit makes no directory: it puts a file in place. -/
theorem checkDirectory_inv {path : String} (hd : fs'.checkDirectory path = .ok ()) :
    fs.checkDirectory path = .ok () := by
  obtain ⟨-, -, -, -, -, hplain, -⟩ := FileSystem.locate_eq_ok h.locate
  refine h.replaced.keeps.checkDirectory_inv ?_ hd
  rintro directory name ⟨rfl, rfl⟩
  exact FileSystem.impassable_of_leaf hplain h.replaced.entry
    (FileSystem.kindOf_of_contentOf h.replaced.content)

/-- A commit at a path that leads to no directory takes none away. -/
theorem checkDirectory (hg : fs.Grounded) (hpath : fs.checkDirectory session.path ≠ .ok ())
    {path : String} (hd : fs.checkDirectory path = .ok ()) :
    fs'.checkDirectory path = .ok () := by
  obtain ⟨now, hnow⟩ := h.taken
  refine h.replaced.keeps.checkDirectory_of_impassable ?_ hd
  rintro directory name ⟨rfl, rfl⟩
  exact (FileSystem.storable_of_take hg hnow fun _ =>
    FileSystem.isDirectory_of_checkDirectory hpath).impassable hg h.locate h.slash

end Session.Replaces

/-- **Moves neither make directories nor take them away**, unless they commit at a path that leads
to a directory. -/
theorem World.checkDirectory_move {w : World} (hg : w.files.Grounded) {m : Move} {path : String}
    (h : w.Spares m path) :
    (w.move m).2.files.checkDirectory path = .ok () ↔ w.files.checkDirectory path = .ok () := by
  rcases w.move_cases hg m with ⟨-, hsame⟩ | ⟨hcommits, session, place, bytes, hs, hreplaces⟩
  · exact hsame.checkDirectory_iff path
  · refine ⟨hreplaces.checkDirectory_inv, fun hd => ?_⟩
    by_cases hpath : w.files.checkDirectory session.path = .ok ()
    · exact h hcommits ⟨session, hs, hpath⟩ hd
    · exact hreplaces.checkDirectory hg hpath hd

/-! ## 4. Two runs -/

/-- A session in the company of others, and the same session alone. -/
structure Shadows (handle : Nat) (session : Session) (w solo : World) : Prop where
  company : w.sessions handle = some session
  alone : solo.sessions handle = some session
  grounded : w.files.Grounded
  base : ∀ base, session.base = some base → ∃ bytes,
    solo.files.contentOf base.node = .ok bytes ∧ w.files.contentOf base.node = .ok bytes
  directory : session.Unbuffered →
    (w.files.checkDirectory (Path.directory session.path) = .ok () ↔
      solo.files.checkDirectory (Path.directory session.path) = .ok ())

namespace Shadows

variable {handle : Nat} {session : Session} {w solo : World}

theorem agrees (h : Shadows handle session w solo) : session.Agrees solo.files w.files where
  base := by
    intro base hb
    obtain ⟨bytes, hsolo, hw⟩ := h.base base hb
    rw [hsolo, hw]
  directory := h.directory

/-- **The session itself makes a call**: in company it answers as it does alone. -/
theorem own (h : Shadows handle session w solo) (path : String) (c : Call) :
    Event.Alike (w.move ⟨path, handle, .call c⟩).1 (solo.move ⟨path, handle, .call c⟩).1 ∧
      Shadows handle (session.call w.files c).2 (w.move ⟨path, handle, .call c⟩).2
        (solo.move ⟨path, handle, .call c⟩).2 := by
  have hmove : ∀ {v : World}, v.sessions handle = some session →
      v.move ⟨path, handle, .call c⟩ = (⟨handle, .call c, some (session.call v.files c).1⟩,
        ({ v with path } : World).put handle (some (session.call v.files c).2)) := by
    intro v hs
    simp only [World.move, World.act, hs]
  obtain ⟨hnext, hanswer⟩ := Session.call_congr h.agrees c
  rw [hmove h.company, hmove h.alone]
  constructor
  · rcases hanswer with heq | ⟨hrefused', hrefused⟩
    · rw [heq]
      exact .same _
    · exact .refused handle hrefused' hrefused
  · have hsetup := Session.sameSetup_call session w.files c
    refine ⟨Function.update_self .., ?_, h.grounded, fun base hb => ?_, fun hun => ?_⟩
    · rw [hnext]
      exact Function.update_self ..
    · exact hsetup.forall_base (P := fun node => ∃ bytes,
        solo.files.contentOf node = .ok bytes ∧ w.files.contentOf node = .ok bytes) h.base _ hb
    · rw [hsetup.path]
      exact h.directory hun.of_call

/-- **Another handle makes a move**: the session does not notice it. -/
theorem other (h : Shadows handle session w solo) {m : Move} (hm : m.handle ≠ handle)
    (hspares : session.Unbuffered → w.Spares m (Path.directory session.path)) :
    Shadows handle session (w.move m).2 solo where
  company := (World.sessions_act _ (Ne.symm hm) m.act).trans h.company
  alone := h.alone
  grounded := @World.grounded_act { w with path := m.path } h.grounded m.handle m.act .sound
  base := by
    intro base hb
    obtain ⟨bytes, hsolo, hw⟩ := h.base base hb
    refine ⟨bytes, hsolo, ?_⟩
    rcases w.move_cases h.grounded m with ⟨-, hsame⟩ | ⟨-, other, place, content, -, hreplaces⟩
    · exact FileSystem.Keeps.contentOf_eq_ok hsame hw
    · exact hreplaces.replaced.keeps.contentOf_eq_ok hw
  directory := fun hun =>
    (World.checkDirectory_move h.grounded (hspares hun)).trans (h.directory hun)

/-- **Any number of moves**: the events of the session are those that it has alone. -/
theorem play (moves : List Move) : ∀ {session : Session} {w solo : World},
    Shadows handle session w solo →
    (∀ m ∈ moves, m.handle = handle → m.act.isCall = true) → w.SparesBuffer handle moves →
    List.Forall₂ Event.Alike ((w.play moves).1.filter fun event => event.handle = handle)
        (solo.play (moves.filter fun m => m.handle = handle)).1 ∧
      (w.play moves).2.sessions handle
        = (solo.play (moves.filter fun m => m.handle = handle)).2.sessions handle := by
  induction moves with
  | nil => exact fun h _ _ => ⟨.nil, h.company.trans h.alone.symm⟩
  | cons m moves ih =>
    intro session w solo h hcalls hspares
    obtain ⟨hcall, hrest⟩ := List.forall_mem_cons.mp hcalls
    by_cases hm : m.handle = handle
    · obtain ⟨path, _, a⟩ := m
      obtain rfl : _ = handle := hm
      cases a with
      | call c =>
        obtain ⟨halike, hnext⟩ := h.own path c
        obtain ⟨hevents, hsession⟩ := ih hnext hrest hspares.2
        rw [List.filter_cons_of_pos (by simp)]
        simp only [World.play]
        rw [List.filter_cons_of_pos (by simp [World.move])]
        exact ⟨.cons halike hevents, hsession⟩
      | «open» _ _ | close _ | drop => exact absurd (hcall rfl) (by simp [Act.isCall])
    · obtain ⟨hevents, hsession⟩ := ih (h.other hm (hspares.1 hm session h.company)) hrest hspares.2
      rw [List.filter_cons_of_neg (by simp [hm])]
      simp only [World.play]
      rw [List.filter_cons_of_neg (by simp [World.move, hm])]
      exact ⟨hevents, hsession⟩

end Shadows

/-- **A session does not notice the others.**  A session has just been opened under a handle, on
any files and with any sessions under the other handles.  Then calls on it and any acts on the
other handles are made, in any order and on any paths, and until the session has a buffer no other
one commits at a path that leads to a directory such that the directory of the session is lost.
The answers to the calls are those that they have when the acts on the other handles are left out,
except that an addition which the file system refuses both times may be refused for another reason;
and the session is the same in the end. -/
theorem isolated {w : World} (hg : w.files.Grounded) {handle : Nat} {path : String} {mode : Mode}
    {config : SessionConfig} {session : Session}
    (hopen : (Session.open w.files path mode config).value = .ok session) {moves : List Move}
    (hcalls : ∀ m ∈ moves, m.handle = handle → m.act.isCall = true)
    (hspares : (w.put handle (some session)).SparesBuffer handle moves) :
    List.Forall₂ Event.Alike
        (((w.put handle (some session)).play moves).1.filter fun event => event.handle = handle)
        ((w.put handle (some session)).play (moves.filter fun m => m.handle = handle)).1 ∧
      ((w.put handle (some session)).play moves).2.sessions handle
        = ((w.put handle (some session)).play
          (moves.filter fun m => m.handle = handle)).2.sessions handle := by
  have hself : (w.put handle (some session)).sessions handle = some session :=
    Function.update_self ..
  refine Shadows.play moves ⟨hself, hself, hg, fun base hb => ?_, fun _ => Iff.rfl⟩ hcalls hspares
  obtain ⟨bytes, hbytes, -⟩ := Session.base_of_open hopen hb
  exact ⟨bytes, hbytes, hbytes⟩

/-- Two sessions extend the damaged store.  One has added a record and commits; the other one adds a
record of the same key after that. -/
def sharedStore : List Move :=
  [⟨"a", 1, .open .write .default⟩, ⟨"a", 1, .call (.add [2] [3] none)⟩,
    ⟨"a", 0, .call (.get [1])⟩, ⟨"a", 1, .close none⟩, ⟨"a", 0, .call (.get [2])⟩,
    ⟨"a", 0, .call (.add [2] [4] none)⟩, ⟨"a", 0, .call .size⟩]

/-- The one that has not committed sees the store that it has opened. -/
theorem isolated_sharedStore :
    let start := (World.begin "a" Session.damagedFiles).put 0 (some Session.damagedSession)
    ((start.play sharedStore).1.any fun event => event.act.commits event.answer) = true ∧
      List.Forall₂ Event.Alike ((start.play sharedStore).1.filter fun event => event.handle = 0)
        (start.play (sharedStore.filter fun m => m.handle = 0)).1 := by
  refine ⟨by decide +kernel, ?_⟩
  exact (@isolated (World.begin "a" Session.damagedFiles)
    (FileSystem.grounded_of_nodes rfl (by decide +kernel)) 0 "a" .write .default
    Session.damagedSession (by decide +kernel) sharedStore (by decide +kernel)
    (by decide +kernel)).1

/-! ## 5. What may be noticed -/

/-- What an addition answers. -/
def Event.added? : Event → Option (Except Error Bool)
  | ⟨_, .call (.add ..), answer⟩ => answer
  | _ => none

/-- What the additions on a handle answer when moves are made on files that nobody has opened. -/
def FileSystem.additions (fs : FileSystem) (handle : Nat) (moves : List Move) :
    List (Except Error Bool) :=
  (((World.begin "" fs).play moves).1.filter fun event => event.handle = handle).filterMap
    Event.added?

/-- A session is opened on a path in a directory, another one commits at the path of the directory,
and the first one adds a record then. -/
def replacingDirectory (directory : String) : List Move :=
  [⟨directory ++ "/a", 0, .open .create .default⟩, ⟨directory, 1, .open .create .default⟩,
    ⟨directory, 1, .call (.add [1] [2] none)⟩, ⟨directory, 1, .close none⟩,
    ⟨directory ++ "/a", 0, .call (.add [1] [2] none)⟩]

/-- A directory and a symbolic link to it. -/
def linkedFiles : FileSystem where
  nodes := #[.directory ⟨[("d", 1), ("l", 2)], FileSystem.root, 0o755, 0⟩,
    .directory ⟨[], FileSystem.root, 0o755, 0⟩, .link "d"]
  clock := 2

/-- An addition is refused when the link to its directory has become a file, and would be accepted
otherwise.  Where there is no directory a file may take its name, and then the addition is refused
for another reason. -/
theorem not_isolated :
    linkedFiles.additions 0 (replacingDirectory "l") = [.error (.io .notDirectory)] ∧
      linkedFiles.additions 0 ((replacingDirectory "l").filter fun m => m.handle = 0)
        = [.ok true] ∧
      FileSystem.empty.additions 0 (replacingDirectory "x") = [.error (.io .notDirectory)] ∧
      FileSystem.empty.additions 0 ((replacingDirectory "x").filter fun m => m.handle = 0)
        = [.error (.io .notFound)] := by
  decide +kernel

end ConstStore
