/-
# Sessions that race

Sessions do not lock the store.  Each of them remembers what was at the path when it was opened,
and when it is closed with additions it publishes them only if the same is still there; otherwise
another one has been faster, and its additions are lost.

What has to come out of that can be told from the acts and their answers alone, without looking at
files or sessions.  A `Chronicle` keeps, for every open session, how many sessions had committed
before it was opened and what it has added since, and the list of those that have committed.

* `Takes`: how an open session is related to what the chronicle says of it.
* `Fair.act`: one act keeps the world as the chronicle says.
* `race_safety`: in every run, what is stored is what the committed sessions have made of it, and a
  session commits exactly when no other one has committed since it was opened.

A snapshot tells a new store from all earlier ones because a new file is a new node; the node of
every snapshot is older than the next file.
-/
import ConstStore.Proofs.World

namespace ConstStore

/-! ## 1. Chronicles -/

/-- A session as its acts tell of it. -/
structure Entrant where
  /-- The mode in effect. -/
  mode : Mode
  config : SessionConfig
  /-- How many sessions had committed when it was opened. -/
  since : Nat
  /-- What it has added. -/
  added : List Record
  deriving DecidableEq

/-- An empty store. -/
def Stored.empty : Stored := ⟨[], []⟩

/-- The store with more records behind those that it has. -/
def Stored.extend (stored : Stored) (added : List Record) : Stored :=
  ⟨stored.entries ++ added.map Record.entry, stored.region ++ Record.frames added⟩

/-- What a session makes of what is stored, by committing. -/
def Entrant.publish (stored : Option Stored) (e : Entrant) : Option Stored :=
  some ((if e.mode = .create then .empty else stored.getD .empty).extend e.added)

/-- What the acts so far tell of the sessions. -/
structure Chronicle where
  entrants : Nat → Option Entrant
  /-- The sessions that have committed, in the order of their commits. -/
  commits : List Entrant

namespace Chronicle

def start : Chronicle := ⟨fun _ => none, []⟩

/-- The chronicle with what is known of the session under a handle. -/
def put (c : Chronicle) (handle : Nat) (e : Option Entrant) : Chronicle :=
  { c with entrants := Function.update c.entrants handle e }

/-- The session under a handle has been closed. -/
def closed (c : Chronicle) (handle : Nat) : Option (Except Error Outcome) → Chronicle
  | some (.ok (.committed _)) =>
    { c.put handle none with commits := c.commits ++ (c.entrants handle).toList }
  | _ => c.put handle none

/-- Notes an act and its answer. -/
def note (c : Chronicle) (handle : Nat) : (a : Act) → Option a.Answer → Chronicle
  | .open _ config, some (.ok mode) =>
    c.put handle (some ⟨mode, config, c.commits.length, []⟩)
  | .call call, some answer =>
    c.put handle ((c.entrants handle).map fun e =>
      { e with added := e.added ++ Session.additions e.config.level call answer })
  | .close _, answer => c.closed handle answer
  | .drop, _ => c.put handle none
  | _, _ => c

/-- The chronicle of a run. -/
def ofEvents (events : List Event) : Chronicle :=
  events.foldl (fun c event => c.note event.handle event.act event.answer) start

/-- What is stored after the commits, starting from what was stored at first. -/
def stored (c : Chronicle) (initial : Option Stored) : Option Stored :=
  c.commits.foldl Entrant.publish initial

end Chronicle

/-! ## 2. Entrants and sessions -/

/-- A session with its part in the chronicle, when there have been so many commits. -/
structure Takes (files : FileSystem) (path : String) (commits : Nat)
    (stored : Option Stored) (e : Entrant) (session : Session) : Prop where
  path_eq : session.path = path
  mode_eq : session.mode = e.mode
  config_eq : session.config = e.config
  base : session.BaseIn files
  since : e.since ≤ commits
  /-- As long as nobody commits, it has loaded what is stored. -/
  holds : ∃ loaded, session.Holds loaded e.added ∧
    (e.since = commits → e.mode ≠ .create → stored = some ⟨loaded, session.region files⟩)
  current : e.since = commits → Snapshot.take files path = .ok session.snapshot
  stale : e.since < commits → Snapshot.take files path ≠ .ok session.snapshot
  /-- It has been opened on a node that was there. -/
  old : ∀ identity, session.snapshot = .present identity → identity.node < files.nodes.size

variable {files files' : FileSystem} {path : String} {commits : Nat}
  {stored : Option Stored} {e : Entrant} {session : Session}

namespace Takes

/-- Nothing changes for a session when nothing can be noticed of a change. -/
theorem same (h : Takes files path commits stored e session) (hs : files.Same files')
    (hheld : Held files path stored) : Takes files' path commits stored e session := by
  have htake := FileSystem.Keeps.take_eq hs hheld.storable (hs.follow_eq path)
  have hregion := h.base.region_eq hs
  exact {
    path_eq := h.path_eq
    mode_eq := h.mode_eq
    config_eq := h.config_eq
    base := h.base.keeps hs
    since := h.since
    holds := hregion ▸ h.holds
    current := fun he => htake.trans (h.current he)
    stale := fun hlt => htake ▸ h.stale hlt
    old := fun identity hi =>
      Nat.lt_of_lt_of_le (h.old identity hi) (FileSystem.Keeps.size hs) }

/-- A session notices the commit of another one: the new file is none that was there before. -/
theorem published (h : Takes files path commits stored e session) {bytes : Bytes}
    (hp : files.Published files' path bytes) (stored' : Option Stored) :
    Takes files' path (commits + 1) stored' e session := by
  obtain ⟨changed, hkeeps, -⟩ := hp.keeps
  obtain ⟨loaded, hholds, -⟩ := h.holds
  have hnew := Snapshot.take_eq_present.mpr ⟨_, hp.follow, rfl⟩
  exact {
    path_eq := h.path_eq
    mode_eq := h.mode_eq
    config_eq := h.config_eq
    base := h.base.keeps hkeeps
    since := Nat.le_succ_of_le h.since
    holds := ⟨loaded, hholds, fun he => absurd he (Nat.ne_of_lt (Nat.lt_succ_of_le h.since))⟩
    current := fun he => absurd he (Nat.ne_of_lt (Nat.lt_succ_of_le h.since))
    stale := by
      intro _ htake
      have hsnapshot := Except.ok.inj (hnew.symm.trans htake)
      have hlt := h.old _ hsnapshot.symm
      rw [FileSystem.node_identityOf] at hlt
      exact Nat.lt_irrefl _ hlt
    old := fun identity hi => Nat.lt_of_lt_of_le (h.old identity hi) hkeeps.size }

/-- A call leaves a session its part, with what the call has added. -/
theorem call (h : Takes files path commits stored e session) (c : Call) :
    Takes files path commits stored
      { e with added := e.added ++
        Session.additions e.config.level c (session.call files c).1 }
      (session.call files c).2 := by
  have hsetup := Session.sameSetup_call session files c
  obtain ⟨loaded, hholds, hstored⟩ := h.holds
  have hcall := Session.holds_call hholds files c
  rw [h.config_eq] at hcall
  rw [← Session.region_sameSetup hsetup files] at hstored
  exact {
    path_eq := hsetup.path.trans h.path_eq
    mode_eq := hsetup.mode.trans h.mode_eq
    config_eq := hsetup.config.trans h.config_eq
    base := h.base.sameSetup hsetup
    since := h.since
    holds := ⟨loaded, hcall, hstored⟩
    current := fun he => (h.current he).trans (congrArg Except.ok hsetup.snapshot.symm)
    stale := fun hlt => hsetup.snapshot ▸ h.stale hlt
    old := fun identity hi => h.old identity (hsetup.snapshot ▸ hi) }

/-- A session that has just been opened takes part from now on. -/
theorem ofOpen (hheld : Held files path stored) {mode : Mode} {config : SessionConfig}
    (ho : (Session.open files path mode config).value = .ok session) (commits : Nat) :
    Takes files path commits stored ⟨session.mode, config, commits, []⟩ session := by
  have hholds := Session.holds_open ho
  have hbase : session.BaseIn files := fun base hb => Session.base_of_open ho hb
  rcases Session.open_eq_ok.mp ho with ⟨hm, base, contents, hopened, rfl⟩ | ⟨-, snapshot, ht, rfl⟩
  · obtain ⟨node, bytes, hnode, hbytes, -, rfl⟩ := BaseFile.open_eq_some.mp hopened
    exact {
      path_eq := rfl
      mode_eq := rfl
      config_eq := rfl
      base := hbase
      since := Nat.le_refl _
      holds := ⟨_, hholds, fun _ _ => hheld.open_eq hopened rfl⟩
      current := fun _ => Snapshot.take_eq_present.mpr ⟨node, hnode, rfl⟩
      stale := fun hlt => absurd hlt (Nat.lt_irrefl _)
      old := by
        rintro identity hi
        rw [← Snapshot.present.inj hi]
        exact (FileSystem.node_identityOf files node).symm ▸
          FileSystem.lt_size_of_contentOf hbytes }
  · exact {
      path_eq := rfl
      mode_eq := rfl
      config_eq := rfl
      base := hbase
      since := Nat.le_refl _
      holds := ⟨_, hholds, fun _ hm => absurd rfl hm⟩
      current := fun _ => ht
      stale := fun hlt => absurd hlt (Nat.lt_irrefl _)
      old := by
        intro identity hi
        obtain rfl : snapshot = .present identity := hi
        obtain ⟨node, hnode, rfl⟩ := Snapshot.take_eq_present.mp ht
        rw [FileSystem.node_identityOf]
        exact hheld.lt_size hnode }

/-- What a session that commits puts in place. -/
theorem held_published (h : Takes files path commits stored e session)
    (hsince : e.since = commits) (hfits : session.Fits)
    (hp : files.Published files' path (session.newStore files e.added)) :
    Held files' path (e.publish stored) := by
  obtain ⟨loaded, hholds, hstored⟩ := h.holds
  have hheld := Session.held_newStore hholds h.base hfits hp
  by_cases hm : e.mode = .create
  · have hbase := hholds.noBase.mpr (h.mode_eq.trans hm)
    rw [hholds.nothing hbase, Session.region, hbase] at hheld
    rw [Entrant.publish, if_pos hm]
    exact hheld
  · rw [Entrant.publish, if_neg hm, hstored hsince hm]
    exact hheld

/-- **The two ways in which closing ends**: the session commits, and nobody has committed since it
was opened; or nothing can be noticed of it, and if it could have committed, it has lost. -/
theorem close_cases (h : Takes files path commits stored e session) (hg : files.Grounded)
    (hheld : Held files path stored) (hfits : session.Fits) (force : Option Mode) :
    (∃ files', (session.close files force).value = (.ok (.committed e.added.length), files') ∧
        e.since = commits ∧ e.added ≠ [] ∧ force ≠ some .read ∧
        files.Published files' path (session.newStore files e.added) ∧
        Held files' path (e.publish stored)) ∨
      (∃ answer files', (session.close files force).value = (answer, files') ∧
        files.Same files' ∧ (∀ n, answer ≠ .ok (.committed n)) ∧
        (e.added ≠ [] → force ≠ some .read → files.Hosts path e.config.temporaryPrefix →
          e.since ≠ commits ∧ answer = .ok (.conflictLoss e.added.length))) := by
  obtain ⟨loaded, hholds, -⟩ := h.holds
  by_cases hne : e.added = []
  · rw [hne] at hholds
    exact Or.inr ⟨_, _, Session.close_of_nothing hholds files force, .refl files,
      fun n hn => absurd hn (by simp), fun ha => absurd hne ha⟩
  by_cases hforce : force = some .read
  · subst hforce
    exact Or.inr ⟨_, _, Session.close_of_read hholds hne files, .refl files,
      fun n hn => absurd hn (by simp), fun _ hf => absurd rfl hf⟩
  obtain ⟨buffer, hb, hclose⟩ := Session.close_of_added hholds hne files hforce
  have hsize : (Record.frames e.added).length < UInt64.size := by
    rw [hholds.length_frames]
    exact hfits.pendingBytes_lt
  have hs : files.Storable session.path := h.path_eq ▸ hheld.storable
  have hcases := Session.commit_cases hholds hb h.base hsize hg hs
  rw [← hclose, h.path_eq] at hcases
  rcases hcases with ⟨files', hvalue, htake, hp⟩ | ⟨files', hvalue, ⟨now, hnow, hother⟩, hsame⟩ |
    ⟨error, files', hvalue, hhosts, hsame⟩
  · have hsince : e.since = commits := by
      refine Nat.le_antisymm h.since (Nat.le_of_not_lt fun hlt => ?_)
      exact h.stale hlt htake
    exact Or.inl ⟨files', hvalue, hsince, hne, hforce, hp, h.held_published hsince hfits hp⟩
  · refine Or.inr ⟨_, files', hvalue, hsame, fun n hn => absurd hn (by simp), fun _ _ _ => ?_⟩
    refine ⟨fun hsince => hother ?_, rfl⟩
    exact Except.ok.inj (hnow.symm.trans (h.current hsince))
  · refine Or.inr ⟨_, files', hvalue, hsame, fun n hn => absurd hn (by simp), fun _ _ hh => ?_⟩
    rw [h.config_eq] at hhosts
    exact absurd hh hhosts

end Takes

/-! ## 3. Runs -/

/-- The world is as the chronicle says. -/
structure Fair (initial : Option Stored) (start : FileSystem) (c : Chronicle)
    (w : World) : Prop where
  grounded : w.files.Grounded
  held : Held w.files w.path (c.stored initial)
  hosts : ∀ temporaryPrefix, start.Hosts w.path temporaryPrefix →
    w.files.Hosts w.path temporaryPrefix
  absent : ∀ handle, c.entrants handle = none → w.sessions handle = none
  takes : ∀ handle e, c.entrants handle = some e → ∃ session,
    w.sessions handle = some session ∧
      Takes w.files w.path c.commits.length (c.stored initial) e session

namespace Fair

variable {initial : Option Stored} {start : FileSystem} {c : Chronicle} {w : World}

/-- Another session, or none, under one handle. -/
theorem put (h : Fair initial start c w) (handle : Nat) {e : Option Entrant}
    {session : Option Session} (hnone : e = none → session = none)
    (hsome : ∀ entrant, e = some entrant → ∃ s, session = some s ∧
      Takes w.files w.path c.commits.length (c.stored initial) entrant s) :
    Fair initial start (c.put handle e) (w.put handle session) where
  grounded := h.grounded
  held := h.held
  hosts := h.hosts
  absent := by
    intro other ho
    by_cases he : other = handle
    · subst he
      simp only [Chronicle.put, Function.update_self] at ho
      simp only [World.put, Function.update_self]
      exact hnone ho
    · simp only [Chronicle.put, Function.update_of_ne he] at ho
      simp only [World.put, Function.update_of_ne he]
      exact h.absent other ho
  takes := by
    intro other entrant ho
    by_cases he : other = handle
    · subst he
      simp only [Chronicle.put, Function.update_self] at ho
      simp only [World.put, Function.update_self]
      exact hsome entrant ho
    · simp only [Chronicle.put, Function.update_of_ne he] at ho
      simp only [World.put, Function.update_of_ne he]
      exact h.takes other entrant ho

/-- No session under one handle. -/
theorem remove (h : Fair initial start c w) (handle : Nat) :
    Fair initial start (c.put handle none) (w.put handle none) :=
  h.put handle (fun _ => rfl) nofun

/-- Files that have changed unnoticed. -/
theorem same (h : Fair initial start c w) {files' : FileSystem} (hs : w.files.Same files') :
    Fair initial start c { w with files := files' } where
  grounded := hs.grounded h.grounded
  held := h.held.same hs
  hosts := fun temporaryPrefix hh => hs.hosts_iff.mpr (h.hosts temporaryPrefix hh)
  absent := h.absent
  takes := by
    intro handle e he
    obtain ⟨session, hsession, ht⟩ := h.takes handle e he
    exact ⟨session, hsession, ht.same hs h.held⟩

/-- A session has committed. -/
theorem published (h : Fair initial start c w) {handle : Nat} {e : Entrant} {files' : FileSystem}
    {bytes : Bytes} (hp : w.files.Published files' w.path bytes)
    (hheld : Held files' w.path (e.publish (c.stored initial))) :
    Fair initial start { c.put handle none with commits := c.commits ++ [e] }
      { w.put handle none with files := files' } := by
  have hstored : Chronicle.stored { c.put handle none with commits := c.commits ++ [e] } initial
      = e.publish (c.stored initial) := by
    rw [Chronicle.stored, List.foldl_append]
    rfl
  have hput := h.remove handle
  exact {
    grounded := hp.grounded
    held := hstored ▸ hheld
    hosts := fun temporaryPrefix hh => hp.hosts (h.hosts temporaryPrefix hh)
    absent := hput.absent
    takes := by
      intro other entrant ho
      obtain ⟨session, hsession, ht⟩ := hput.takes other entrant ho
      refine ⟨session, hsession, ?_⟩
      rw [List.length_append]
      exact ht.published hp _ }

/-- A handle without a session has no part in the chronicle. -/
theorem entrants_eq_none (h : Fair initial start c w) {handle : Nat}
    (hs : w.sessions handle = none) : c.entrants handle = none := by
  cases he : c.entrants handle with
  | none => rfl
  | some e =>
    obtain ⟨session, hsession, -⟩ := h.takes handle e he
    exact absurd (hs.symm.trans hsession) (by simp)

theorem exists_entrant (h : Fair initial start c w) {handle : Nat} {session : Session}
    (hs : w.sessions handle = some session) :
    ∃ e, c.entrants handle = some e ∧
      Takes w.files w.path c.commits.length (c.stored initial) e session := by
  cases he : c.entrants handle with
  | none => exact absurd ((h.absent handle he).symm.trans hs) (by simp)
  | some e =>
    obtain ⟨session', hsession, ht⟩ := h.takes handle e he
    obtain rfl := Option.some.inj (hs.symm.trans hsession)
    exact ⟨e, rfl, ht⟩

/-- Nothing is known of a handle that has no session, before and after it is cleared. -/
theorem put_none (h : Fair initial start c w) {handle : Nat} (hs : w.sessions handle = none) :
    c.put handle none = c := by
  rw [Chronicle.put, ← h.entrants_eq_none hs, Function.update_eq_self]

/-- Closing a session keeps the world as the chronicle says. -/
theorem close (h : Fair initial start c w) {handle : Nat} {session : Session}
    (hs : w.sessions handle = some session) (hfits : session.Fits) (force : Option Mode) :
    Fair initial start (c.closed handle (some (session.close w.files force).value.1))
      { w.put handle none with files := (session.close w.files force).value.2 } := by
  obtain ⟨e, he, ht⟩ := h.exists_entrant hs
  rcases ht.close_cases h.grounded h.held hfits force with
    ⟨files', hvalue, -, -, -, hp, hheld⟩ | ⟨answer, files', hvalue, hsame, hanswer, -⟩
  · rw [hvalue]
    simp only [Chronicle.closed, he, Option.toList_some]
    exact h.published hp hheld
  · rw [hvalue]
    have hclosed : c.closed handle (some answer) = c.put handle none := by
      unfold Chronicle.closed
      split
      · rename_i n hn
        exact absurd (Option.some.inj hn) (hanswer n)
      · rfl
    rw [hclosed]
    exact (h.remove handle).same hsame

/-- **One act keeps the world as the chronicle says.** -/
theorem act (h : Fair initial start c w) (hfits : w.Fits) (handle : Nat) (a : Act) :
    Fair initial start (c.note handle a (w.act handle a).1) (w.act handle a).2 := by
  cases a with
  | «open» mode config =>
    cases ho : (Session.open w.files w.path mode config).value with
    | error error =>
      simp only [World.act, ho]
      exact h
    | ok session =>
      simp only [World.act, ho]
      refine h.put handle (fun hn => absurd hn (by simp)) ?_
      rintro entrant he
      rw [← Option.some.inj he]
      exact ⟨session, rfl, .ofOpen h.held ho _⟩
  | call call =>
    cases hs : w.sessions handle with
    | none =>
      simp only [World.act, hs]
      exact h
    | some session =>
      obtain ⟨e, he, ht⟩ := h.exists_entrant hs
      simp only [World.act, hs, Chronicle.note, he, Option.map_some]
      refine h.put handle (fun hn => absurd hn (by simp)) ?_
      rintro entrant hentrant
      rw [← Option.some.inj hentrant]
      exact ⟨_, rfl, ht.call call⟩
  | close force =>
    cases hs : w.sessions handle with
    | none =>
      simp only [World.act, hs, Chronicle.note, Chronicle.closed, h.put_none hs]
      exact h
    | some session =>
      simp only [World.act, hs, Chronicle.note]
      exact h.close hs (hfits handle session hs) force
  | drop =>
    cases hs : w.sessions handle with
    | none =>
      simp only [World.act, hs, Chronicle.note, h.put_none hs]
      exact h
    | some session =>
      simp only [World.act, hs, Chronicle.note]
      exact h.remove handle

end Fair

theorem Chronicle.ofEvents_append (events : List Event) (event : Event) :
    ofEvents (events ++ [event])
      = (ofEvents events).note event.handle event.act event.answer := by
  rw [ofEvents, List.foldl_append]
  rfl

/-- **Every run keeps the world as its chronicle says.** -/
theorem World.Run.fair {path : String} {files : FileSystem} {initial : Option Stored}
    (hg : files.Grounded) (hheld : Held files path initial) {events : List Event} {w : World}
    (h : Run (begin path files) events w) :
    w.path = path ∧ Fair initial files (.ofEvents events) w := by
  induction h with
  | start =>
    exact ⟨rfl, hg, hheld, fun _ hh => hh, fun _ _ => rfl, fun _ _ he => absurd he (by
      simp [Chronicle.ofEvents, Chronicle.start])⟩
  | @act events w handle a hrun _ ih =>
    obtain ⟨hpath, hfair⟩ := ih
    refine ⟨?_, ?_⟩
    · rw [← hpath]
      exact World.act_path w handle a
    · rw [Chronicle.ofEvents_append]
      exact hfair.act (hrun.fits (World.fits_begin path files)) handle a

/-! ## 4. Race safety -/

/-- Commits that start nothing anew only append. -/
theorem foldl_publish_of_append {later : List Entrant} (h : ∀ e ∈ later, e.mode ≠ .create)
    (stored : Stored) :
    later.foldl Entrant.publish (some stored)
      = some (stored.extend (later.flatMap (·.added))) := by
  induction later generalizing stored with
  | nil => simp [Stored.extend]
  | cons e later ih =>
    obtain ⟨he, hlater⟩ := List.forall_mem_cons.mp h
    rw [List.foldl_cons, Entrant.publish, if_neg he, Option.getD_some, ih hlater]
    simp only [Stored.extend, List.flatMap_cons, List.map_append, Record.frames_append,
      List.append_assoc]

/-- **Race safety.**  Sessions are opened, used, closed and dropped on one path in any order, by
any number of programs.  Then

* what is stored is what the sessions that have committed made of it, in the order of their
  commits;
* closing a session that has added something, and that is not told to drop it, commits it exactly
  when nobody has committed since it was opened, and reports a conflict otherwise, as long as new
  files can be made beside the path;
* what a session has published stays, as long as nobody commits who started anew. -/
theorem race_safety {path : String} {files : FileSystem} {initial : Option Stored}
    (hg : files.Grounded) (hheld : Held files path initial) {events : List Event} {w : World}
    (h : World.Run (World.begin path files) events w) :
    Held w.files path ((Chronicle.ofEvents events).stored initial) ∧
      (∀ handle e force, (Chronicle.ofEvents events).entrants handle = some e → e.added ≠ [] →
        force ≠ some .read → files.Hosts path e.config.temporaryPrefix →
        (w.act handle (.close force)).1 = some (.ok
          (if e.since = (Chronicle.ofEvents events).commits.length then
            .committed e.added.length
          else .conflictLoss e.added.length))) ∧
      ∀ earlier later published, (Chronicle.ofEvents events).commits = earlier ++ later →
        earlier.foldl Entrant.publish initial = some published →
        (∀ e ∈ later, e.mode ≠ .create) →
        (Chronicle.ofEvents events).stored initial
          = some (published.extend (later.flatMap (·.added))) := by
  obtain ⟨rfl, hfair⟩ := h.fair hg hheld
  refine ⟨hfair.held, ?_, ?_⟩
  · intro handle e force he hne hforce hhosts
    obtain ⟨session, hs, ht⟩ := hfair.takes handle e he
    have hfits := h.fits (World.fits_begin _ files) handle session hs
    simp only [World.act, hs]
    rcases ht.close_cases hfair.grounded hfair.held hfits force with
      ⟨files', hvalue, hsince, -⟩ | ⟨answer, files', hvalue, -, -, hlost⟩
    · rw [hvalue, if_pos hsince]
    · obtain ⟨hsince, rfl⟩ := hlost hne hforce (hfair.hosts _ hhosts)
      rw [hvalue, if_neg hsince]
  · intro earlier later published hcommits hearlier hlater
    rw [Chronicle.stored, hcommits, List.foldl_append, hearlier,
      foldl_publish_of_append hlater published]

/-- The second of two sessions that were open at once loses. -/
theorem race_safety_two : ∃ events w, World.Run (World.begin "a" .empty) events w ∧
    (w.act 1 (.close none)).1 = some (.ok (.conflictLoss 1)) := by
  have h₁ : World.Run (World.begin "a" .empty) _ _ := .start
  have h₂ := h₁.next 0 (.open .write .default) (by decide +kernel)
  have h₃ := h₂.next 1 (.open .write .default) (by decide +kernel)
  have h₄ := h₃.next 0 (.call (.add [1] [2] none)) (by decide +kernel)
  have h₅ := h₄.next 1 (.call (.add [1] [3] none)) (by decide +kernel)
  have h₆ := h₅.next 0 (.close none) (by decide +kernel)
  have hlost := (@race_safety "a" _ none FileSystem.grounded_empty rfl _ _ h₆).2.1 1
    ⟨.create, .default, 0, [⟨⟨[1], [3], none⟩, defaultLevel⟩]⟩ none (by decide +kernel)
    (by simp) (by simp) ⟨⟨_, rfl, rfl⟩, ⟨_, rfl⟩, rfl⟩
  rw [if_neg (by decide +kernel)] at hlost
  exact ⟨_, _, h₆, hlost⟩

end ConstStore
