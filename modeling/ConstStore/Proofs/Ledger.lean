/-
# A store is a ledger

To its users a store is a list of items with distinct keys.  A `Ledger` is just that: the items
that are published, and the draft of the session that is open.  It has no files, no places and no
compression.

* `Ledger.answers`, `Ledger.after`: what acts answer, and what they change.
* `Ledger.Mirrors`: how a world is related to a ledger.
* `Ledger.Mirrors.answers_act`, `Ledger.Mirrors.act`: an act answers what the ledger says, and
  keeps world and ledger related.
* `ledger_explains`: every answer in every sequence of sessions is the one that the ledger gives.
-/
import ConstStore.Proofs.Race
import ConstStore.Proofs.Session.Draft

namespace ConstStore

/-! ## 1. Ledgers -/

/-- What is published, and the open session. -/
structure Ledger where
  published : Option (List Item)
  draft : Option Draft

namespace Ledger

/-- Nothing is published and no session is open. -/
def empty : Ledger := ⟨none, none⟩

/-- The session that is opened in a mode; `none` when there is nothing to be read. -/
def begins (l : Ledger) : Mode → Option Draft
  | .create => some ⟨.create, [], 0, none⟩
  | .write => match l.published with
    | none => some ⟨.create, [], 0, none⟩
    | some items => some ⟨.write, items, 0, none⟩
  | .read => l.published.map fun items => ⟨.read, items, 0, none⟩

/-- What an act has to answer, on a store at a path. -/
def answers (l : Ledger) (path : String) : (a : Act) → Option a.Answer → Prop
  | .open mode _, answer => answer = some (match l.begins mode with
      | none => .error (.io (.missingStore path))
      | some d => .ok d.mode)
  | .call c, answer => match l.draft with
      | none => answer = none
      | some d => ∃ given, answer = some given ∧ d.answers c given
  | .close force, answer => answer = l.draft.map fun d => .ok (d.outcome force)
  | .drop, answer => answer = l.draft.map fun _ => ()

/-- The ledger after an act. -/
def after (l : Ledger) : Act → Ledger
  | .open mode _ => match l.begins mode with
      | none => l
      | some d => ⟨l.published, some d⟩
  | .call c => ⟨l.published, l.draft.map (·.after c)⟩
  | .close force => match l.draft with
      | none => l
      | some d => ⟨if (d.outcome force).isCommitted then some d.items else l.published, none⟩
  | .drop => ⟨l.published, none⟩

/-- Every answer is the one that the ledger gives, as it is after the acts before. -/
def Explains (path : String) : Ledger → List Event → Prop
  | _, [] => True
  | l, event :: events =>
    l.answers path event.act event.answer ∧ Explains path (l.after event.act) events

end Ledger

/-! ## 2. Worlds and ledgers -/

/-- The store that sessions have written, with these records. -/
def Stored.ofRecords (records : List Record) : Stored :=
  ⟨records.map Record.entry, Record.frames records⟩

/-- The world is what the ledger says to the program behind a handle.  The records are those that
are published. -/
structure Ledger.Mirrors (l : Ledger) (start : FileSystem) (handle : Nat)
    (records : Option (List Record)) (w : World) : Prop where
  grounded : w.files.Grounded
  hosts : ∀ temporaryPrefix, start.Hosts w.path temporaryPrefix →
    w.files.Hosts w.path temporaryPrefix
  held : Held w.files w.path (records.map Stored.ofRecords)
  fits : ∀ published, records = some published → ∀ r ∈ published, r.Fits
  published : l.published = records.map (List.map Record.toItem)
  closed : l.draft = none → w.sessions handle = none
  opened : ∀ d, l.draft = some d → ∃ session loaded added, w.sessions handle = some session ∧
    d.Mirrors session w.files loaded added ∧
    start.Hosts w.path session.config.temporaryPrefix ∧
    Takes w.files w.path 0 (records.map Stored.ofRecords) ⟨d.mode, session.config, 0, added⟩
      session

/-- The path can host the sessions that an act opens, and the values that it adds have lengths of
64 bits. -/
def Act.Feasible (files : FileSystem) (path : String) : Act → Prop
  | .open _ config => files.Hosts path config.temporaryPrefix
  | .call c => c.ValueFits
  | .close _ | .drop => True

namespace Ledger.Mirrors

variable {l : Ledger} {start : FileSystem} {handle : Nat} {records : Option (List Record)}
  {w : World}

/-- **Opening a session begins a draft**, or there is nothing to be read. -/
theorem begins_cases (h : l.Mirrors start handle records w) (mode : Mode)
    (config : SessionConfig) :
    (l.begins mode = none ∧ (Session.open w.files w.path mode config).value
        = .error (.io (.missingStore w.path))) ∨
      ∃ d session loaded, l.begins mode = some d ∧
        (Session.open w.files w.path mode config).value = .ok session ∧
        session.config = config ∧ d.Mirrors session w.files loaded [] := by
  rcases h.held.open_cases mode config with
    ⟨rfl, hnone, ho⟩ | ⟨hmode, snapshot, ho⟩ | ⟨hmode, base, contents, ho, hstored⟩
  · refine Or.inl ⟨?_, ho⟩
    rw [begins, h.published, Option.map_eq_none_iff.mp hnone]
    rfl
  · refine Or.inr ⟨⟨.create, [], 0, none⟩, _, [], ?_, ho, rfl, ?_⟩
    · rcases hmode with rfl | ⟨rfl, hnone⟩
      · rfl
      · rw [begins, h.published, Option.map_eq_none_iff.mp hnone]
        rfl
    · exact ⟨⟨Session.holds_ofNothing w.path config snapshot, nofun, rfl, nofun⟩, rfl, rfl, rfl,
        .nothing⟩
  · obtain ⟨published, hp, hstore⟩ := Option.map_eq_some_iff.mp hstored
    have hholds := Session.holds_open ho
    have hentries : contents.index.entries = published.map Record.entry :=
      (congrArg Stored.entries hstore).symm
    refine Or.inr ⟨⟨mode, published.map Record.toItem, 0, none⟩, _, published, ?_, ho, rfl, ?_⟩
    · rw [begins.eq_def, h.published, hp]
      cases mode with
      | read | write => rfl
      | create => exact absurd rfl hmode
    · refine ⟨⟨hentries ▸ hholds, fun b hb => Session.base_of_open ho hb,
        (congrArg Stored.region hstore).symm, ?_⟩, rfl, by rw [List.append_nil], rfl, .nothing⟩
      rw [List.append_nil]
      exact h.fits published hp

/-- Nothing is open under the handle any more, and something else may be published. -/
theorem clear {files : FileSystem} {published : Option (List Item)} (hg : files.Grounded)
    (hhosts : ∀ temporaryPrefix, start.Hosts w.path temporaryPrefix →
      files.Hosts w.path temporaryPrefix)
    (hheld : Held files w.path (records.map Stored.ofRecords))
    (hfits : ∀ published, records = some published → ∀ r ∈ published, r.Fits)
    (hpublished : published = records.map (List.map Record.toItem)) :
    (⟨published, none⟩ : Ledger).Mirrors start handle records
      { w.put handle none with files } where
  grounded := hg
  hosts := hhosts
  held := hheld
  fits := hfits
  published := hpublished
  closed := fun _ => Function.update_self ..
  opened := nofun

/-- **Closing ends as the draft says**: the store is as before, or it holds what the draft
holds. -/
theorem close_cases (h : l.Mirrors start handle records w) (hfits : w.Fits) {d : Draft}
    (hd : l.draft = some d) (force : Option Mode) :
    ∃ session files', w.sessions handle = some session ∧
      (session.close w.files force).value = (.ok (d.outcome force), files') ∧
      ((d.outcome force).isCommitted = false ∧ w.files.Same files' ∨
        (d.outcome force).isCommitted = true ∧
          ∃ more bytes, d.items = more.map Record.toItem ∧ (∀ r ∈ more, r.Fits) ∧
            w.files.Published files' w.path bytes ∧
            Held files' w.path (some (.ofRecords more))) := by
  obtain ⟨session, loaded, added, hs, hm, hhosts, ht⟩ := h.opened d hd
  have hcarries := hm.carries
  have hlength := hm.count
  by_cases hne : added = []
  · have hclose := Session.close_of_nothing (hne ▸ hcarries.holds) w.files force
    have houtcome : d.outcome force = .noChanges := by
      rw [Draft.outcome, hlength, hne, if_pos List.length_nil]
    rw [houtcome]
    exact ⟨session, w.files, hs, hclose, Or.inl ⟨rfl, .refl w.files⟩⟩
  have hpos : d.added ≠ 0 := by
    rw [hlength, ne_eq, List.length_eq_zero_iff]
    exact hne
  by_cases hforce : force = some .read
  · have hclose := Session.close_of_read hcarries.holds hne w.files
    have houtcome : d.outcome force = .discarded added.length := by
      rw [Draft.outcome, if_neg hpos, if_pos hforce, hlength]
    rw [houtcome]
    exact ⟨session, w.files, hs, hforce ▸ hclose, Or.inl ⟨rfl, .refl w.files⟩⟩
  have houtcome : d.outcome force = .committed added.length := by
    rw [Draft.outcome, if_neg hpos, if_neg hforce, hlength]
  rcases ht.close_cases h.grounded h.held (hfits handle session hs) force with
    ⟨files', hclose, -, -, -, hp, -⟩ | ⟨answer, files', -, -, -, hlost⟩
  · have hheld := Session.held_newStore hcarries.holds hcarries.base (hfits handle session hs) hp
    rw [hcarries.region, ← List.map_append, ← Record.frames_append] at hheld
    rw [houtcome]
    exact ⟨session, files', hs, hclose, Or.inr ⟨rfl, loaded ++ added, _, hm.items,
      hcarries.fits, hp, hheld⟩⟩
  · -- nobody else commits, so nothing can have come in between
    exact absurd rfl (hlost hne hforce (h.hosts _ hhosts)).1

/-- **Every answer is that of the ledger.** -/
theorem answers_act (h : l.Mirrors start handle records w) (hfits : w.Fits) (a : Act) :
    l.answers w.path a (w.act handle a).1 := by
  cases a with
  | «open» mode config =>
    rcases h.begins_cases mode config with ⟨hb, ho⟩ | ⟨d, session, loaded, hb, ho, -, hm⟩
    · simp only [World.act, ho, answers, hb]
    · simp only [World.act, ho, answers, hb, hm.mode]
  | call c =>
    cases hd : l.draft with
    | none => simp only [World.act, h.closed hd, answers, hd]
    | some d =>
      obtain ⟨session, loaded, added, hs, hm, hhosts, ht⟩ := h.opened d hd
      have hdir := (h.hosts _ hhosts).directory
      rw [← ht.path_eq] at hdir
      simp only [World.act, hs, answers, hd]
      exact ⟨_, rfl, hm.answers_call hdir c⟩
  | close force =>
    cases hd : l.draft with
    | none =>
      simp only [World.act, h.closed hd, answers, hd]
      rfl
    | some d =>
      obtain ⟨session, files', hs, hclose, -⟩ := h.close_cases hfits hd force
      simp only [World.act, hs, answers, hd, hclose]
      rfl
  | drop =>
    cases hd : l.draft with
    | none =>
      simp only [World.act, h.closed hd, answers, hd]
      rfl
    | some d =>
      obtain ⟨session, -, -, hs, -⟩ := h.opened d hd
      simp only [World.act, hs, answers, hd]
      rfl

/-- Another draft under the handle. -/
theorem put (h : l.Mirrors start handle records w) {d : Draft} {session : Session}
    {loaded added : List Record} (hm : d.Mirrors session w.files loaded added)
    (hhosts : start.Hosts w.path session.config.temporaryPrefix)
    (ht : Takes w.files w.path 0 (records.map Stored.ofRecords)
      ⟨d.mode, session.config, 0, added⟩ session) :
    (⟨l.published, some d⟩ : Ledger).Mirrors start handle records
      (w.put handle (some session)) where
  grounded := h.grounded
  hosts := h.hosts
  held := h.held
  fits := h.fits
  published := h.published
  closed := nofun
  opened := by
    rintro other ho
    obtain rfl := Option.some.inj ho
    exact ⟨session, loaded, added, Function.update_self .., hm, hhosts, ht⟩

/-- A call keeps session and draft related. -/
theorem call (h : l.Mirrors start handle records w) {d : Draft} (hd : l.draft = some d)
    {session : Session} (hs : w.sessions handle = some session) {c : Call} (hc : c.ValueFits)
    (hfits : (session.call w.files c).2.Fits) :
    (⟨l.published, some (d.after c)⟩ : Ledger).Mirrors start handle records
      (w.put handle (some (session.call w.files c).2)) := by
  obtain ⟨other, loaded, added, ho, hm, hhosts, ht⟩ := h.opened d hd
  obtain rfl := Option.some.inj (hs.symm.trans ho)
  have hdir := (h.hosts _ hhosts).directory
  rw [← ht.path_eq] at hdir
  have hcall := hm.call hdir c hfits hc
  have hsetup := Session.sameSetup_call session w.files c
  have hmode := hcall.mode.symm.trans (hsetup.mode.trans hm.mode)
  refine h.put hcall (hsetup.config ▸ hhosts) ?_
  rw [hmode, hsetup.config]
  exact ht.call c

/-- Closing leaves what the draft says, and no session. -/
theorem close (h : l.Mirrors start handle records w) (hfits : w.Fits) {d : Draft}
    (hd : l.draft = some d) {session : Session} (hs : w.sessions handle = some session)
    (force : Option Mode) :
    ∃ records, (⟨if (d.outcome force).isCommitted then some d.items else l.published, none⟩ :
      Ledger).Mirrors start handle records
        { w.put handle none with files := (session.close w.files force).value.2 } := by
  obtain ⟨other, files', ho, hclose, hcases⟩ := h.close_cases hfits hd force
  obtain rfl := Option.some.inj (hs.symm.trans ho)
  rw [hclose]
  rcases hcases with ⟨hno, hsame⟩ | ⟨hyes, more, bytes, hitems, hmore, hp, hheld⟩
  · rw [hno]
    exact ⟨records, clear (hsame.grounded h.grounded)
      (fun temporaryPrefix hh => hsame.hosts_iff.mpr (h.hosts temporaryPrefix hh))
      (h.held.same hsame) h.fits h.published⟩
  · rw [hyes, hitems]
    refine ⟨some more, clear hp.grounded
      (fun temporaryPrefix hh => hp.hosts (h.hosts temporaryPrefix hh)) hheld ?_ rfl⟩
    rintro published hmp
    rw [← Option.some.inj hmp]
    exact hmore

/-- **One act keeps world and ledger related.** -/
theorem act (h : l.Mirrors start handle records w) (hfits : w.Fits) {a : Act}
    (ha : a.Feasible start w.path) (hnext : (w.act handle a).2.Fits) :
    ∃ records, (l.after a).Mirrors start handle records (w.act handle a).2 := by
  have hnone : l.draft = none →
      (⟨l.published, none⟩ : Ledger).Mirrors start handle records w := by
    intro hd
    rw [← hd]
    exact h
  cases a with
  | «open» mode config =>
    refine ⟨records, ?_⟩
    rcases h.begins_cases mode config with ⟨hb, ho⟩ | ⟨d, session, loaded, hb, ho, hc, hm⟩
    · simp only [World.act, ho, after, hb]
      exact h
    · have ht := Takes.ofOpen h.held ho 0
      rw [hm.mode, ← hc] at ht
      simp only [World.act, ho, after, hb]
      exact h.put hm (hc ▸ ha) ht
  | call c =>
    refine ⟨records, ?_⟩
    cases hd : l.draft with
    | none =>
      simp only [World.act, h.closed hd, after, hd, Option.map_none]
      exact hnone hd
    | some d =>
      obtain ⟨session, -, -, hs, -⟩ := h.opened d hd
      have hfit := hnext handle (session.call w.files c).2 (by simp [World.act, hs, World.put])
      simp only [World.act, hs, after, hd, Option.map_some]
      exact h.call hd hs ha hfit
  | close force =>
    cases hd : l.draft with
    | none =>
      simp only [World.act, h.closed hd, after, hd]
      exact ⟨records, h⟩
    | some d =>
      obtain ⟨session, -, -, hs, -⟩ := h.opened d hd
      simp only [World.act, hs, after, hd]
      exact h.close hfits hd hs force
  | drop =>
    refine ⟨records, ?_⟩
    cases hd : l.draft with
    | none =>
      simp only [World.act, h.closed hd, after]
      exact hnone hd
    | some d =>
      obtain ⟨session, -, -, hs, -⟩ := h.opened d hd
      simp only [World.act, hs, after]
      exact clear h.grounded h.hosts h.held h.fits h.published

end Ledger.Mirrors

/-! ## 3. Runs -/

namespace Ledger

theorem explains_append {path : String} (l : Ledger) (events : List Event) (event : Event) :
    Explains path l (events ++ [event]) ↔ Explains path l events ∧
      ((events.map Event.act).foldl after l).answers path event.act event.answer := by
  induction events generalizing l with
  | nil => simp [Explains]
  | cons first events ih => simp only [List.cons_append, Explains, ih, List.map_cons,
      List.foldl_cons, and_assoc]

/-- **A run is explained by the ledger**, and leaves the world as the ledger says. -/
theorem explains_and_mirrors {path : String} {files : FileSystem} (hg : files.Grounded)
    (habsent : files.follow path = .error .notFound) {handle : Nat} {events : List Event}
    {w : World} (h : World.Run (World.begin path files) events w)
    (hone : ∀ event ∈ events, event.handle = handle)
    (hfeasible : ∀ event ∈ events, event.act.Feasible files path) :
    w.path = path ∧ Explains path .empty events ∧
      ∃ records, ((events.map Event.act).foldl after empty).Mirrors files handle records w := by
  induction h with
  | start =>
    exact ⟨rfl, trivial, none, hg, fun _ hh => hh, habsent, nofun, rfl, fun _ => rfl, nofun⟩
  | @act events w other a hrun hnext ih =>
    obtain ⟨rfl, hexplains, records, hm⟩ := ih
      (fun event he => hone event (List.mem_append_left _ he))
      (fun event he => hfeasible event (List.mem_append_left _ he))
    obtain rfl : other = handle := hone _ (List.mem_append_right _ (List.mem_singleton_self _))
    have ha := hfeasible _ (List.mem_append_right _ (List.mem_singleton_self _))
    have hfits := hrun.fits (World.fits_begin _ files)
    refine ⟨World.act_path w other a, ?_, ?_⟩
    · rw [explains_append]
      exact ⟨hexplains, hm.answers_act hfits a⟩
    · rw [List.map_append, List.foldl_append]
      exact hm.act hfits ha hnext

end Ledger

/-- **A store is a ledger.**  Sessions are run one after another on a path where nothing is at
first, with any acts in any order, and new files can be made beside it.  Then every answer is the one of
a list of items with distinct keys, which a committed session replaces by what it has seen and
added. -/
theorem ledger_explains {path : String} {files : FileSystem} (hg : files.Grounded)
    (habsent : files.follow path = .error .notFound) {handle : Nat} {events : List Event}
    {w : World} (h : World.Run (World.begin path files) events w)
    (hone : ∀ event ∈ events, event.handle = handle)
    (hfeasible : ∀ event ∈ events, event.act.Feasible files path) :
    Ledger.Explains path .empty events := by
  obtain ⟨-, hexplains, -⟩ := Ledger.explains_and_mirrors hg habsent h hone hfeasible
  exact hexplains

/-- A record that is added, published, and fetched by another session. -/
theorem ledger_explains_reopened : ∃ events w, World.Run (World.begin "a" .empty) events w ∧
    events.length = 5 ∧ Ledger.Explains "a" .empty events := by
  have h₁ : World.Run (World.begin "a" .empty) _ _ := .start
  have h₂ := h₁.next 0 (.open .write .default) (by decide +kernel)
  have h₃ := h₂.next 0 (.call (.add [1] [2] none)) (by decide +kernel)
  have h₄ := h₃.next 0 (.close none) (by decide +kernel)
  have h₅ := h₄.next 0 (.open .read .default) (by decide +kernel)
  have h₆ := h₅.next 0 (.call (.get [1])) (by decide +kernel)
  have hosts : FileSystem.empty.Hosts "a" SessionConfig.default.temporaryPrefix :=
    ⟨⟨_, rfl, rfl⟩, ⟨_, rfl⟩, rfl⟩
  refine ⟨_, _, h₆, rfl, @ledger_explains "a" .empty FileSystem.grounded_empty rfl 0 _ _ h₆ ?_ ?_⟩
  · simp
  · simp [Act.Feasible, Call.ValueFits, hosts]

end ConstStore
