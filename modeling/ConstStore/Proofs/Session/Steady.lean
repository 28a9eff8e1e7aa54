/-
# What was found stays found

A session remembers the record found last: its ordinal, the file that holds it, and where it stands
there.  Records that are added afterwards make the index longer, create the buffer and move the
cursors.  None of this may disturb what is remembered, and only finding and getting may replace it.

* `Session.Stays`: the sessions that come about without finding or getting anything.
* `Stays.last_eq`: they remember what was found before.
* `Holds.fetch_kept`: fetching it gives the same, from either file.
* `FoundNothing`: how a session answers that remembers nothing.
* `lookup_stays`: all this, for every session.
-/
import ConstStore.Proofs.Session.Additions

namespace ConstStore

/-! ## 1. Calls that do not look for a key -/

/-- The call neither finds a key nor gets the value under one. -/
def Call.Stationary : Call → Prop
  | find _ | get _ => False
  | _ => True

namespace Session

/-- The sessions that come about without a key being looked for.  Additions may fail by the way, also
when some bytes of a record have been written. -/
inductive Stays (found : Session) : Session → Prop
  | start : Stays found found
  | call {next : Session} (fs : FileSystem) (c : Call) :
      c.Stationary → Stays found next → Stays found (next.call fs c).2
  | lapse {next : Session} (written : Option Bytes) :
      next.mode ≠ .read → Stays found next → Stays found (next.lapse written)

variable {found next start session s t : Session} {loaded : List Entry}
  {before added more : List Record} {key : Bytes} {last : LastLookup} {e : Entry}

theorem Stays.history (h : found.Stays next) : ∃ added, found.History added next := by
  induction h with
  | start => exact ⟨[], .start⟩
  | call fs c _ _ ih =>
    obtain ⟨added, h⟩ := ih
    exact ⟨_, h.call fs c⟩
  | lapse written hm _ ih =>
    obtain ⟨added, h⟩ := ih
    exact ⟨added, h.lapse written hm⟩

/-- **Other calls do not touch what was found.** -/
theorem last_call (session : Session) (fs : FileSystem) {c : Call} (hc : c.Stationary) :
    (session.call fs c).2.last = session.last := by
  cases c with
  | find key | get key => exact hc.elim
  | contains key | metadata | last | size | info => rfl
  | fetch | fetchValue codec => exact last_fetch session fs
  | add key value metadata => exact last_add session fs key value metadata
  | addValue codec key value metadata =>
    simp only [call, addValue_value]
    exact last_add session fs key (codec.encode value) metadata

/-- **What was found is remembered.** -/
theorem Stays.last_eq (h : found.Stays next) : next.last = found.last := by
  induction h with
  | start => rfl
  | call fs c hc _ ih => exact (last_call _ fs hc).trans ih
  | lapse written _ _ ih => exact ih

/-! ## 2. What was found -/

/-- An entry keeps its ordinal. -/
theorem Holds.get?_append (h : s.Holds loaded added) (h' : t.Holds loaded (added ++ more))
    {n : Nat} (he : s.index.get? n = some e) : t.index.get? n = some e := by
  obtain ⟨hlt, -⟩ := List.getElem?_eq_some_iff.mp he
  rw [Index.get?, h'.entries, List.map_append, ← List.append_assoc, ← h.entries,
    List.getElem?_append_left hlt]
  exact he

/-- **What was found is fetched as it would have been at once.**  A loaded record stands in the base
file, which is as it was; an added one stands in the buffer, behind whose records others are
added. -/
theorem Holds.fetch_kept (h : s.Holds loaded added) (h' : t.Holds loaded (added ++ more))
    (hsetup : SameSetup s t) (hl : s.locate? key = some last) (hlast : s.last = some last)
    (hlast' : t.last = some last) (hnot : ¬ Trailing loaded last.ordinal)
    {files files' : FileSystem} (hbase : ∀ base, s.base = some base → ∃ content,
      files.contentOf base.node = .ok content ∧ files'.contentOf base.node = .ok content ∧
        content.length = base.size) :
    (t.fetch files').1 = (s.fetch files).1 := by
  obtain ⟨e, he, -, ⟨-, hsize, -⟩, howner, -⟩ := h.owner_of_locate? hl
  have howner := howner hnot
  have hlt := (List.getElem?_eq_some_iff.mp he).1
  rw [h.entries, List.length_append, List.length_map] at hlt
  have howner' : (last.source, last.offset)
      = owner t.dataStart loaded (added ++ more) last.ordinal := by
    rw [dataStart_sameSetup hsetup, owner_append (Nat.le_of_lt hlt), howner]
  rw [Index.get?, h.entries] at he
  -- the owner is the same for both sessions; which file it is depends on the ordinal
  by_cases hin : last.ordinal < loaded.length
  · rw [List.getElem?_append_left hin, List.getElem?_eq_getElem hin, Option.some.injEq] at he
    rcases hsetup.base_cases with ⟨hold, -⟩ | ⟨old, base, hold, hnew, hsame⟩
    · rw [h.nothing hold] at hin
      exact absurd hin (Nat.not_lt_zero _)
    · obtain ⟨content, hcontent, hcontent', hlength⟩ := hbase old hold
      have hnode : base.node = old.node := congrArg (·.1) hsame
      have hbytes : base.size = old.size := congrArg (·.2.2.size) hsame
      rw [h.fetch_loaded hold hcontent hlength hlast hin howner (he ▸ hsize),
        h'.fetch_loaded hnew (hnode ▸ hcontent') (hlength.trans hbytes.symm) hlast' hin howner'
          (he ▸ hsize)]
  · have hle := Nat.le_of_not_lt hin
    rw [List.getElem?_append_right hle, List.getElem?_map] at he
    obtain ⟨r, hr, rfl⟩ := Option.map_eq_some_iff.mp he
    have hr' : (added ++ more)[last.ordinal - loaded.length]? = some r := by
      rw [List.getElem?_append_left (List.getElem?_eq_some_iff.mp hr).1]
      exact hr
    have hsize : last.size ≤ r.frame.length := hsize ▸ Nat.mod_le _ _
    rw [owner, if_neg hin] at howner howner'
    have hend : last.offset + last.size ≤ (Record.frames added).length := by
      have := (Record.slice_frames hr).2
      rw [(Prod.mk.inj howner).2]
      omega
    rw [h.fetch_added hlast hr howner hsize, h'.fetch_added hlast' hr' howner' hsize,
      Record.frames_append, Bytes.slice_append_left hend]

/-! ## 3. Where nothing was found -/

/-- The session remembers no record, and says so. -/
structure FoundNothing (session : Session) : Prop where
  last : session.last = none
  metadata : session.metadata? = none
  fetch : ∀ files, (session.fetch files).1 = .error .noPriorFind
  fetchValue : ∀ files (α : Type) (codec : Codec α),
    (session.fetchValue files codec).1 = .error .noPriorFind

theorem foundNothing (h : session.last = none) : session.FoundNothing := by
  have hfetch : ∀ files, (session.fetch files).1 = .error .noPriorFind := by
    intro files
    rw [Session.fetch, h]
  refine ⟨h, ?_, hfetch, fun files α codec => ?_⟩
  · rw [metadata?, h]
    rfl
  · rw [fetchValue_eq, hfetch]
    rfl

/-- A session remembers nothing when nothing has been looked for, and where a key was not there. -/
inductive Blank (start session : Session) : Session → Prop
  | start : Blank start session start
  | find {key : Bytes} : (session.find key).1 = false → Blank start session (session.find key).2
  | get {fs : FileSystem} {key : Bytes} : (session.get fs key).1 = .ok none →
      Blank start session (session.get fs key).2

theorem locate?_of_get_eq_none {fs : FileSystem} (h : (session.get fs key).1 = .ok none) :
    session.locate? key = none := by
  rw [get_fst] at h
  split at h
  · obtain ⟨value, -, hv⟩ := Fallible.map_eq_ok.mp h
    exact absurd hv nofun
  · rename_i hmiss
    exact Option.not_isSome_iff_eq_none.mp hmiss

theorem Blank.last_eq {blank : Session} (h : Blank start session blank)
    (hstart : start.last = none) : blank.last = none := by
  cases h with
  | start => exact hstart
  | find h => exact Option.not_isSome_iff_eq_none.mp (ne_true_of_eq_false h)
  | get h => exact (last_get _ _ _).trans (locate?_of_get_eq_none h)

theorem last_open {fs : FileSystem} {path : String} {mode : Mode} {config : SessionConfig}
    (h : (Session.open fs path mode config).value = .ok session) : session.last = none := by
  rcases open_eq_ok.mp h with ⟨-, _, _, -, rfl⟩ | ⟨-, _, -, rfl⟩ <;> rfl

/-! ## 4. Every session -/

/-- **Only finding and getting move a session to another record.**  After a key has been found, the
record is remembered whatever else is called, and so is its metadata; if none of the loaded records
is without bytes, it can be fetched at any time with the same result as at once, while the base
file is as it was.  Before anything has been looked for, and after a key was not there, nothing is
remembered, and fetching fails, whatever is added.

Records without bytes are not added: where none was loaded, there is none to be written. -/
theorem lookup_stays {opened : FileSystem} {path : String} {mode : Mode} {config : SessionConfig}
    (hopen : (Session.open opened path mode config).value = .ok start)
    (hreach : start.History before session) :
    (∀ key, (session.find key).1 = true → ∃ last e,
      (session.find key).2.last = some last ∧
      (session.index.get? last.ordinal = some e ∧ e.key = key) ∧
      ∀ next, (session.find key).2.Stays next →
        next.last = some last ∧ next.metadata? = e.metadata ∧
        ((∀ e ∈ start.index.entries, e.size ≠ 0) → ∀ files files' : FileSystem,
          (∀ base, start.base = some base →
            files.contentOf base.node = opened.contentOf base.node ∧
              files'.contentOf base.node = opened.contentOf base.node) →
          (next.fetch files').1 = ((session.find key).2.fetch files).1 ∧
          ∀ (α : Type) (codec : Codec α), (next.fetchValue files' codec).1
            = ((session.find key).2.fetchValue files codec).1)) ∧
    (∀ blank next, Blank start session blank → blank.Stays next → next.FoundNothing) ∧
    ((∀ e ∈ start.index.entries, e.size ≠ 0) → session.pendingBytes < UInt64.size →
      ∀ e ∈ session.index.entries, e.size ≠ 0) := by
  have hholds := hreach.holds (holds_open hopen)
  rw [List.nil_append] at hholds
  have hbase : session.BaseIn opened :=
    BaseIn.sameSetup (fun _ hb => base_of_open hopen hb) hreach.sameSetup
  refine ⟨?_, ?_, ?_⟩
  · intro key hfind
    obtain ⟨last, hl⟩ := Option.isSome_iff_exists.mp hfind
    obtain ⟨e, he, hk, -⟩ := hholds.owner_of_locate? hl
    have hfound := holds_find hholds key
    refine ⟨last, e, hl, ⟨he, hk⟩, fun next hstays => ?_⟩
    obtain ⟨added, hhistory⟩ := hstays.history
    have hnext := hhistory.holds hfound
    have hlast : next.last = some last := hstays.last_eq.trans hl
    refine ⟨hlast, ?_, fun hsizes files files' hsame => ?_⟩
    · rw [metadata?, hlast]
      simp only [Option.bind_eq_bind, Option.bind_some, hfound.get?_append hnext he]
    · have hnot : ¬ Trailing start.index.entries last.ordinal := by
        intro ht
        have hentry := List.getElem?_eq_getElem ht.1
        exact hsizes _ (List.mem_of_getElem? hentry) (ht.size_eq_zero hentry)
      have hfetch : (next.fetch files').1 = ((session.find key).2.fetch files).1 := by
        refine hfound.fetch_kept hnext hhistory.sameSetup hl hl hlast hnot fun base hb => ?_
        obtain ⟨content, hcontent, hlength⟩ := hbase base hb
        obtain ⟨hfiles, hfiles'⟩ := hreach.sameSetup.forall_base
          (P := fun node => files.contentOf node = opened.contentOf node ∧
            files'.contentOf node = opened.contentOf node) hsame base hb
        rw [hfiles, hfiles']
        exact ⟨content, hcontent, hcontent, hlength⟩
      refine ⟨hfetch, fun α codec => ?_⟩
      rw [fetchValue_eq, fetchValue_eq, hfetch]
  · intro blank next hblank hstays
    exact foundNothing (hstays.last_eq.trans (hblank.last_eq (last_open hopen)))
  · intro hsizes hbytes e he
    rw [hholds.entries] at he
    rcases List.mem_append.mp he with he | he
    · exact hsizes e he
    · obtain ⟨r, hr, rfl⟩ := List.mem_map.mp he
      have hframe : r.frame.length < UInt64.size :=
        Nat.lt_of_le_of_lt (Record.length_frame_le hr) (hholds.length_frames ▸ hbytes)
      intro hzero
      have hsize : r.entry.size.toNat = r.frame.length := UInt64.toNat_ofNat_of_lt' hframe
      rw [hzero] at hsize
      exact absurd hsize (Nat.ne_of_lt (size_compress_pos r.level r.value))

/-- A record that does not decode is found, another one is added, and one more fails to be written:
fetching the first gives what it would have given at once.  A key that was not there is added, and
still there is nothing to fetch. -/
theorem lookup_stays_damaged : ∃ next missed,
    (damagedSession.find [1]).2.Stays next ∧ next.pendingRecords = 1 ∧
      (next.fetch damagedFiles).1 = ((damagedSession.find [1]).2.fetch damagedFiles).1 ∧
      (damagedSession.find [9]).2.Stays missed ∧ missed.contains [9] = true ∧
      (missed.fetch damagedFiles).1 = .error .noPriorFind := by
  have hopen : (Session.open damagedFiles "a" .write .default).value = .ok damagedSession := by
    decide +kernel
  obtain ⟨hfound, hblank, -⟩ := lookup_stays hopen .start
  have hnext : (damagedSession.find [1]).2.Stays _ :=
    .lapse (some [7]) (by decide +kernel) (.call damagedFiles (.add [2] [3] none) trivial .start)
  have hmissed : (damagedSession.find [9]).2.Stays _ :=
    .call damagedFiles (.add [9] [3] none) trivial .start
  obtain ⟨last, e, -, -, hkept⟩ := hfound [1] (by decide +kernel)
  obtain ⟨-, -, hfetch⟩ := hkept _ hnext
  have hsame := (hfetch (by decide +kernel) damagedFiles damagedFiles fun _ _ => ⟨rfl, rfl⟩).1
  have hnone := hblank _ _ (.find (by decide +kernel)) hmissed
  exact ⟨_, _, hnext, by decide +kernel, hsame, hmissed, by decide +kernel,
    hnone.fetch damagedFiles⟩

end Session
end ConstStore
