/-
# What a session is opened on

Opening either finds a store at the path and loads it, or starts a new one.  The two ways are told
apart here by what the path leads to and by the bytes there.

* `BaseFile.open_eq_some`, `BaseFile.open_eq_none`: when there is a base file.
* `Session.open_eq_ok`: which sessions can be opened.
-/
import ConstStore.Session.Basic

namespace ConstStore

/-! ## 1. Base files -/

/-- The identity of a file tells its size. -/
theorem FileSystem.identityOf_size {fs : FileSystem} {node : NodeId} {bytes : Bytes}
    (h : fs.contentOf node = .ok bytes) : (fs.identityOf node).size = bytes.length := by
  unfold FileSystem.contentOf at h
  unfold FileSystem.identityOf
  split at h
  · rename_i file hn
    rw [← Except.ok.inj h]
  · exact absurd h (by simp)
  · exact absurd h (by simp)

namespace BaseFile

variable {fs : FileSystem} {path : String}

/-- The base file on a node, for contents that were read there. -/
def ofContents (fs : FileSystem) (node : NodeId) (contents : Contents) : BaseFile :=
  ⟨node, .new contents.header.dataOffset, contents.header, fs.identityOf node⟩

/-- **A base file is opened** where the path leads to a file that parses. -/
theorem open_eq_some {base : BaseFile} {contents : Contents} :
    (BaseFile.open fs path).value = .ok (some (base, contents)) ↔
      ∃ node bytes, fs.follow path = .ok node ∧ fs.contentOf node = .ok bytes ∧
        Contents.parse bytes = .ok contents ∧ base = ofContents fs node contents := by
  unfold BaseFile.open
  constructor
  · intro h
    split at h
    · exact absurd h (by simp)
    · exact absurd h (by simp)
    · rename_i node hn
      split at h
      · exact absurd h (by simp)
      · rename_i bytes hb
        split at h
        · exact absurd h (by simp)
        · rename_i contents' hc
          simp only [Logged.value_bind, Logged.value_pure, Except.ok.injEq, Option.some.injEq,
            Prod.mk.injEq] at h
          obtain ⟨rfl, rfl⟩ := h
          exact ⟨node, bytes, hn, hb, hc, rfl⟩
  · rintro ⟨node, bytes, hn, hb, hc, rfl⟩
    simp [hn, hb, hc, ofContents]

/-- **There is no base file** where the path leads to nothing. -/
theorem open_eq_none :
    (BaseFile.open fs path).value = .ok none ↔ fs.follow path = .error .notFound := by
  unfold BaseFile.open
  constructor
  · intro h
    split at h
    · assumption
    · exact absurd h (by simp)
    · split at h
      · exact absurd h (by simp)
      · split at h
        · exact absurd h (by simp)
        · exact absurd h (by simp)
  · intro h
    simp [h]

end BaseFile

/-! ## 2. Snapshots -/

namespace Snapshot

variable {fs : FileSystem} {path : String}

theorem take_eq_absent : take fs path = .ok .absent ↔ fs.follow path = .error .notFound := by
  rw [take, FileSystem.identity?]
  cases h : fs.follow path with
  | ok id => simp
  | error cause => cases cause <;> simp

theorem take_eq_present {identity : Identity} :
    take fs path = .ok (.present identity) ↔
      ∃ node, fs.follow path = .ok node ∧ identity = fs.identityOf node := by
  rw [take, FileSystem.identity?]
  cases h : fs.follow path with
  | ok id => simp [eq_comm]
  | error cause => cases cause <;> simp

end Snapshot

/-! ## 3. Sessions -/

namespace Session

variable {fs : FileSystem} {path : String} {mode : Mode} {config : SessionConfig}
  {session : Session}

/-- What opening answers, without the line that reports it. -/
theorem open_value : (Session.open fs path mode config).value =
    (if mode = .create then .ok none else (BaseFile.open fs path).value)
      >>= start fs path mode config := by
  by_cases hm : mode = .create
  · rw [if_pos hm, Session.open, if_pos hm]
    simp only [Logged.value_bind, Logged.value_pure]
    generalize (Except.ok none : Except Error (Option (BaseFile × Contents)))
      >>= start fs path mode config = opened
    cases opened <;> rfl
  · rw [if_neg hm, Session.open, if_neg hm]
    simp only [Logged.value_bind]
    generalize (BaseFile.open fs path).value >>= start fs path mode config = opened
    cases opened <;> rfl

theorem start_some_eq_ok {base : BaseFile} {contents : Contents} :
    start fs path mode config (some (base, contents)) = .ok session ↔
      session = ofBase path mode config base contents := by
  rw [start, Except.ok.injEq, eq_comm]

theorem start_none_eq_ok :
    start fs path mode config none = .ok session ↔
      mode ≠ .read ∧ ∃ snapshot, Snapshot.take fs path = .ok snapshot ∧
        session = ofNothing path config snapshot := by
  rw [start]
  split
  · rename_i hm
    simp [hm]
  · rename_i hm
    simp only [Fallible.map_eq_ok, ne_eq, hm, not_false_eq_true, true_and,
      @eq_comm _ (ofNothing _ _ _)]

/-- **A session loads the store at its path, or it starts a new one.** -/
theorem open_eq_ok :
    (Session.open fs path mode config).value = .ok session ↔
      (mode ≠ .create ∧ ∃ base contents,
          (BaseFile.open fs path).value = .ok (some (base, contents)) ∧
          session = ofBase path mode config base contents) ∨
        ((mode = .create ∨ mode = .write ∧ (BaseFile.open fs path).value = .ok none) ∧
          ∃ snapshot, Snapshot.take fs path = .ok snapshot ∧
            session = ofNothing path config snapshot) := by
  rw [open_value, Fallible.bind_eq_ok]
  by_cases hm : mode = .create
  · rw [if_pos hm]
    subst hm
    simp only [Except.ok.injEq, exists_eq_left', start_none_eq_ok]
    simp
  · rw [if_neg hm]
    constructor
    · rintro ⟨_ | ⟨base, contents⟩, hb, hs⟩
      · obtain ⟨hr, hs⟩ := start_none_eq_ok.mp hs
        refine Or.inr ⟨Or.inr ⟨?_, hb⟩, hs⟩
        cases mode with
        | read => exact absurd rfl hr
        | write => rfl
        | create => exact absurd rfl hm
      · exact Or.inl ⟨hm, base, contents, hb, start_some_eq_ok.mp hs⟩
    · rintro (⟨-, base, contents, hb, hs⟩ | ⟨hc | ⟨hw, hb⟩, hs⟩)
      · exact ⟨_, hb, start_some_eq_ok.mpr hs⟩
      · exact absurd hc hm
      · exact ⟨none, hb, start_none_eq_ok.mpr ⟨by simp [hw], hs⟩⟩

/-- A base file has been read whole: its size is that of its content. -/
theorem base_of_open (h : (Session.open fs path mode config).value = .ok session)
    {base : BaseFile} (hb : session.base = some base) :
    ∃ content, fs.contentOf base.node = .ok content ∧ content.length = base.size := by
  rcases open_eq_ok.mp h with ⟨-, _, contents, hopened, rfl⟩ | ⟨-, snapshot, -, rfl⟩
  · obtain ⟨node, bytes, -, hbytes, -, rfl⟩ := BaseFile.open_eq_some.mp hopened
    obtain rfl := Option.some.inj hb
    exact ⟨bytes, hbytes, (FileSystem.identityOf_size hbytes).symm⟩
  · exact absurd hb (by simp [ofNothing])

end Session
end ConstStore
