/-
# Calls on a session

A `Call` is one operation on an open session, and `Session.call` carries it out: what it answers
and the session afterwards.  A call that fails leaves the session that it was made on.  The files
may be other ones at every call, because other programs work on them in between.

* `sameSetup_call`: no call changes what a session was opened with.
* `Reachable`: the sessions that any sequence of calls leads to.
-/
import ConstStore.Proofs.Cursor
import ConstStore.Session.Basic

namespace ConstStore

/-! ## 1. Calls and their answers -/

/-- An operation on an open session. -/
inductive Call : Type 1 where
  | contains (key : Bytes)
  | find (key : Bytes)
  | fetch
  | get (key : Bytes)
  | metadata
  | last
  | size
  | info
  | add (key value : Bytes) (metadata : Option Bytes)
  | addValue {α : Type} (codec : Codec α) (key : Bytes) (value : α) (metadata : Option Bytes)
  | fetchValue {α : Type} (codec : Codec α)

/-- What a call answers. -/
def Call.Answer : Call → Type
  | contains _ | find _ => Bool
  | fetch => Except Error Bytes
  | get _ => Except Error (Option Bytes)
  | metadata => Option Bytes
  | last => Option LastLookup
  | size => Nat
  | info => Info
  | add .. | addValue .. => Except Error Bool
  | @fetchValue α _ => Except Error α

namespace Session

/-- The answer to adding, and the session afterwards, which is the old one after a failure. -/
def settle (session : Session) : Except Error (Bool × Session) → Except Error Bool × Session
  | .ok (added, next) => (.ok added, next)
  | .error error => (.error error, session)

/-- Carries out a call. -/
def call (session : Session) (fs : FileSystem) : (c : Call) → c.Answer × Session
  | .contains key => (session.contains key, session)
  | .find key => session.find key
  | .fetch => session.fetch fs
  | .get key => session.get fs key
  | .metadata => (session.metadata?, session)
  | .last => (session.last, session)
  | .size => (session.size, session)
  | .info => (session.info, session)
  | .add key value metadata => session.settle (session.add fs key value metadata).value
  | .addValue codec key value metadata =>
    session.settle (session.addValue fs codec key value metadata).value
  | .fetchValue codec => session.fetchValue fs codec

/-- The sessions that calls lead to. -/
inductive Reachable (start : Session) : Session → Prop
  | start : Reachable start start
  | call {session : Session} (fs : FileSystem) (c : Call) :
      Reachable start session → Reachable start (session.call fs c).2

end Session

/-! ## 2. What calls leave alone -/

/-- What of an open base file stays as it was opened. -/
def BaseFile.setup (base : BaseFile) : NodeId × Header × Identity :=
  (base.node, base.header, base.identity)

theorem BaseFile.setup_readRecord (base : BaseFile) (fs : FileSystem) (offset size length : Nat) :
    (base.readRecord fs offset size length).2.setup = base.setup := by
  unfold readRecord
  split
  · rfl
  · split <;> rfl

theorem BaseFile.coherent_readRecord {base : BaseFile} (h : base.cursor.Coherent)
    (fs : FileSystem) (offset size length : Nat) :
    (base.readRecord fs offset size length).2.cursor.Coherent := by
  unfold readRecord
  split
  · exact h
  · split
    · exact h
    · exact Cursor.coherent_readAt h _ _ _

namespace Session

/-- Two sessions that were opened with the same. -/
structure SameSetup (session next : Session) : Prop where
  path : next.path = session.path
  mode : next.mode = session.mode
  config : next.config = session.config
  snapshot : next.snapshot = session.snapshot
  base : next.base.map BaseFile.setup = session.base.map BaseFile.setup

theorem SameSetup.refl (session : Session) : SameSetup session session := ⟨rfl, rfl, rfl, rfl, rfl⟩

theorem SameSetup.symm {s t : Session} (h : SameSetup s t) : SameSetup t s :=
  ⟨h.path.symm, h.mode.symm, h.config.symm, h.snapshot.symm, h.base.symm⟩

theorem SameSetup.trans {s t u : Session} (h : SameSetup s t) (h' : SameSetup t u) :
    SameSetup s u :=
  ⟨h'.path.trans h.path, h'.mode.trans h.mode, h'.config.trans h.config,
    h'.snapshot.trans h.snapshot, h'.base.trans h.base⟩

/-- A base file is still there, and still of the same setup. -/
theorem SameSetup.base_eq_some {s t : Session} (h : SameSetup s t) {base : BaseFile}
    (hb : t.base = some base) : ∃ old, s.base = some old ∧ base.setup = old.setup := by
  have hbase := h.base
  rw [hb, Option.map_some] at hbase
  obtain ⟨old, hold, he⟩ := Option.map_eq_some_iff.mp hbase.symm
  exact ⟨old, hold, he.symm⟩

/-- There is a base file of the same setup before and after, or none. -/
theorem SameSetup.base_cases {s t : Session} (h : SameSetup s t) :
    (s.base = none ∧ t.base = none) ∨
      ∃ old base, s.base = some old ∧ t.base = some base ∧ base.setup = old.setup := by
  cases hb : t.base with
  | none =>
    have hbase := h.base
    rw [hb, Option.map_none, eq_comm, Option.map_eq_none_iff] at hbase
    exact Or.inl ⟨hbase, rfl⟩
  | some base =>
    obtain ⟨old, hold, hsetup⟩ := h.base_eq_some hb
    exact Or.inr ⟨old, base, hold, rfl, hsetup⟩

/-- What is known of the node of the base file stays so. -/
theorem SameSetup.forall_base {s t : Session} (h : SameSetup s t) {P : NodeId → Prop}
    (hs : ∀ base, s.base = some base → P base.node) : ∀ base, t.base = some base → P base.node := by
  intro base hb
  obtain ⟨old, hold, hsetup⟩ := h.base_eq_some hb
  have hnode : base.node = old.node := congrArg (·.1) hsetup
  exact hnode ▸ hs old hold

/-- Fetching reads from the base file or the buffer and moves the cursor there. -/
theorem sameSetup_fetch (session : Session) (fs : FileSystem) :
    SameSetup session (session.fetch fs).2 := by
  unfold fetch
  split
  · exact .refl _
  · split
    · split
      · exact .refl _
      · rename_i base hb
        refine ⟨rfl, rfl, rfl, rfl, ?_⟩
        rw [hb]
        exact congrArg some (BaseFile.setup_readRecord base fs _ _ _)
    · split <;> exact ⟨rfl, rfl, rfl, rfl, rfl⟩

/-- What adding computes.  It looks at the files where it has to make a buffer. -/
theorem add_value (session : Session) (fs : FileSystem) (key value : Bytes)
    (metadata : Option Bytes) :
    (session.add fs key value metadata).value =
      if session.mode = .read ∨ session.contains key = true then .ok (false, session)
      else match session.pending with
        | some buffer => .ok (true, session.append buffer key value metadata)
        | none => match fs.checkDirectory (Path.directory session.path) with
          | .error cause => .error (.io cause)
          | .ok () => .ok (true, session.append .empty key value metadata) := by
  by_cases hm : session.mode = .read
  · simp [add, hm, Mode.isWritable]
  have hw : session.mode.isWritable = true := by
    cases hmode : session.mode with
    | read => exact absurd hmode hm
    | write => rfl
    | create => rfl
  by_cases hc : session.contains key = true
  · simp [add, hw, hc]
  cases hp : session.pending with
  | some buffer => simp [add, hm, hw, hc, hp]
  | none =>
    cases hd : fs.checkDirectory (Path.directory session.path) <;>
      simp [add, hm, hw, hc, hp, PendingBuffer.create, hd]

/-- The two ways in which adding ends: nothing has changed, or one record is appended to the
buffer, which is made where there is none. -/
theorem add_cases (session : Session) (fs : FileSystem) (key value : Bytes)
    (metadata : Option Bytes) :
    ((session.mode = .read ∨ session.contains key = true) ∧
        (session.add fs key value metadata).value = .ok (false, session)) ∨
      ((session.mode ≠ .read ∧ session.contains key = false) ∧
        ((∃ cause, session.pending = none ∧
            fs.checkDirectory (Path.directory session.path) = .error cause ∧
            (session.add fs key value metadata).value = .error (.io cause)) ∨
          ∃ buffer, (session.pending = some buffer ∨ session.pending = none ∧
              fs.checkDirectory (Path.directory session.path) = .ok () ∧
              buffer = PendingBuffer.empty) ∧
            (session.add fs key value metadata).value
              = .ok (true, session.append buffer key value metadata))) := by
  rw [add_value]
  by_cases hno : session.mode = .read ∨ session.contains key = true
  · exact Or.inl ⟨hno, if_pos hno⟩
  rw [if_neg hno]
  obtain ⟨hm, hc⟩ := not_or.mp hno
  refine Or.inr ⟨⟨hm, Bool.eq_false_iff.mpr hc⟩, ?_⟩
  cases hp : session.pending with
  | some buffer => exact Or.inr ⟨buffer, Or.inl rfl, rfl⟩
  | none =>
    cases hd : fs.checkDirectory (Path.directory session.path) with
    | error cause => exact Or.inl ⟨cause, rfl, rfl, rfl⟩
    | ok _ => exact Or.inr ⟨.empty, Or.inr ⟨rfl, rfl, rfl⟩, rfl⟩

/-- Adding a typed value is adding its bytes. -/
theorem addValue_value {α : Type} (session : Session) (fs : FileSystem) (codec : Codec α)
    (key : Bytes) (value : α) (metadata : Option Bytes) :
    (session.addValue fs codec key value metadata).value
      = (session.add fs key (codec.encode value) metadata).value := by
  unfold addValue
  split
  · rename_i h
    rcases add_cases session fs key (codec.encode value) metadata with ⟨-, ha⟩ | ⟨⟨hm, hc⟩, -⟩
    · rw [ha]
      rfl
    · rw [hc, Bool.or_false, Bool.not_eq_true'] at h
      cases hmode : session.mode with
      | read => exact absurd hmode hm
      | write | create => rw [hmode] at h; exact absurd h (by simp [Mode.isWritable])
  · rfl

/-- Getting a value is finding its key and fetching the value. -/
theorem get_fst (session : Session) (fs : FileSystem) (key : Bytes) :
    (session.get fs key).1 = if (session.find key).1 = true
      then ((session.find key).2.fetch fs).1.map some else .ok none := by
  rw [get]
  rcases session.find key with ⟨_ | _, next⟩ <;> rfl

/-- Fetching a value is fetching the bytes and reading them. -/
theorem fetchValue_eq {α : Type} (session : Session) (fs : FileSystem) (codec : Codec α) :
    session.fetchValue fs codec = ((session.fetch fs).1 >>= codec.deserialize,
      (session.fetch fs).2) := by
  rw [fetchValue]
  rcases session.fetch fs with ⟨_ | _, _⟩ <;> rfl

theorem sameSetup_add (session : Session) (fs : FileSystem) (key value : Bytes)
    (metadata : Option Bytes) :
    SameSetup session (session.settle (session.add fs key value metadata).value).2 := by
  rcases add_cases session fs key value metadata with
    ⟨-, ha⟩ | ⟨-, ⟨cause, -, -, ha⟩ | ⟨buffer, -, ha⟩⟩
  · rw [ha]; exact .refl _
  · rw [ha]; exact .refl _
  · rw [ha]; exact ⟨rfl, rfl, rfl, rfl, rfl⟩

/-- **No call changes what a session was opened with.** -/
theorem sameSetup_call (session : Session) (fs : FileSystem) (c : Call) :
    SameSetup session (session.call fs c).2 := by
  cases c with
  | contains key | metadata | last | size | info => exact .refl _
  | find key => exact ⟨rfl, rfl, rfl, rfl, rfl⟩
  | fetch => exact sameSetup_fetch session fs
  | get key =>
    have hf : SameSetup session (session.find key).2 := ⟨rfl, rfl, rfl, rfl, rfl⟩
    simp only [call, get]
    split
    · rename_i heq
      rw [heq] at hf
      exact hf
    · rename_i heq
      rw [heq] at hf
      exact hf.trans (sameSetup_fetch _ fs)
  | add key value metadata => exact sameSetup_add session fs key value metadata
  | addValue codec key value metadata =>
    simp only [call, addValue_value]
    exact sameSetup_add session fs key _ metadata
  | fetchValue codec => exact sameSetup_fetch session fs

theorem Reachable.sameSetup {start session : Session} (h : Reachable start session) :
    SameSetup start session := by
  induction h with
  | start => exact .refl _
  | call fs c _ ih => exact ih.trans (sameSetup_call _ fs c)

end Session
end ConstStore
