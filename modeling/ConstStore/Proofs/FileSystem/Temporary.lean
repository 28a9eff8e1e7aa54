/-
# Temporary files

A temporary file gets a name that is free in its directory and that nobody comes across on the
way to the path which is worked on.  So it can be made wherever its first name could be, and
nothing that happens to its name changes what the path leads to.

* `createTemporary_of_locate`, `createTemporary_eq_ok`: when a temporary file can be made.
* `rename_eq`, `rename_of_file`: when it can be moved to another name.
* `keeps_moveName`: what moving it changes.
-/
import ConstStore.Proofs.FileSystem.Keeps
import Mathlib.Data.List.Nodup
import Mathlib.Data.List.Perm.Subperm

namespace ConstStore
namespace FileSystem

variable {fs fs' : FileSystem} {changed : NodeId → String → Prop} {path : String}

/-! ## 1. Fresh names -/

theorem length_temporarySuffix (n : Nat) : (temporarySuffix n).toList.length = 6 + n := by
  rw [temporarySuffix, String.toList_ofList, List.length_replicate]

/-- The names tried for a temporary file differ in their length. -/
theorem append_temporarySuffix_inj {start : String} {m n : Nat}
    (h : start ++ temporarySuffix m = start ++ temporarySuffix n) : m = n := by
  have hlen := congrArg (fun name => name.toList.length) h
  simp only [String.toList_append, List.length_append, length_temporarySuffix] at hlen
  omega

/-- **There is a fresh name**: more names are tried than are known. -/
theorem exists_freshName (fs : FileSystem) (directory : NodeId) (start path : String) :
    ∃ name, fs.freshName? directory start path = some name := by
  rw [← Option.isSome_iff_exists, freshName?, Option.isSome_iff_ne_none]
  intro hnone
  rw [List.find?_eq_none] at hnone
  have hsub : (List.range ((fs.namesIn directory ++ fs.namesOn path).length + 1)).map
      (fun n => start ++ temporarySuffix n) ⊆ fs.namesIn directory ++ fs.namesOn path := by
    intro name hname
    have hmem := hnone name hname
    rw [Bool.not_eq_true, decide_eq_false_iff_not, not_not] at hmem
    exact hmem
  have hnodup : ((List.range ((fs.namesIn directory ++ fs.namesOn path).length + 1)).map
      (fun n => start ++ temporarySuffix n)).Nodup :=
    List.Nodup.map (fun _ _ h => append_temporarySuffix_inj h) List.nodup_range
  have hle := (hnodup.subperm hsub).length_le
  rw [List.length_map, List.length_range] at hle
  omega

theorem not_mem_of_freshName {directory : NodeId} {start name : String}
    (h : fs.freshName? directory start path = some name) :
    name ∉ fs.namesIn directory ∧ name ∉ fs.namesOn path := by
  have hp := List.find?_some h
  simpa using hp

theorem entry?_eq_none {directory : NodeId} {name : String} (h : name ∉ fs.namesIn directory) :
    fs.entry? directory name = none := by
  unfold namesIn at h
  unfold entry?
  split
  · rename_i d hd
    simp only [hd] at h
    rw [List.lookup_eq_none_iff]
    intro p hp
    exact bne_iff_ne.mpr fun he => h (List.mem_map.mpr ⟨p, hp, he.symm⟩)
  · rfl

/-! ## 2. Making one -/

/-- A temporary file has been made, under a name hidden from a path. -/
structure MadeTemporary (fs : FileSystem) (path : String) (fs' : FileSystem)
    (temporary : Location) (node : NodeId) : Prop where
  new : node = fs.nodes.size
  keeps : Keeps fs fs' fun d n => d = temporary.directory ∧ n = temporary.name
  file : ∃ file, fs'.node? node = some (.file file)
  entry : fs.isDirectory temporary.directory = true →
    fs'.entry? temporary.directory temporary.name = some node
  free : fs.entry? temporary.directory temporary.name = none
  hidden : temporary.name ∉ fs.namesOn path
  size : fs'.nodes.size = fs.nodes.size + 1

variable {above start : String}

/-- What comes out where the first name could be. -/
theorem createTemporary_of_locate (path : String) {beginning : Location}
    (h : fs.locate (Path.child above (start ++ temporarySuffix 0)) = .ok beginning) :
    ∃ fs' name, fs.createTemporary above start path
        = .ok (fs', ⟨beginning.directory, name, false⟩, fs.nodes.size) ∧
      MadeTemporary fs path fs' ⟨beginning.directory, name, false⟩ fs.nodes.size := by
  obtain ⟨name, hname⟩ := exists_freshName fs beginning.directory
    ((Path.components start).getLast?.getD "") path
  obtain ⟨hfree, hhidden⟩ := not_mem_of_freshName hname
  refine ⟨(fs.addNode (.file ⟨[], 0o600, fs.now⟩)).1.setName beginning.directory name
    fs.nodes.size, name, ?_, ?_⟩
  · simp only [createTemporary, h, bind, Except.bind, hname]
    rfl
  have hadd := keeps_addNode fs ⟨[], 0o600, fs.now⟩
  have hset := keeps_setName (fs.addNode (.file ⟨[], 0o600, fs.now⟩)).1 beginning.directory name
    fs.nodes.size
  have hnode : (fs.addNode (.file ⟨[], 0o600, fs.now⟩)).1.node? fs.nodes.size
      = some (.file ⟨[], 0o600, fs.now⟩) := by
    rw [node?_addNode, if_pos rfl]
  exact {
    new := rfl
    keeps := (hadd.trans hset).narrow fun d n hc =>
      (hset.entries d n hc).trans (hadd.entries d n not_false)
    file := ⟨_, hset.files _ _ hnode⟩
    entry := fun hdir => entry?_setName_self ((hadd.isDirectory_eq _).trans hdir) name _
    free := entry?_eq_none hfree
    hidden := hhidden
    size := by rw [setName, size_setEntries, addNode, Array.size_push] }

/-- **A temporary file that has been made is new.** -/
theorem createTemporary_eq_ok {temporary : Location} {node : NodeId}
    (h : fs.createTemporary above start path = .ok (fs', temporary, node)) :
    (∃ beginning, fs.locate (Path.child above (start ++ temporarySuffix 0)) = .ok beginning ∧
      temporary.directory = beginning.directory) ∧
    MadeTemporary fs path fs' temporary node := by
  obtain ⟨beginning, hb, -⟩ := Fallible.bind_eq_ok.mp h
  obtain ⟨fs₁, name, hok, hmade⟩ := createTemporary_of_locate path hb
  rw [h, Except.ok.injEq, Prod.mk.injEq, Prod.mk.injEq] at hok
  obtain ⟨rfl, rfl, rfl⟩ := hok
  exact ⟨⟨beginning, hb, rfl⟩, hmade⟩

/-- Making it alters no node but the directory that it is in. -/
theorem node?_createTemporary {temporary : Location} {node : NodeId}
    (h : fs.createTemporary above start path = .ok (fs', temporary, node)) {id : NodeId}
    (hlt : id < fs.nodes.size) (hne : id ≠ temporary.directory) : fs'.node? id = fs.node? id := by
  obtain ⟨beginning, -, h⟩ := Fallible.bind_eq_ok.mp h
  dsimp only at h
  split at h
  · exact absurd h Fallible.throw_ne_ok
  · rename_i name hname
    have h := Fallible.pure_eq_ok.mp h
    simp only [Prod.mk.injEq] at h
    obtain ⟨rfl, rfl, rfl⟩ := h
    rw [setName, node?_setEntries, node?_addNode, if_neg (Nat.ne_of_lt hlt)]
    simp only [if_neg hne]
    cases fs.node? id with
    | none => rfl
    | some node => cases node <;> rfl

/-! ## 3. Moving it -/

/-- A name given up for another one. -/
def moveName (fs : FileSystem) (source target : Location) (id : NodeId) : FileSystem :=
  (fs.dropName source.directory source.name).setName target.directory target.name id

variable {source target : Location} {id : NodeId} {file : File}

theorem keeps_moveName (fs : FileSystem) (source target : Location) (id : NodeId) :
    Keeps fs (fs.moveName source target id) fun d n =>
      (d = source.directory ∧ n = source.name) ∨ (d = target.directory ∧ n = target.name) :=
  (keeps_dropName fs source.directory source.name).trans
    (keeps_setName _ target.directory target.name id)

theorem entry?_moveName_target (h : fs.isDirectory target.directory = true) :
    FileSystem.entry? (fs.moveName source target id) target.directory target.name = some id :=
  entry?_setName_self (((keeps_dropName fs _ _).isDirectory_eq _).trans h) _ _

theorem entry?_moveName_source
    (h : ¬ (source.directory = target.directory ∧ source.name = target.name)) :
    FileSystem.entry? (fs.moveName source target id) source.directory source.name = none :=
  ((keeps_setName _ target.directory target.name id).entries _ _ h).trans
    (entry?_dropName_self fs _ _)

/-- A file replaces everything but directories. -/
theorem mayReplace_of_file (hf : fs.node? id = some (.file file)) (old : NodeId) :
    fs.mayReplace id old = if fs.isDirectory old then .error .isDirectory else .ok () := by
  have hdir : fs.isDirectory id = false := by rw [isDirectory, hf]
  rw [mayReplace, isDirectory.eq_def fs old]
  cases fs.node? old with
  | none => simp [hdir, Fallible.guard]
  | some node => cases node <;> simp [hdir, Fallible.guard]

/-- Moving a file, step by step. -/
theorem rename_eq (hs : fs.entry? source.directory source.name = some id)
    (hf : fs.node? id = some (.file file)) :
    fs.rename source target =
      if target.slash then .error .notDirectory
      else match fs.entry? target.directory target.name with
        | none => .ok (fs.moveName source target id)
        | some old =>
          if old = id then .ok fs
          else if fs.isDirectory old then .error .isDirectory
          else .ok (fs.moveName source target id) := by
  have hdir : fs.isDirectory id = false := by rw [isDirectory, hf]
  have hparent : (fs.moveName source target id).setParent id target.directory
      = fs.moveName source target id := by
    rw [setParent, (keeps_moveName fs source target id).files id file hf]
  simp only [rename, hs, Fallible.require, bind, Except.bind, hdir, Bool.false_eq_true, or_false]
  cases hslash : target.slash with
  | true => rfl
  | false =>
    simp only [Fallible.guard, if_true, Bool.false_eq_true, if_false]
    cases hold : fs.entry? target.directory target.name with
    | none => exact congrArg Except.ok hparent
    | some old =>
      dsimp only
      by_cases he : old = id
      · rw [if_pos he, if_pos he]
        rfl
      rw [if_neg he, if_neg he]
      rw [mayReplace_of_file hf]
      by_cases hd : fs.isDirectory old = true
      · rw [if_pos hd, if_pos hd]
      · rw [if_neg hd, if_neg hd]
        exact congrArg Except.ok hparent

/-- **A file can be moved** to a name that does not stand for a directory or for itself. -/
theorem rename_of_file (hs : fs.entry? source.directory source.name = some id)
    (hf : fs.node? id = some (.file file)) (hslash : target.slash = false)
    (hold : ∀ old, fs.entry? target.directory target.name = some old →
      old ≠ id ∧ fs.isDirectory old = false) :
    fs.rename source target = .ok (fs.moveName source target id) := by
  rw [rename_eq hs hf, hslash]
  cases he : fs.entry? target.directory target.name with
  | none => rfl
  | some old =>
    obtain ⟨hne, hdir⟩ := hold old he
    simp [hne, hdir]

end FileSystem
end ConstStore
