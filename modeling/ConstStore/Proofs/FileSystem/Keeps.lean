/-
# What a change of the file system keeps

The operations here add nodes and change entries of directories.  None of them alters a file that
was there, and none turns a directory or a link into something else; only the nodes that some
names stand for become other ones.  `Keeps` says so, and names the places that may have changed.

* `keeps_addNode`, `keeps_setName`, `keeps_dropName`, `Keeps.updateFile`: the single changes.
* `Keeps.trans`: changes that follow each other.
* `Keeps.hop_eq`: what a hop notices of a change.
-/
import ConstStore.Proofs.FileSystem.Walk

namespace ConstStore
namespace FileSystem

/-! ## 1. Keeping -/

/-- What was there still is, except that names at the changed places may stand for other nodes. -/
structure Keeps (fs fs' : FileSystem) (changed : NodeId → String → Prop) : Prop where
  files : ∀ id file, fs.node? id = some (.file file) → fs'.node? id = some (.file file)
  kinds : ∀ id, fs'.kindOf id = fs.kindOf id
  entries : ∀ directory name, ¬ changed directory name →
    fs'.entry? directory name = fs.entry? directory name
  size : fs.nodes.size ≤ fs'.nodes.size

variable {fs fs' fs'' : FileSystem} {changed changed' : NodeId → String → Prop}

theorem Keeps.refl (fs : FileSystem) : Keeps fs fs fun _ _ => False :=
  ⟨fun _ _ h => h, fun _ => rfl, fun _ _ _ => rfl, Nat.le_refl _⟩

theorem Keeps.trans (h : Keeps fs fs' changed) (h' : Keeps fs' fs'' changed') :
    Keeps fs fs'' fun directory name => changed directory name ∨ changed' directory name where
  files := fun id file hf => h'.files id file (h.files id file hf)
  kinds := fun id => (h'.kinds id).trans (h.kinds id)
  entries := fun directory name hc =>
    (h'.entries directory name fun hc' => hc (Or.inr hc')).trans
      (h.entries directory name fun hc' => hc (Or.inl hc'))
  size := Nat.le_trans h.size h'.size

/-- A place has not changed when its name stands for the same node again. -/
theorem Keeps.narrow (h : Keeps fs fs' changed)
    (he : ∀ directory name, ¬ changed' directory name →
      fs'.entry? directory name = fs.entry? directory name) : Keeps fs fs' changed' :=
  ⟨h.files, h.kinds, he, h.size⟩

theorem Keeps.isDirectory_eq (h : Keeps fs fs' changed) (id : NodeId) :
    fs'.isDirectory id = fs.isDirectory id := by
  rw [Bool.eq_iff_iff, isDirectory_eq_true_iff, isDirectory_eq_true_iff, h.kinds]

theorem parentOf_eq (fs : FileSystem) (id : NodeId) :
    fs.parentOf id = match fs.kindOf id with
      | .directory parent => parent
      | _ => root := by
  rw [parentOf, kindOf]
  cases fs.node? id with
  | none => rfl
  | some node => cases node <;> rfl

theorem contentOf_eq_ok {id : NodeId} {bytes : Bytes} :
    fs.contentOf id = .ok bytes ↔
      ∃ file, fs.node? id = some (.file file) ∧ file.content = bytes := by
  rw [contentOf]
  cases fs.node? id with
  | none => simp
  | some node => cases node <;> simp

theorem Keeps.contentOf_eq_ok (h : Keeps fs fs' changed) {id : NodeId} {bytes : Bytes}
    (hb : fs.contentOf id = .ok bytes) : fs'.contentOf id = .ok bytes := by
  obtain ⟨file, hn, hc⟩ := FileSystem.contentOf_eq_ok.mp hb
  exact FileSystem.contentOf_eq_ok.mpr ⟨file, h.files id file hn, hc⟩

/-- A file keeps its identity. -/
theorem Keeps.identityOf_eq (h : Keeps fs fs' changed) {id : NodeId} {bytes : Bytes}
    (hb : fs.contentOf id = .ok bytes) : fs'.identityOf id = fs.identityOf id := by
  obtain ⟨file, hn, -⟩ := FileSystem.contentOf_eq_ok.mp hb
  rw [identityOf, identityOf, h.files id file hn, hn]

/-- Places that have not changed hop as before. -/
theorem Keeps.hop_eq (h : Keeps fs fs' changed) {directory : NodeId} {name : String}
    (hc : ¬ changed directory name) : fs'.hop directory name = fs.hop directory name := by
  have hto : ∀ entry, fs'.hopTo directory name entry = fs.hopTo directory name entry := by
    intro entry
    cases entry with
    | none => rfl
    | some id => rw [hopTo, hopTo, h.kinds]
  rw [hop, hop, parentOf_eq, parentOf_eq, h.kinds, h.entries directory name hc, hto]

/-! ## 2. Single changes -/

theorem node?_addNode (fs : FileSystem) (node : Node) (id : NodeId) :
    (fs.addNode node).1.node? id = if id = fs.nodes.size then some node else fs.node? id :=
  Array.getElem?_push

theorem node?_of_size_le {id : NodeId} (h : fs.nodes.size ≤ id) : fs.node? id = none :=
  Array.getElem?_eq_none h

theorem keeps_addNode (fs : FileSystem) (file : File) :
    Keeps fs (fs.addNode (.file file)).1 fun _ _ => False where
  files := by
    intro id f hf
    have hne : id ≠ fs.nodes.size := fun he => by
      rw [he, node?_of_size_le (Nat.le_refl _)] at hf
      exact absurd hf (by simp)
    rw [node?_addNode, if_neg hne, hf]
  kinds := by
    intro id
    rw [kindOf, kindOf, node?_addNode]
    by_cases he : id = fs.nodes.size
    · rw [if_pos he, node?_of_size_le (Nat.le_of_eq he.symm)]
    · rw [if_neg he]
  entries := by
    intro id name _
    unfold entry?
    rw [node?_addNode]
    by_cases he : id = fs.nodes.size
    · rw [if_pos he, node?_of_size_le (Nat.le_of_eq he.symm)]
    · rw [if_neg he]
  size := by
    rw [addNode, Array.size_push]
    exact Nat.le_succ _

/-- The nodes after the entries of a directory have been replaced. -/
theorem node?_setEntries (fs : FileSystem) (directory : NodeId)
    (change : List (String × NodeId) → List (String × NodeId)) (id : NodeId) :
    (fs.setEntries directory change).node? id = match fs.node? id with
      | some (.directory d) => some (.directory
          (if id = directory then
            { d with entries := change d.entries, modified := fs.tick.now }
          else d))
      | node => node := by
  have htick : ∀ id, fs.tick.node? id = fs.node? id := fun _ => rfl
  by_cases hd : ∃ data, fs.node? directory = some (.directory data)
  · obtain ⟨data, hd⟩ := hd
    simp only [setEntries, htick, hd]
    by_cases he : id = directory
    · have hlt : directory < fs.nodes.size := (Array.getElem?_eq_some_iff.mp hd).1
      subst he
      simp only [hd, if_true]
      exact Array.getElem?_setIfInBounds_self_of_lt hlt
    · simp only [if_neg he]
      rw [node?, setNode, Array.getElem?_setIfInBounds_ne (Ne.symm he)]
      show fs.node? id = _
      cases fs.node? id with
      | none => rfl
      | some node => cases node <;> rfl
  · have hsame : (fs.setEntries directory change).node? id = fs.node? id := by
      unfold setEntries
      simp only [htick]
      split
      · rename_i data hd'
        exact absurd ⟨data, hd'⟩ hd
      · rfl
    rw [hsame]
    cases hn : fs.node? id with
    | none => rfl
    | some node =>
      cases node with
      | file _ | link _ => rfl
      | directory data =>
        have hne : id ≠ directory := fun he => hd ⟨data, he ▸ hn⟩
        simp only [if_neg hne]

theorem kindOf_setEntries (fs : FileSystem) (directory : NodeId)
    (change : List (String × NodeId) → List (String × NodeId)) (id : NodeId) :
    (fs.setEntries directory change).kindOf id = fs.kindOf id := by
  rw [kindOf, kindOf, node?_setEntries]
  cases fs.node? id with
  | none => rfl
  | some node =>
    cases node with
    | file _ | link _ => rfl
    | directory d => by_cases he : id = directory <;> simp [he]

/-- Entries of the directory that has been changed, and of the other ones. -/
theorem entry?_setEntries (fs : FileSystem) (directory : NodeId)
    (change : List (String × NodeId) → List (String × NodeId)) (id : NodeId) (name : String) :
    FileSystem.entry? (fs.setEntries directory change) id name = match fs.node? id with
      | some (.directory d) =>
        (if id = directory then change d.entries else d.entries).lookup name
      | _ => none := by
  unfold entry?
  rw [node?_setEntries]
  cases fs.node? id with
  | none => rfl
  | some node =>
    cases node with
    | file _ | link _ => rfl
    | directory d => by_cases he : id = directory <;> simp [he]

theorem size_setEntries (fs : FileSystem) (directory : NodeId)
    (change : List (String × NodeId) → List (String × NodeId)) :
    (fs.setEntries directory change).nodes.size = fs.nodes.size := by
  simp only [setEntries]
  split
  · exact Array.size_setIfInBounds
  · rfl

/-- A change of entries that leaves the other names in their place. -/
theorem keeps_setEntries (fs : FileSystem) (directory : NodeId) (name : String)
    {change : List (String × NodeId) → List (String × NodeId)}
    (h : ∀ entries other, other ≠ name →
      (change entries).lookup other = entries.lookup other) :
    Keeps fs (fs.setEntries directory change) fun d n => d = directory ∧ n = name where
  files := by
    intro id file hf
    rw [node?_setEntries, hf]
  kinds := kindOf_setEntries fs directory change
  entries := by
    intro id other hc
    rw [entry?_setEntries, entry?]
    cases fs.node? id with
    | none => rfl
    | some node =>
      cases node with
      | file _ | link _ => rfl
      | directory d =>
        by_cases he : id = directory
        · simp only [if_pos he]
          exact h d.entries other fun hn => hc ⟨he, hn⟩
        · simp only [if_neg he]
  size := Nat.le_of_eq (size_setEntries fs directory change).symm

theorem lookup_without_self (name : String) (entries : List (String × NodeId)) :
    (without name entries).lookup name = none := by
  rw [List.lookup_eq_none_iff]
  intro p hp
  have hne := (List.mem_filter.mp hp).2
  simp only [ne_eq, decide_not, Bool.not_eq_true', decide_eq_false_iff_not] at hne
  exact bne_iff_ne.mpr (Ne.symm hne)

theorem lookup_without_ne {name other : String} (h : other ≠ name)
    (entries : List (String × NodeId)) :
    (without name entries).lookup other = entries.lookup other := by
  induction entries with
  | nil => rfl
  | cons p entries ih =>
    obtain ⟨n, id⟩ := p
    rw [without, List.filter_cons]
    by_cases hn : n = name
    · have hother : (other == n) = false := beq_false_of_ne (hn ▸ h)
      rw [if_neg (by simp [hn]), List.lookup_cons, hother]
      exact ih
    · rw [if_pos (by simp [hn]), List.lookup_cons, List.lookup_cons]
      cases other == n with
      | true => rfl
      | false => exact ih

theorem keeps_dropName (fs : FileSystem) (directory : NodeId) (name : String) :
    Keeps fs (fs.dropName directory name) fun d n => d = directory ∧ n = name :=
  keeps_setEntries fs directory name fun entries _ h => lookup_without_ne h entries

theorem entry?_dropName_self (fs : FileSystem) (directory : NodeId) (name : String) :
    FileSystem.entry? (fs.dropName directory name) directory name = none := by
  rw [dropName, entry?_setEntries]
  cases fs.node? directory with
  | none => rfl
  | some node =>
    cases node with
    | file _ | link _ => rfl
    | directory d =>
      simp only [if_true]
      exact lookup_without_self name d.entries

theorem keeps_setName (fs : FileSystem) (directory : NodeId) (name : String) (id : NodeId) :
    Keeps fs (fs.setName directory name id) fun d n => d = directory ∧ n = name := by
  refine keeps_setEntries fs directory name fun entries other h => ?_
  rw [List.lookup_append, lookup_without_ne h, List.lookup_cons, beq_false_of_ne h]
  exact Option.or_none

theorem entry?_setName_self {directory : NodeId} (h : fs.isDirectory directory = true)
    (name : String) (id : NodeId) :
    FileSystem.entry? (fs.setName directory name id) directory name = some id := by
  rw [setName, entry?_setEntries]
  rw [isDirectory] at h
  cases hn : fs.node? directory with
  | none => exact absurd h (by simp [hn])
  | some node =>
    cases node with
    | file _ | link _ => exact absurd h (by simp [hn])
    | directory d =>
      simp only [if_true, List.lookup_append, lookup_without_self, List.lookup_cons_self]
      rfl

theorem node?_updateFile_self {id : NodeId} {file : File} (h : fs.node? id = some (.file file))
    (change : File → File) : (fs.updateFile id change).node? id = some (.file (change file)) := by
  simp only [FileSystem.updateFile, h]
  exact Array.getElem?_setIfInBounds_self_of_lt (Array.getElem?_eq_some_iff.mp h).1

theorem node?_updateFile_ne {id : NodeId} (change : File → File) {other : NodeId}
    (h : other ≠ id) : (fs.updateFile id change).node? other = fs.node? other := by
  unfold updateFile
  split
  · exact Array.getElem?_setIfInBounds_ne (Ne.symm h)
  · rfl

theorem entry?_updateFile (fs : FileSystem) (id : NodeId) (change : File → File)
    (directory : NodeId) (name : String) :
    FileSystem.entry? (fs.updateFile id change) directory name = fs.entry? directory name := by
  unfold updateFile
  split
  · rename_i file hn
    unfold entry?
    by_cases he : directory = id
    · rw [he, hn, node?, setNode, Array.getElem?_setIfInBounds_self_of_lt
        (Array.getElem?_eq_some_iff.mp hn).1]
    · rw [node?, setNode, Array.getElem?_setIfInBounds_ne (Ne.symm he)]
      rfl
  · rfl

/-- A node that was not there before can be written. -/
theorem Keeps.updateFile (h : Keeps fs fs' changed) {id : NodeId} (hid : fs.nodes.size ≤ id)
    {file : File} (hn : fs'.node? id = some (.file file)) (change : File → File) :
    Keeps fs (fs'.updateFile id change) changed := by
  have hself := node?_updateFile_self hn change
  refine ⟨fun other f hf => ?_, fun other => ?_, fun other name hc => ?_, ?_⟩
  · have hne : other ≠ id := fun he => by
      rw [he, node?_of_size_le hid] at hf
      exact absurd hf (by simp)
    rw [node?_updateFile_ne change hne, h.files other f hf]
  · rw [← h.kinds other, kindOf, kindOf]
    by_cases he : other = id
    · rw [he, hself, hn]
    · rw [node?_updateFile_ne change he]
  · rw [entry?_updateFile, h.entries other name hc]
  · refine Nat.le_trans h.size (Nat.le_of_eq ?_)
    simp only [FileSystem.updateFile, hn, setNode, Array.size_setIfInBounds]

end FileSystem
end ConstStore
