/-
# The place of a path

A path ends in a name in a directory, its place.  What the path leads to is decided by what the
name stands for, and a name that leads to a file or to nothing is passed by no walk that goes on.
So when a new file takes that name, every walk to a directory stays as it was, and the path leads
to the new file.

* `locate_eq_ok`: what locating a path tells about the path.
* `impassable_of_follow`: the place of a path to a file or to nothing is impassable.
* `Keeps.follow_of_hidden`: a change of names that a path does not come across is not noticed.
* `walk_of_hops`: walks to directories survive a change at an impassable place.
* `follow_of_entry`: the path leads to the file that its name stands for.
-/
import ConstStore.Proofs.FileSystem.Keeps

namespace ConstStore
namespace FileSystem

variable {fs fs' : FileSystem} {changed : NodeId → String → Prop} {path : String}
  {place : Location}

/-! ## 1. Locating -/

/-- The empty components at the end of a path. -/
theorem exists_slashes (parts : List String) :
    ∃ slashes, parts = (parts.reverse.dropWhile (· = "")).reverse ++ slashes ∧
      ((parts.reverse.dropWhile (· = "")).reverse.length < parts.length ↔ slashes ≠ []) := by
  refine ⟨(parts.reverse.takeWhile (· = "")).reverse, ?_, ?_⟩
  · rw [← List.reverse_append, List.takeWhile_append_dropWhile, List.reverse_reverse]
  · have hlen := congrArg List.length
      (List.takeWhile_append_dropWhile (p := fun part => decide (part = "")) (l := parts.reverse))
    rw [List.length_append, List.length_reverse] at hlen
    rw [List.length_reverse, ne_eq, List.reverse_eq_nil_iff, ← List.length_eq_zero_iff]
    omega

/-- The last component that is not empty. -/
theorem getLast?_trimmed_ne {parts : List String} {name : String}
    (h : (parts.reverse.dropWhile (· = "")).reverse.getLast? = some name) : name ≠ "" := by
  rw [List.getLast?_reverse] at h
  have hnot := List.head?_dropWhile_not (fun part => decide (part = "")) parts.reverse
  rw [h] at hnot
  simpa using hnot

/-- **A path that can be located** goes down to the directory and ends in the name. -/
theorem locate_eq_ok (h : fs.locate path = .ok place) :
    ∃ above slashes, checkPath path = .ok () ∧
      Path.components path = above ++ place.name :: slashes ∧
      (place.slash = false → slashes = []) ∧ Plain place.name ∧
      fs.walk maxLinks root above = .ok (.node place.directory) ∧
      fs.isDirectory place.directory = true := by
  obtain ⟨_, hcheck, h⟩ := Fallible.bind_eq_ok.mp h
  obtain ⟨slashes, hparts, hslash⟩ := exists_slashes (Path.components path)
  dsimp only at h
  split at h
  · exact absurd h Fallible.throw_ne_ok
  · rename_i name hname
    obtain ⟨_, hplain, h⟩ := Fallible.bind_eq_ok.mp h
    obtain ⟨_, hlength, h⟩ := Fallible.bind_eq_ok.mp h
    obtain ⟨target, hwalk, h⟩ := Fallible.bind_eq_ok.mp h
    split at h
    · exact absurd h Fallible.throw_ne_ok
    · rename_i id
      split at h
      · rename_i d hd
        obtain rfl := Fallible.pure_eq_ok.mp h
        have hplain := Fallible.guard_eq_ok.mp hplain
        have hempty := getLast?_trimmed_ne hname
        refine ⟨_, slashes, hcheck, ?_, ?_, ⟨?_, hplain.2, Fallible.guard_eq_ok.mp hlength⟩,
          hwalk, ?_⟩
        · obtain ⟨above, habove⟩ := List.getLast?_eq_some_iff.mp hname
          rw [habove] at hparts ⊢
          rw [List.dropLast_concat, hparts, List.append_assoc]
          rfl
        · intro hs
          by_cases hne : slashes = []
          · exact hne
          · exact absurd (hslash.mpr hne) (of_decide_eq_false hs)
        · simp [Path.isIdle, hempty, hplain.1]
        · rw [isDirectory, hd]
      · exact absurd h Fallible.throw_ne_ok

/-- Locating depends on the walk to the directory only. -/
theorem locate_of_walk (h : fs.locate path = .ok place)
    (hwalk : ∀ above id, (∀ part ∈ above, part ∈ Path.components path) →
      fs.walk maxLinks root above = .ok (.node id) → fs.isDirectory id = true →
      fs'.walk maxLinks root above = .ok (.node id) ∧ fs'.isDirectory id = true) :
    fs'.locate path = .ok place := by
  obtain ⟨_, hcheck, h⟩ := Fallible.bind_eq_ok.mp h
  refine Fallible.bind_eq_ok.mpr ⟨_, hcheck, ?_⟩
  obtain ⟨slashes, hparts, -⟩ := exists_slashes (Path.components path)
  have hmem : ∀ part ∈ ((Path.components path).reverse.dropWhile (· = "")).reverse.dropLast,
      part ∈ Path.components path := by
    intro part hp
    rw [hparts]
    exact List.mem_append_left _ ((List.dropLast_sublist _).subset hp)
  dsimp only at h ⊢
  split at h
  · exact absurd h Fallible.throw_ne_ok
  · rename_i name hname
    obtain ⟨_, hplain, h⟩ := Fallible.bind_eq_ok.mp h
    obtain ⟨_, hlength, h⟩ := Fallible.bind_eq_ok.mp h
    obtain ⟨target, htarget, h⟩ := Fallible.bind_eq_ok.mp h
    refine Fallible.bind_eq_ok.mpr ⟨_, hplain, Fallible.bind_eq_ok.mpr ⟨_, hlength, ?_⟩⟩
    split at h
    · exact absurd h Fallible.throw_ne_ok
    · rename_i id
      split at h
      · rename_i d hd
        obtain ⟨hwalk', hdir⟩ := hwalk _ id hmem htarget (by rw [isDirectory, hd])
        refine Fallible.bind_eq_ok.mpr ⟨_, hwalk', ?_⟩
        unfold isDirectory at hdir
        split at hdir
        · rename_i d' hd'
          dsimp only
          rw [hd']
          exact h
        · exact absurd hdir (by simp)
      · exact absurd h Fallible.throw_ne_ok

/-! ## 2. Following -/

theorem follow_eq_ok {id : NodeId} :
    fs.follow path = .ok id ↔ checkPath path = .ok () ∧
      fs.walk maxLinks root (Path.components path) = .ok (.node id) := by
  simp only [follow, target, Fallible.bind_eq_ok]
  constructor
  · rintro ⟨target, ⟨_, hcheck, hwalk⟩, h⟩
    cases target with
    | node id' =>
      obtain rfl := Fallible.pure_eq_ok.mp h
      exact ⟨hcheck, hwalk⟩
    | free _ _ => exact absurd h Fallible.throw_ne_ok
  · rintro ⟨hcheck, hwalk⟩
    exact ⟨.node id, ⟨(), hcheck, hwalk⟩, rfl⟩

/-- Following depends on the walk only. -/
theorem follow_of_walk (h : fs'.walk maxLinks root (Path.components path)
    = fs.walk maxLinks root (Path.components path)) : fs'.follow path = fs.follow path := by
  simp only [follow, target, h]

/-- A path whose walk fails cannot be followed. -/
theorem follow_of_walk_error {cause : IoError} (hcheck : checkPath path = .ok ())
    (h : fs.walk maxLinks root (Path.components path) = .error cause) :
    fs.follow path = .error cause := by
  simp only [follow, target, hcheck, h, bind, Except.bind]

/-- **The walk along a located path ends with its name.** -/
theorem exists_walk_of_locate (h : fs.locate path = .ok place) (hslash : place.slash = false) :
    ∃ above links, checkPath path = .ok () ∧ Plain place.name ∧
      Path.components path = above ++ [place.name] ∧
      Trail fs links root above place.directory ∧ links ≤ maxLinks := by
  obtain ⟨above, slashes, hcheck, hparts, hs, hplain, hwalk, hdir⟩ := locate_eq_ok h
  obtain ⟨links, hle, htrail⟩ := trail_of_walk hdir _ _ _ hwalk
  rw [hs hslash] at hparts
  exact ⟨above, links, hcheck, hplain, hparts, htrail, hle⟩

/-- **The path leads to the file that its name stands for.** -/
theorem follow_of_entry (h : fs.locate path = .ok place) (hslash : place.slash = false)
    {id : NodeId} (he : fs.entry? place.directory place.name = some id)
    (hk : fs.kindOf id = .leaf) : fs.follow path = .ok id := by
  obtain ⟨above, links, hcheck, hplain, hparts, htrail, hle⟩ := exists_walk_of_locate h hslash
  rw [follow_eq_ok, hparts, walk_append_of_trail htrail maxLinks _ hle, walk_cons,
    hop_of_plain hplain, he, hopTo, hk]
  exact ⟨hcheck, rfl⟩

/-! ## 3. Changes under hidden names -/

theorem mem_namesOn_of_link {id : NodeId} {target part : String}
    (hk : fs.kindOf id = .link target) (hp : part ∈ Path.components target) (path : String) :
    part ∈ fs.namesOn path := by
  have hn : fs.node? id = some (.link target) := by
    rw [kindOf] at hk
    split at hk
    · exact absurd hk (by simp)
    · rename_i target' hn
      rw [hn, Kind.link.inj hk]
    · exact absurd hk (by simp)
  refine List.mem_append_right _ (List.mem_flatMap.mpr ⟨.link target, ?_, hp⟩)
  exact Array.mem_toList_iff.mpr (Array.mem_of_getElem? hn)

/-- A jump starts at the root or where it is made, and leads to the components of a link. -/
theorem jump_cases {directory next : NodeId} {name : String} {parts : List String}
    (h : fs.hop directory name = .jump next parts) :
    (next = FileSystem.root ∨ next = directory) ∧
      ∃ id target, fs.kindOf id = .link target ∧ parts = Path.components target := by
  unfold hop at h
  split at h
  · exact absurd h (by simp)
  split at h
  · exact absurd h (by simp)
  split at h
  · exact absurd h (by simp)
  cases he : fs.entry? directory name with
  | none => simp [he, hopTo] at h
  | some id =>
    cases hk : fs.kindOf id with
    | leaf => simp [he, hopTo, hk] at h
    | directory parent => simp [he, hopTo, hk] at h
    | link target =>
      simp only [he, hopTo, hk, Hop.jump.injEq] at h
      refine ⟨?_, id, target, hk, h.2.symm⟩
      rw [← h.1]
      by_cases ha : Path.isAbsolute target = true
      · exact Or.inl (if_pos ha)
      · exact Or.inr (if_neg ha)

/-- **Changes under names that are not on a path are invisible from it.** -/
theorem Keeps.walk_of_hidden (h : Keeps fs fs' changed)
    (hc : ∀ directory name, changed directory name → name ∉ fs.namesOn path) (links : Nat)
    (directory : NodeId) {parts : List String}
    (hparts : ∀ part ∈ parts, part ∈ Path.components path) :
    fs'.walk links directory parts = fs.walk links directory parts := by
  refine walk_congr (· ∈ fs.namesOn path) ?_ ?_ links directory parts
    fun part hp => List.mem_append_left _ (hparts part hp)
  · intro directory name hname
    exact h.hop_eq fun hchanged => hc directory name hchanged hname
  · intro directory name next parts hjump part hp
    obtain ⟨-, id, target, hk, rfl⟩ := jump_cases hjump
    exact mem_namesOn_of_link hk hp path

theorem Keeps.follow_of_hidden (h : Keeps fs fs' changed)
    (hc : ∀ directory name, changed directory name → name ∉ fs.namesOn path) :
    fs'.follow path = fs.follow path :=
  follow_of_walk (h.walk_of_hidden hc _ _ fun _ hp => hp)

theorem Keeps.locate_of_hidden (h : Keeps fs fs' changed)
    (hc : ∀ directory name, changed directory name → name ∉ fs.namesOn path) :
    fs'.locate path = .ok place ↔ fs.locate path = .ok place := by
  constructor
  · intro hl
    refine locate_of_walk hl fun above id habove hwalk hdir => ⟨?_, ?_⟩
    · rw [← h.walk_of_hidden hc maxLinks root habove, hwalk]
    · rw [← h.isDirectory_eq, hdir]
  · intro hl
    refine locate_of_walk hl fun above id habove hwalk hdir => ⟨?_, ?_⟩
    · rw [h.walk_of_hidden hc maxLinks root habove, hwalk]
    · rw [h.isDirectory_eq, hdir]

/-! ## 4. Changes at the place of a path -/

/-- Directories lie in directories, and names stand for nodes that there are. -/
structure Grounded (fs : FileSystem) : Prop where
  root : fs.isDirectory root = true
  parent : ∀ id, fs.isDirectory (fs.parentOf id) = true
  entry : ∀ directory name id, fs.entry? directory name = some id → id < fs.nodes.size

theorem grounded_empty : Grounded empty where
  root := rfl
  parent := by
    intro id
    cases id <;> rfl
  entry := by
    intro directory name id h
    cases directory <;> exact absurd h (by simp [FileSystem.entry?, node?, empty])

/-- A node refers to directories and to nodes that there are. -/
def groundedNode (fs : FileSystem) : Node → Bool
  | .directory d =>
    fs.isDirectory d.parent && d.entries.all fun entry => decide (entry.2 < fs.nodes.size)
  | _ => true

/-- It is enough to look at every node. -/
theorem grounded_of_nodes (hroot : fs.isDirectory FileSystem.root = true)
    (h : fs.nodes.toList.all fs.groundedNode = true) : Grounded fs := by
  have hnode : ∀ {id d}, fs.node? id = some (.directory d) →
      fs.isDirectory d.parent = true ∧ ∀ entry ∈ d.entries, entry.2 < fs.nodes.size := by
    intro id d hd
    have hmem : Node.directory d ∈ fs.nodes.toList :=
      Array.mem_toList_iff.mpr (Array.mem_of_getElem? hd)
    simpa [groundedNode] using List.all_eq_true.mp h _ hmem
  refine ⟨hroot, fun id => ?_, fun directory name id he => ?_⟩
  · unfold parentOf
    split
    · rename_i d hd
      exact (hnode hd).1
    · exact hroot
  · unfold entry? at he
    split at he
    · rename_i d hd
      obtain ⟨front, back, hsplit, -⟩ := List.lookup_eq_some_iff.mp he
      exact (hnode hd).2 (name, id) (by simp [hsplit])
    · exact absurd he (by simp)

theorem Keeps.grounded (h : Keeps fs fs' changed) (hg : Grounded fs)
    (he : ∀ directory name id, changed directory name →
      fs'.entry? directory name = some id → id < fs'.nodes.size) : Grounded fs' where
  root := (h.isDirectory_eq _).trans hg.root
  parent := by
    intro id
    rw [h.isDirectory_eq, parentOf_eq, h.kinds, ← parentOf_eq]
    exact hg.parent id
  entry := by
    intro directory name id hentry
    by_cases hc : changed directory name
    · exact he directory name id hc hentry
    · rw [h.entries directory name hc] at hentry
      exact Nat.lt_of_lt_of_le (hg.entry directory name id hentry) h.size

/-- Going on in a directory leads to a directory. -/
theorem isDirectory_of_down (hg : Grounded fs) {directory next : NodeId} {name : String}
    (hd : fs.isDirectory directory = true) (h : fs.hop directory name = .down next) :
    fs.isDirectory next = true := by
  unfold hop at h
  split at h
  · rw [← Hop.down.inj h]
    exact hd
  split at h
  · rw [← Hop.down.inj h]
    exact hg.parent directory
  split at h
  · exact absurd h (by simp)
  cases he : fs.entry? directory name with
  | none => simp [he, hopTo] at h
  | some id =>
    cases hk : fs.kindOf id with
    | leaf => simp [he, hopTo, hk] at h
    | link target => simp [he, hopTo, hk] at h
    | directory parent =>
      simp only [he, hopTo, hk, Hop.down.injEq] at h
      exact isDirectory_eq_true_iff.mpr ⟨parent, h ▸ hk⟩

theorem isDirectory_of_jump (hg : Grounded fs) {directory next : NodeId} {name : String}
    {parts : List String} (hd : fs.isDirectory directory = true)
    (h : fs.hop directory name = .jump next parts) : fs.isDirectory next = true := by
  rcases (jump_cases h).1 with rfl | rfl
  · exact hg.root
  · exact hd

/-- A trail from a directory ends in a directory. -/
theorem Trail.isDirectory {links : Nat} {directory last : NodeId} {parts : List String}
    (h : Trail fs links directory parts last) (hg : Grounded fs)
    (hd : fs.isDirectory directory = true) : fs.isDirectory last = true := by
  induction h with
  | nil => exact hd
  | down hhop _ ih => exact ih (isDirectory_of_down hg hd hhop)
  | jump hhop _ ih => exact ih (isDirectory_of_jump hg hd hhop)

theorem lt_size_of_isDirectory {id : NodeId} (h : fs.isDirectory id = true) :
    id < fs.nodes.size := by
  refine Nat.lt_of_not_le fun hle => ?_
  rw [FileSystem.isDirectory, node?_of_size_le hle] at h
  exact absurd h (by simp)

/-- A leaf that is there is a file. -/
theorem exists_contentOf {id : NodeId} (hk : fs.kindOf id = .leaf) (hlt : id < fs.nodes.size) :
    ∃ bytes, fs.contentOf id = .ok bytes := by
  rw [kindOf] at hk
  rw [contentOf]
  cases hn : fs.node? id with
  | none => exact absurd (Array.getElem?_eq_none_iff.mp hn) (Nat.not_le.mpr hlt)
  | some node =>
    cases node with
    | file file => exact ⟨_, rfl⟩
    | directory d => simp [hn] at hk
    | link target => simp [hn] at hk

/-- **A path leads to a directory or to a file.** -/
theorem follow_cases (hg : Grounded fs) {id : NodeId} (h : fs.follow path = .ok id) :
    fs.isDirectory id = true ∨ ∃ bytes, fs.contentOf id = .ok bytes := by
  have hwalk : ∀ limit directory parts, fs.isDirectory directory = true →
      fs.walk limit directory parts = .ok (.node id) →
      fs.isDirectory id = true ∨ ∃ bytes, fs.contentOf id = .ok bytes := by
    refine walk_induction fs ?_ ?_ ?_ ?_ ?_
    · intro limit directory hd h
      rw [walk_nil, Except.ok.injEq, Target.node.injEq] at h
      exact Or.inl (h ▸ hd)
    · intro limit directory name rest next hhop ih hd h
      rw [walk_cons, hhop] at h
      exact ih (isDirectory_of_down hg hd hhop) h
    · intro limit directory name rest next parts hhop ih hd h
      rw [walk_cons, hhop] at h
      exact ih (isDirectory_of_jump hg hd hhop) h
    · intro directory name rest next parts hhop _ h
      rw [walk_cons, hhop] at h
      exact absurd h (by simp)
    · intro limit directory name rest last error hhop _ h
      rw [walk_cons, hhop] at h
      cases hr : rest.isEmpty with
      | false => simp [hr] at h
      | true =>
        simp only [hr, if_true] at h
        obtain ⟨hentry, hk⟩ := entry_of_leaf (h ▸ hhop)
        exact Or.inr (exists_contentOf hk (hg.entry _ _ _ hentry))
  exact hwalk _ _ _ hg.root (follow_eq_ok.mp h).2

/-- **The place of a path is impassable** when the path leads to a file or to nothing: a trail
through it would lead the path to a directory. -/
theorem impassable_of_follow (hg : Grounded fs) (hl : fs.locate path = .ok place)
    (hslash : place.slash = false) (hfile : ∀ id, fs.follow path = .ok id →
      fs.isDirectory id = false) (hlinks : fs.follow path ≠ .error .tooManyLinks) :
    Impassable fs place.directory place.name := by
  intro links rest last htrail
  obtain ⟨links', middle, hname⟩ := htrail.front [place.name] rest rfl
  obtain ⟨above, used, hcheck, -, hparts, habove, hle⟩ := exists_walk_of_locate hl hslash
  have hdir := hname.isDirectory hg (habove.isDirectory hg hg.root)
  have hwalk := walk_append_of_trail habove maxLinks [place.name] hle
  rw [← hparts] at hwalk
  by_cases henough : links' ≤ maxLinks - used
  · rw [walk_of_trail hname henough] at hwalk
    have hfollow := follow_eq_ok.mpr ⟨hcheck, hwalk⟩
    rw [hfile middle hfollow] at hdir
    exact absurd hdir (by simp)
  · rw [walk_of_trail_of_lt hname _ (Nat.lt_of_not_le henough)] at hwalk
    exact hlinks (follow_of_walk_error hcheck hwalk)

/-- What stands at an impassable place is no directory. -/
theorem isDirectory_of_impassable {directory id : NodeId} {name : String}
    (h : Impassable fs directory name) (hplain : Plain name)
    (he : fs.entry? directory name = some id) : fs.isDirectory id = false := by
  rw [Bool.eq_false_iff]
  intro hdir
  obtain ⟨parent, hk⟩ := isDirectory_eq_true_iff.mp hdir
  refine h 0 [] id (.down ?_ .nil)
  rw [hop_of_plain hplain, he, hopTo, hk]

/-- **Walks to directories survive changes at impassable places.** -/
theorem walk_of_hops (hhop : ∀ directory name, Impassable fs directory name ∨
      fs'.hop directory name = fs.hop directory name)
    {limit : Nat} {directory id : NodeId} {parts : List String}
    (hwalk : fs.walk limit directory parts = .ok (.node id)) (hdir : fs.isDirectory id = true) :
    fs'.walk limit directory parts = .ok (.node id) := by
  obtain ⟨links, hle, htrail⟩ := trail_of_walk hdir _ _ _ hwalk
  exact walk_of_trail (htrail.transport hhop) hle

/-- So a directory in which a file can be made stays one. -/
theorem checkDirectory_of_hops (hhop : ∀ directory name, Impassable fs directory name ∨
      fs'.hop directory name = fs.hop directory name)
    (hdirs : ∀ id, fs.isDirectory id = true → fs'.isDirectory id = true)
    (hf : fs.checkDirectory path = .ok ()) : fs'.checkDirectory path = .ok () := by
  obtain ⟨id, hfollow, hdir⟩ := Fallible.bind_eq_ok.mp hf
  split at hdir
  · rename_i hd
    obtain ⟨hcheck, hwalk⟩ := follow_eq_ok.mp hfollow
    refine Fallible.bind_eq_ok.mpr
      ⟨id, follow_eq_ok.mpr ⟨hcheck, walk_of_hops hhop hwalk hd⟩, ?_⟩
    rw [if_pos (hdirs id hd)]
    rfl
  · exact absurd hdir Fallible.throw_ne_ok

/-- What a change leaves alone hops as before. -/
theorem Keeps.hops (h : Keeps fs fs' changed)
    (hc : ∀ directory name, changed directory name → Impassable fs directory name)
    (directory : NodeId) (name : String) :
    Impassable fs directory name ∨ fs'.hop directory name = fs.hop directory name := by
  by_cases hchanged : changed directory name
  · exact Or.inl (hc directory name hchanged)
  · exact Or.inr (h.hop_eq hchanged)

theorem Keeps.locate_of_impassable (h : Keeps fs fs' changed)
    (hc : ∀ directory name, changed directory name → Impassable fs directory name)
    (hl : fs.locate path = .ok place) : fs'.locate path = .ok place :=
  locate_of_walk hl fun _ _ _ hwalk hdir =>
    ⟨walk_of_hops (h.hops hc) hwalk hdir, (h.isDirectory_eq _).trans hdir⟩

theorem Keeps.checkDirectory_of_impassable (h : Keeps fs fs' changed)
    (hc : ∀ directory name, changed directory name → Impassable fs directory name)
    (hf : fs.checkDirectory path = .ok ()) : fs'.checkDirectory path = .ok () :=
  checkDirectory_of_hops (h.hops hc) (fun id hd => (h.isDirectory_eq id).trans hd) hf

/-- No directory is made where nothing leads on afterwards. -/
theorem Keeps.checkDirectory_inv (h : Keeps fs fs' changed)
    (hc : ∀ directory name, changed directory name → Impassable fs' directory name)
    (hf : fs'.checkDirectory path = .ok ()) : fs.checkDirectory path = .ok () := by
  refine checkDirectory_of_hops (fun directory name => ?_)
    (fun id hd => (h.isDirectory_eq id).symm.trans hd) hf
  by_cases hchanged : changed directory name
  · exact Or.inl (hc directory name hchanged)
  · exact Or.inr (h.hop_eq hchanged).symm

/-- A file is passed by no trail. -/
theorem impassable_of_leaf {directory id : NodeId} {name : String} (hplain : Plain name)
    (he : fs.entry? directory name = some id) (hk : fs.kindOf id = .leaf) :
    Impassable fs directory name := by
  have hhop : fs.hop directory name = .leaf (.ok (.node id)) .notDirectory := by
    rw [hop_of_plain hplain, he, hopTo, hk]
  intro links rest last htrail
  cases htrail with
  | down h _ => exact absurd (hhop.symm.trans h) (by simp)
  | jump h _ => exact absurd (hhop.symm.trans h) (by simp)

end FileSystem
end ConstStore
