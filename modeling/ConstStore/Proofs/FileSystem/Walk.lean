/-
# Walks

Following a path is a walk: every component is one hop, which goes down to a directory, jumps
through a symbolic link, or comes to a leaf.  Whatever a walk does is determined by its hops, so a
change of the file system is invisible to the walks that do not hop where it happened.

A walk that ends in a directory has no leaf.  It is a `Trail`, which can be split and prolonged,
and which counts the links it goes through.

* `walk_induction`: how to prove something about all walks.
* `walk_append_of_trail`: a walk along a trail goes on where the trail ends.
* `Trail.walk_to_leaf`: where it leads when a leaf has been put at its end.
* `Trail.transport`: a trail survives changes at places that no trail leads through.
* `Impassable`: such a place.
-/
import ConstStore.FileSystem.Basic

namespace ConstStore
namespace FileSystem

/-! ## 1. Hops -/

/-- What of a node a walk can notice. -/
inductive Kind where
  | leaf
  | directory (parent : NodeId)
  | link (target : String)

def kindOf (fs : FileSystem) (id : NodeId) : Kind :=
  match fs.node? id with
  | some (.directory d) => .directory d.parent
  | some (.link target) => .link target
  | _ => .leaf

/-- One step of a walk. -/
inductive Hop where
  /-- Goes on in a directory. -/
  | down (directory : NodeId)
  /-- Goes on with the components of a link's target. -/
  | jump (directory : NodeId) (parts : List String)
  /-- Ends here, or fails when there are components left. -/
  | leaf (last : Except IoError Target) (otherwise : IoError)

/-- The step that an entry makes. -/
def hopTo (fs : FileSystem) (directory : NodeId) (name : String) : Option NodeId → Hop
  | none => .leaf (.ok (.free directory name)) .notFound
  | some id =>
    match fs.kindOf id with
    | .directory _ => .down id
    | .link target =>
      .jump (if Path.isAbsolute target then root else directory) (Path.components target)
    | .leaf => .leaf (.ok (.node id)) .notDirectory

/-- The step that a component makes in a directory. -/
def hop (fs : FileSystem) (directory : NodeId) (name : String) : Hop :=
  if Path.isIdle name then .down directory
  else if name = ".." then .down (fs.parentOf directory)
  else if maxName < name.utf8ByteSize then .leaf (.error .nameTooLong) .nameTooLong
  else fs.hopTo directory name (fs.entry? directory name)

/-- A name that is an entry of a directory, and no way to say where to stay or go up. -/
structure Plain (name : String) : Prop where
  idle : Path.isIdle name = false
  up : name ≠ ".."
  length : name.utf8ByteSize ≤ maxName

variable {fs : FileSystem}

theorem hop_of_plain {name : String} (h : Plain name) (directory : NodeId) :
    fs.hop directory name = fs.hopTo directory name (fs.entry? directory name) := by
  rw [hop, h.idle, if_neg (by simp), if_neg h.up, if_neg (Nat.not_lt.mpr h.length)]

theorem isDirectory_eq_true_iff {id : NodeId} :
    fs.isDirectory id = true ↔ ∃ parent, fs.kindOf id = .directory parent := by
  rw [isDirectory, kindOf]
  cases fs.node? id with
  | none => simp
  | some node => cases node <;> simp

/-- A leaf is an entry that stands for neither a directory nor a link. -/
theorem entry_of_leaf {directory : NodeId} {name : String} {id : NodeId} {error : IoError}
    (h : fs.hop directory name = .leaf (.ok (.node id)) error) :
    fs.entry? directory name = some id ∧ fs.kindOf id = .leaf := by
  unfold hop at h
  by_cases hi : Path.isIdle name = true
  · rw [if_pos hi] at h
    exact absurd h (by simp)
  rw [if_neg hi] at h
  by_cases hu : name = ".."
  · rw [if_pos hu] at h
    exact absurd h (by simp)
  rw [if_neg hu] at h
  by_cases hl : maxName < name.utf8ByteSize
  · rw [if_pos hl] at h
    exact absurd h (by simp)
  rw [if_neg hl] at h
  cases he : fs.entry? directory name with
  | none => simp [he, hopTo] at h
  | some node =>
    cases hk : fs.kindOf node with
    | directory parent => simp [he, hopTo, hk] at h
    | link target => simp [he, hopTo, hk] at h
    | leaf =>
      simp only [he, hopTo, hk, Hop.leaf.injEq, Except.ok.injEq, Target.node.injEq] at h
      obtain ⟨rfl, -⟩ := h
      exact ⟨rfl, hk⟩

theorem isDirectory_of_leaf {directory : NodeId} {name : String} {id : NodeId} {error : IoError}
    (h : fs.hop directory name = .leaf (.ok (.node id)) error) : fs.isDirectory id = false := by
  rw [Bool.eq_false_iff, ne_eq, isDirectory_eq_true_iff, (entry_of_leaf h).2]
  simp

/-! ## 2. Walks as hops -/

theorem descend_cons (jump : NodeId → List String → Except IoError Target) (directory : NodeId)
    (name : String) (rest : List String) :
    fs.descend jump directory (name :: rest) = match fs.hop directory name with
      | .down next => fs.descend jump next rest
      | .jump next parts => jump next (parts ++ rest)
      | .leaf last error => if rest.isEmpty then last else .error error := by
  rw [descend, hop]
  by_cases hi : Path.isIdle name = true
  · rw [if_pos hi, if_pos hi]
  rw [if_neg hi, if_neg hi]
  by_cases hu : name = ".."
  · rw [if_pos hu, if_pos hu]
  rw [if_neg hu, if_neg hu]
  by_cases hl : maxName < name.utf8ByteSize
  · simp only [if_pos hl, ite_self]
  rw [if_neg hl, if_neg hl]
  cases fs.entry? directory name with
  | none => rfl
  | some id =>
    simp only [hopTo, kindOf]
    cases fs.node? id with
    | none => rfl
    | some node => cases node <;> rfl

theorem walk_nil (links : Nat) (directory : NodeId) :
    fs.walk links directory [] = .ok (.node directory) := by
  cases links <;> rfl

theorem walk_cons (links : Nat) (directory : NodeId) (name : String) (rest : List String) :
    fs.walk links directory (name :: rest) = match fs.hop directory name with
      | .down next => fs.walk links next rest
      | .jump next parts =>
        match links with
        | 0 => .error .tooManyLinks
        | links + 1 => fs.walk links next (parts ++ rest)
      | .leaf last error => if rest.isEmpty then last else .error error := by
  cases links <;> exact descend_cons _ _ _ _

/-- **To prove something about all walks**, follow their hops. -/
theorem walk_induction (fs : FileSystem) {motive : Nat → NodeId → List String → Prop}
    (nil : ∀ links directory, motive links directory [])
    (down : ∀ links directory name rest next, fs.hop directory name = .down next →
      motive links next rest → motive links directory (name :: rest))
    (jump : ∀ links directory name rest next parts,
      fs.hop directory name = .jump next parts → motive links next (parts ++ rest) →
      motive (links + 1) directory (name :: rest))
    (stuck : ∀ directory name rest next parts, fs.hop directory name = .jump next parts →
      motive 0 directory (name :: rest))
    (leaf : ∀ links directory name rest last error, fs.hop directory name = .leaf last error →
      motive links directory (name :: rest)) :
    ∀ links directory parts, motive links directory parts := by
  intro links
  induction links with
  | zero =>
    intro directory parts
    induction parts generalizing directory with
    | nil => exact nil _ _
    | cons name rest ih =>
      cases h : fs.hop directory name with
      | down next => exact down _ _ _ _ _ h (ih next)
      | jump next parts => exact stuck _ _ _ _ _ h
      | leaf last error => exact leaf _ _ _ _ _ _ h
  | succ links ihLinks =>
    intro directory parts
    induction parts generalizing directory with
    | nil => exact nil _ _
    | cons name rest ih =>
      cases h : fs.hop directory name with
      | down next => exact down _ _ _ _ _ h (ih next)
      | jump next parts => exact jump _ _ _ _ _ _ h (ihLinks next (parts ++ rest))
      | leaf last error => exact leaf _ _ _ _ _ _ h

/-- **Walks do not notice what they do not hop over.**  Here the names in `known` hop as before,
and the links among them lead to such names only. -/
theorem walk_congr {fs' : FileSystem} (known : String → Prop)
    (hhop : ∀ directory name, known name → fs'.hop directory name = fs.hop directory name)
    (hlink : ∀ directory name next parts, fs.hop directory name = .jump next parts →
      ∀ part ∈ parts, known part) :
    ∀ links directory parts, (∀ part ∈ parts, known part) →
      fs'.walk links directory parts = fs.walk links directory parts := by
  refine walk_induction fs ?_ ?_ ?_ ?_ ?_
  · intro links directory _
    rw [walk_nil, walk_nil]
  · intro links directory name rest next h ih hknown
    obtain ⟨hname, hrest⟩ := List.forall_mem_cons.mp hknown
    rw [walk_cons, walk_cons, hhop _ _ hname, h]
    exact ih hrest
  · intro links directory name rest next parts h ih hknown
    obtain ⟨hname, hrest⟩ := List.forall_mem_cons.mp hknown
    rw [walk_cons, walk_cons, hhop _ _ hname, h]
    exact ih (List.forall_mem_append.mpr ⟨hlink _ _ _ _ h, hrest⟩)
  · intro directory name rest next parts h hknown
    rw [walk_cons, walk_cons, hhop _ _ (hknown _ List.mem_cons_self), h]
  · intro links directory name rest last error h hknown
    rw [walk_cons, walk_cons, hhop _ _ (hknown _ List.mem_cons_self), h]

/-! ## 3. Trails -/

/-- A walk without a leaf, which ends in a directory, and the number of links on the way. -/
inductive Trail (fs : FileSystem) : Nat → NodeId → List String → NodeId → Prop
  | nil {directory : NodeId} : Trail fs 0 directory [] directory
  | down {links : Nat} {directory next last : NodeId} {name : String} {rest : List String} :
      fs.hop directory name = .down next → Trail fs links next rest last →
      Trail fs links directory (name :: rest) last
  | jump {links : Nat} {directory next last : NodeId} {name : String}
      {parts rest : List String} :
      fs.hop directory name = .jump next parts → Trail fs links next (parts ++ rest) last →
      Trail fs (links + 1) directory (name :: rest) last

variable {links : Nat} {directory last : NodeId} {parts : List String}

/-- **A walk that ends in a directory is a trail.** -/
theorem trail_of_walk (hlast : fs.isDirectory last = true) :
    ∀ limit directory parts, fs.walk limit directory parts = .ok (.node last) →
      ∃ links, links ≤ limit ∧ Trail fs links directory parts last := by
  refine walk_induction fs ?_ ?_ ?_ ?_ ?_
  · intro limit directory h
    rw [walk_nil, Except.ok.injEq, Target.node.injEq] at h
    exact ⟨0, Nat.zero_le _, h ▸ .nil⟩
  · intro limit directory name rest next hhop ih h
    rw [walk_cons, hhop] at h
    obtain ⟨links, hle, ht⟩ := ih h
    exact ⟨links, hle, .down hhop ht⟩
  · intro limit directory name rest next parts hhop ih h
    rw [walk_cons, hhop] at h
    obtain ⟨links, hle, ht⟩ := ih h
    exact ⟨links + 1, Nat.succ_le_succ hle, .jump hhop ht⟩
  · intro directory name rest next parts hhop h
    rw [walk_cons, hhop] at h
    exact absurd h (by simp)
  · intro limit directory name rest leaf error hhop h
    rw [walk_cons, hhop] at h
    cases hr : rest.isEmpty with
    | false => simp [hr] at h
    | true =>
      simp only [hr, if_true] at h
      rw [h] at hhop
      rw [isDirectory_of_leaf hhop] at hlast
      exact absurd hlast (by simp)

/-- **A walk along a trail goes on where the trail ends**, if there are links enough. -/
theorem walk_append_of_trail (h : Trail fs links directory parts last) :
    ∀ limit rest, links ≤ limit →
      fs.walk limit directory (parts ++ rest) = fs.walk (limit - links) last rest := by
  induction h with
  | nil => intro limit rest _; rfl
  | down hhop _ ih =>
    intro limit rest hle
    rw [List.cons_append, walk_cons, hhop]
    exact ih limit rest hle
  | jump hhop _ ih =>
    intro limit rest hle
    obtain ⟨limit, rfl⟩ := Nat.exists_eq_add_of_le' (Nat.lt_of_lt_of_le (Nat.succ_pos _) hle)
    rw [List.cons_append, walk_cons, hhop, Nat.add_sub_add_right]
    have h := ih limit rest (Nat.le_of_succ_le_succ hle)
    rw [List.append_assoc] at h
    exact h

theorem walk_of_trail (h : Trail fs links directory parts last) {limit : Nat}
    (hle : links ≤ limit) : fs.walk limit directory parts = .ok (.node last) := by
  have hwalk := walk_append_of_trail h limit [] hle
  rw [List.append_nil, walk_nil] at hwalk
  exact hwalk

/-- Without enough links a walk along a trail is given up. -/
theorem walk_of_trail_of_lt (h : Trail fs links directory parts last) :
    ∀ limit, limit < links → fs.walk limit directory parts = .error .tooManyLinks := by
  induction h with
  | nil => intro limit hlt; exact absurd hlt (Nat.not_lt_zero _)
  | down hhop _ ih =>
    intro limit hlt
    rw [walk_cons, hhop]
    exact ih limit hlt
  | jump hhop _ ih =>
    intro limit hlt
    rw [walk_cons, hhop]
    cases limit with
    | zero => rfl
    | succ limit => exact ih limit (Nat.lt_of_succ_lt_succ hlt)

/-- **The front of a trail is a trail.** -/
theorem Trail.front (h : Trail fs links directory parts last) :
    ∀ front back, parts = front ++ back →
      ∃ links' middle, Trail fs links' directory front middle := by
  induction h with
  | nil =>
    intro front back he
    obtain ⟨rfl, -⟩ := List.append_eq_nil_iff.mp he.symm
    exact ⟨0, _, .nil⟩
  | @down links directory next last name rest hhop _ ih =>
    intro front back he
    cases front with
    | nil => exact ⟨0, _, .nil⟩
    | cons part front =>
      obtain ⟨rfl, rfl⟩ := List.cons.inj he
      obtain ⟨links', middle, ht⟩ := ih front back rfl
      exact ⟨links', middle, .down hhop ht⟩
  | @jump links directory next last name parts rest hhop _ ih =>
    intro front back he
    cases front with
    | nil => exact ⟨0, _, .nil⟩
    | cons part front =>
      obtain ⟨rfl, rfl⟩ := List.cons.inj he
      obtain ⟨links', middle, ht⟩ := ih (parts ++ front) back (List.append_assoc _ _ _).symm
      exact ⟨links' + 1, middle, .jump hhop ht⟩

/-- **A trail to a place where a leaf stands now** leads to this leaf, unless it comes to the place
on its way. -/
theorem Trail.walk_to_leaf {fs' : FileSystem} {name : String} {id : NodeId} {error : IoError}
    (h : Trail fs links directory parts last)
    (hhop : ∀ d n, ¬ (d = last ∧ n = name) → fs'.hop d n = fs.hop d n)
    (hleaf : fs'.hop last name = .leaf (.ok (.node id)) error) :
    ∀ limit, links ≤ limit → fs'.walk limit directory (parts ++ [name]) = .ok (.node id) ∨
      fs'.walk limit directory (parts ++ [name]) = .error error := by
  induction h with
  | nil =>
    intro limit _
    rw [List.nil_append, walk_cons, hleaf]
    exact Or.inl rfl
  | @down links directory next last part rest hd _ ih =>
    intro limit hle
    rw [List.cons_append, walk_cons]
    by_cases hplace : directory = last ∧ part = name
    · rw [hplace.1, hplace.2, hleaf]
      exact Or.inr (if_neg (by simp))
    · rw [hhop directory part hplace, hd]
      exact ih hhop hleaf limit hle
  | @jump links directory next last part parts rest hj _ ih =>
    intro limit hle
    rw [List.cons_append, walk_cons]
    by_cases hplace : directory = last ∧ part = name
    · rw [hplace.1, hplace.2, hleaf]
      exact Or.inr (if_neg (by simp))
    · obtain ⟨limit, rfl⟩ := Nat.exists_eq_add_of_le' (Nat.lt_of_lt_of_le (Nat.succ_pos _) hle)
      have hwalk := ih hhop hleaf limit (Nat.le_of_succ_le_succ hle)
      rw [List.append_assoc] at hwalk
      rw [hhop directory part hplace, hj]
      exact hwalk

/-! ## 4. Impassable places -/

/-- No trail leads through this name. -/
def Impassable (fs : FileSystem) (directory : NodeId) (name : String) : Prop :=
  ∀ links rest last, ¬ Trail fs links directory (name :: rest) last

/-- **A trail survives changes at impassable places.** -/
theorem Trail.transport {fs' : FileSystem}
    (hhop : ∀ directory name, Impassable fs directory name ∨
      fs'.hop directory name = fs.hop directory name)
    (h : Trail fs links directory parts last) : Trail fs' links directory parts last := by
  induction h with
  | nil => exact .nil
  | down hd ht ih =>
    rcases hhop _ _ with himp | heq
    · exact absurd (.down hd ht) (himp _ _ _)
    · exact .down (heq.trans hd) ih
  | jump hj ht ih =>
    rcases hhop _ _ with himp | heq
    · exact absurd (.jump hj ht) (himp _ _ _)
    · exact .jump (heq.trans hj) ih

end FileSystem
end ConstStore
