/-
# Where records stand

Records stand behind each other, so the lookup of a store is determined by where the first one
starts and by the keys and sizes of all of them.  `Lookup.layout` is that lookup, written down
without the checks of `Lookup.build` and the bookkeeping of `Lookup.insert`.

* `get?_layout`: a key has the place of the one record that carries it.
* `build_eq_ok`, `build_of_nodup`: building yields the layout, for distinct keys below 2^64.
* `insert_layout`: entering a record at the end yields the layout with one more record.
* `snapshot_layout`: the places of a layout are in the order of the ordinals.
-/
import ConstStore.Index
import Mathlib.Data.List.Basic
import Mathlib.Data.List.Nodup

namespace ConstStore

/-! ## 1. Keys and sizes -/

/-- What the place of a record and of those behind it depends on. -/
structure Span where
  key : Bytes
  size : Nat
  deriving DecidableEq

/-- The key and the size of the record that an entry describes. -/
def Entry.span (e : Entry) : Span := ⟨e.key, e.size.toNat⟩

/-- The number of bytes that these records take. -/
def extent (spans : List Span) : Nat := spans.foldr (fun s total => s.size + total) 0

@[simp] theorem extent_nil : extent [] = 0 := rfl

@[simp] theorem extent_cons (s : Span) (spans : List Span) :
    extent (s :: spans) = s.size + extent spans := rfl

@[simp] theorem extent_append (front back : List Span) :
    extent (front ++ back) = extent front + extent back := by
  induction front with
  | nil => simp
  | cons s front ih => simp only [List.cons_append, extent_cons, ih]; omega

/-- A front of the records takes no more bytes than all of them. -/
theorem extent_take_le (spans : List Span) (n : Nat) : extent (spans.take n) ≤ extent spans := by
  have h := extent_append (spans.take n) (spans.drop n)
  rw [List.take_append_drop] at h
  omega

theorem extent_take_add_size {spans : List Span} {n : Nat} {s : Span} (h : spans[n]? = some s) :
    extent (spans.take n) + s.size = extent (spans.take (n + 1)) := by
  rw [List.take_add_one, extent_append, h]
  simp

/-- No record reaches beyond the last one. -/
theorem extent_take_add_size_le {spans : List Span} {n : Nat} {s : Span}
    (h : spans[n]? = some s) : extent (spans.take n) + s.size ≤ extent spans := by
  rw [extent_take_add_size h]
  exact extent_take_le _ _

theorem map_key_span (entries : List Entry) :
    (entries.map Entry.span).map Span.key = entries.map Entry.key := by
  rw [List.map_map]
  rfl

theorem recordBytes_eq_extent (index : Index) :
    index.recordBytes = extent (index.entries.map Entry.span) := by
  rw [Index.recordBytes, extent, List.foldr_map]
  rfl

namespace Lookup

/-! ## 2. The layout -/

/-- The places of records that start at an offset, the first of which has this ordinal. -/
def places : (ordinal offset : Nat) → List Span → List (Bytes × Slot)
  | _, _, [] => []
  | ordinal, offset, s :: spans =>
    (s.key, ⟨ordinal, offset⟩) :: places (ordinal + 1) (offset + s.size) spans

/-- The lookup of records that start at `start`. -/
def layout (start : Nat) (spans : List Span) : Lookup :=
  ⟨places 0 start spans, start + extent spans⟩

@[simp] theorem layout_endOffset (start : Nat) (spans : List Span) :
    (layout start spans).endOffset = start + extent spans := rfl

theorem places_append (front back : List Span) : ∀ ordinal offset : Nat,
    places ordinal offset (front ++ back) = places ordinal offset front
      ++ places (ordinal + front.length) (offset + extent front) back := by
  induction front with
  | nil => simp [places]
  | cons s front ih =>
    intro ordinal offset
    simp only [List.cons_append, places, ih, List.length_cons, extent_cons]
    rw [show ordinal + 1 + front.length = ordinal + (front.length + 1) by omega,
      show offset + s.size + extent front = offset + (s.size + extent front) by omega]

theorem map_fst_places (spans : List Span) : ∀ ordinal offset : Nat,
    (places ordinal offset spans).map (·.1) = spans.map Span.key := by
  induction spans with
  | nil => intros; rfl
  | cons s spans ih => intros; simp [places, ih]

@[simp] theorem length_places (spans : List Span) (ordinal offset : Nat) :
    (places ordinal offset spans).length = spans.length := by
  have h := congrArg List.length (map_fst_places spans ordinal offset)
  simpa using h

/-- The place at each position: ordinals count up, and offsets sum up the sizes before. -/
theorem getElem?_places (spans : List Span) : ∀ ordinal offset n : Nat,
    (places ordinal offset spans)[n]? = spans[n]?.map fun s =>
      (s.key, ⟨ordinal + n, offset + extent (spans.take n)⟩) := by
  induction spans with
  | nil => intros; simp [places]
  | cons s spans ih =>
    intro ordinal offset n
    cases n with
    | zero => simp [places]
    | succ n =>
      simp only [places, List.getElem?_cons_succ, ih, List.take_succ_cons, extent_cons]
      rw [show ordinal + 1 + n = ordinal + (n + 1) by omega]
      simp only [Nat.add_assoc]

/-! ## 3. Looking up -/

/-- Where keys are distinct, looking one up finds the one pair that carries it. -/
theorem lookup_eq_some_iff_mem {places : List (Bytes × Slot)}
    (hd : (places.map (·.1)).Nodup) {key : Bytes} {slot : Slot} :
    places.lookup key = some slot ↔ (key, slot) ∈ places := by
  induction places with
  | nil => simp
  | cons p places ih =>
    obtain ⟨k, s⟩ := p
    have hd' := List.nodup_cons.mp hd
    by_cases hk : key = k
    · subst hk
      constructor
      · intro h
        rw [List.lookup_cons_self] at h
        rw [Option.some.inj h]
        exact List.mem_cons_self
      · intro h
        rcases List.mem_cons.mp h with h | h
        · rw [(Prod.mk.inj h).2, List.lookup_cons_self]
        · exact absurd (List.mem_map_of_mem h) hd'.1
    · rw [List.lookup_cons, beq_false_of_ne hk, ih hd'.2, List.mem_cons]
      exact ⟨Or.inr, fun h => h.resolve_left fun e => hk (Prod.mk.inj e).1⟩

/-- **A key has the place of the one record that carries it.** -/
theorem get?_layout {start : Nat} {spans : List Span} (hd : (spans.map Span.key).Nodup)
    {key : Bytes} {slot : Slot} :
    (layout start spans).get? key = some slot ↔
      ∃ s, spans[slot.ordinal]? = some s ∧ s.key = key ∧
        slot.offset = start + extent (spans.take slot.ordinal) := by
  rw [get?, lookup_eq_some_iff_mem (by rw [layout, map_fst_places]; exact hd),
    List.mem_iff_getElem?]
  simp only [layout, getElem?_places, Option.map_eq_some_iff, Prod.mk.injEq]
  constructor
  · rintro ⟨n, s, hs, hk, rfl⟩
    exact ⟨s, by simpa using hs, hk, by simp⟩
  · rintro ⟨s, hs, hk, ho⟩
    exact ⟨slot.ordinal, s, hs, hk, by rw [← ho, Nat.zero_add]⟩

theorem contains_layout {start : Nat} {spans : List Span} {key : Bytes} :
    (layout start spans).contains key = true ↔ key ∈ spans.map Span.key := by
  have h : (layout start spans).contains key = true ↔
      key ∈ (layout start spans).slots.map (·.1) := by
    simp only [contains, get?, List.lookup_isSome_iff, List.mem_map]
    exact ⟨fun ⟨p, hp, hk⟩ => ⟨p, hp, (eq_of_beq hk).symm⟩,
      fun ⟨p, hp, hk⟩ => ⟨p, hp, beq_iff_eq.mpr hk.symm⟩⟩
  rw [h, layout, map_fst_places]

/-! ## 4. Growing -/

/-- The layout of one more record has one more place, where the records ended before. -/
theorem layout_concat (start : Nat) (spans : List Span) (s : Span) :
    layout start (spans ++ [s])
      = ⟨(layout start spans).slots ++ [(s.key, ⟨spans.length, start + extent spans⟩)],
        start + extent spans + s.size⟩ := by
  have hplaces := places_append spans [s] 0 start
  simp only [places, Nat.zero_add] at hplaces
  simp [layout, hplaces, Nat.add_assoc]

/-- **A record that is entered at the end of a layout extends it.** -/
theorem insert_layout {start : Nat} {spans : List Span} {key : Bytes}
    (hk : key ∉ spans.map Span.key) (size : Nat) :
    (layout start spans).insert key ⟨spans.length, start + extent spans⟩ size
      = layout start (spans ++ [⟨key, size⟩]) := by
  have hc : ¬ (layout start spans).contains key = true := fun h => hk (contains_layout.mp h)
  rw [insert, if_neg hc, layout_concat]

/-- One step of building. -/
theorem append_layout {start : Nat} {spans : List Span} {e : Entry}
    (hk : e.key ∉ spans.map Span.key) (hs : start + extent spans + e.size.toNat < UInt64.size) :
    (layout start spans).append spans.length e = .ok (layout start (spans ++ [e.span])) := by
  have hc : ¬ (layout start spans).contains e.key = true := fun h => hk (contains_layout.mp h)
  rw [append, if_neg hc, if_neg (by simpa using hs), layout_endOffset, layout_concat]
  rfl

/-- A step of building that succeeds has passed both checks. -/
theorem append_layout_eq_ok {start : Nat} {spans : List Span} {e : Entry} {lookup : Lookup}
    (h : (layout start spans).append spans.length e = .ok lookup) :
    e.key ∉ spans.map Span.key ∧ start + extent spans + e.size.toNat < UInt64.size ∧
      lookup = layout start (spans ++ [e.span]) := by
  have hk : e.key ∉ spans.map Span.key := by
    intro hmem
    rw [append, if_pos (contains_layout.mpr hmem)] at h
    exact absurd h (by simp)
  have hs : start + extent spans + e.size.toNat < UInt64.size := by
    refine Nat.lt_of_not_le fun hle => ?_
    rw [append, if_neg fun hc => hk (contains_layout.mp hc), layout_endOffset, if_pos hle] at h
    exact absurd h (by simp)
  rw [append_layout hk hs] at h
  exact ⟨hk, hs, (Except.ok.inj h).symm⟩

/-! ## 5. Building -/

theorem appendAll_layout {start : Nat} (entries : List Entry) : ∀ spans : List Span,
    ((spans ++ entries.map Entry.span).map Span.key).Nodup →
      start + extent (spans ++ entries.map Entry.span) < UInt64.size →
      (layout start spans).appendAll spans.length entries
        = .ok (layout start (spans ++ entries.map Entry.span)) := by
  induction entries with
  | nil => intro spans _ _; simp [appendAll]
  | cons e entries ih =>
    intro spans hd hs
    rw [List.map_cons, List.append_cons] at hd hs ⊢
    have hfront : ((spans ++ [e.span]).map Span.key).Nodup :=
      hd.sublist ((List.sublist_append_left _ _).map Span.key)
    rw [List.map_append, List.map_singleton, ← List.concat_eq_append, List.nodup_concat] at hfront
    have hk : e.key ∉ spans.map Span.key := hfront.1
    have hb : start + extent spans + e.size.toNat < UInt64.size := by
      simp only [extent_append, extent_cons, extent_nil, Entry.span] at hs
      omega
    have hstep := ih (spans ++ [e.span]) hd hs
    rw [List.length_append] at hstep
    rw [appendAll, append_layout hk hb]
    exact hstep

theorem appendAll_layout_eq_ok {start : Nat} (entries : List Entry) :
    ∀ (spans : List Span) {lookup : Lookup},
      (layout start spans).appendAll spans.length entries = .ok lookup →
      (spans.map Span.key).Nodup →
      ((spans ++ entries.map Entry.span).map Span.key).Nodup ∧
        lookup = layout start (spans ++ entries.map Entry.span) ∧
        (start + extent spans < UInt64.size → lookup.endOffset < UInt64.size) := by
  induction entries with
  | nil =>
    intro spans lookup h hd
    obtain rfl := Except.ok.inj h
    simpa using hd
  | cons e entries ih =>
    intro spans lookup h hd
    rw [appendAll] at h
    split at h
    · exact absurd h (by simp)
    · rename_i next ha
      obtain ⟨hk, hs, rfl⟩ := append_layout_eq_ok ha
      have hd' : ((spans ++ [e.span]).map Span.key).Nodup := by
        rw [List.map_append, List.map_singleton, ← List.concat_eq_append, List.nodup_concat]
        exact ⟨hk, hd⟩
      have hlen : spans.length + 1 = (spans ++ [e.span]).length := by simp
      rw [hlen] at h
      obtain ⟨h1, h2, h3⟩ := ih (spans ++ [e.span]) h hd'
      rw [List.map_cons, List.append_cons]
      refine ⟨h1, h2, fun _ => h3 ?_⟩
      simpa [Entry.span, Nat.add_assoc] using hs

/-- **Building succeeds for distinct keys** whose records end below 2^64. -/
theorem build_of_nodup {index : Index} {start : Nat}
    (hd : (index.entries.map Entry.key).Nodup)
    (hs : start + extent (index.entries.map Entry.span) < UInt64.size) :
    build index start = .ok (layout start (index.entries.map Entry.span)) := by
  refine appendAll_layout index.entries [] ?_ hs
  rw [List.nil_append, map_key_span]
  exact hd

/-- **What is built is the layout**, and the keys are distinct. -/
theorem build_eq_ok {index : Index} {start : Nat} {lookup : Lookup}
    (h : build index start = .ok lookup) :
    (index.entries.map Entry.key).Nodup ∧ lookup = layout start (index.entries.map Entry.span) ∧
      (start < UInt64.size → lookup.endOffset < UInt64.size) := by
  obtain ⟨h1, h2, h3⟩ := appendAll_layout_eq_ok index.entries [] h (by simp)
  rw [List.nil_append, map_key_span] at h1
  exact ⟨h1, h2, fun hs => h3 (by simpa using hs)⟩

/-! ## 6. Snapshots -/

theorem pairwise_places (spans : List Span) : ∀ ordinal offset : Nat,
    (places ordinal offset spans).Pairwise fun a b => a.2.ordinal ≤ b.2.ordinal := by
  intro ordinal offset
  refine List.pairwise_iff_getElem.mpr fun i j hi hj hij => ?_
  have h := getElem?_places spans ordinal offset
  have hi' := h i
  have hj' := h j
  rw [List.getElem?_eq_getElem hi, List.getElem?_eq_getElem (by simpa using hi)] at hi'
  rw [List.getElem?_eq_getElem hj, List.getElem?_eq_getElem (by simpa using hj)] at hj'
  simp only [Option.map_some, Option.some.injEq] at hi' hj'
  rw [hi', hj']
  show ordinal + i ≤ ordinal + j
  omega

/-- **The places of a layout are already in the order of the ordinals.** -/
theorem snapshot_layout (start : Nat) (spans : List Span) :
    (layout start spans).snapshot = places 0 start spans := by
  refine List.mergeSort_of_pairwise ?_
  simpa [layout] using pairwise_places spans 0 start

end Lookup
end ConstStore
