/-
# Building a lookup

A lookup is built entry by entry, and two things can stop this: a key that has occurred before, and
a record that ends beyond what 64 bits can tell.  Both can come up in one index, even at one entry,
and then it matters which is noticed first.

* `Lookup.StopsAt`: the first entry at which building cannot go on.
* `Lookup.unstopped_iff`: there is none in a front of the entries when this front can be built.
* `Lookup.build_of_stopsAt`: building fails there, and a repeated key comes before an overflow.
* `Lookup.snapshot_of_perm`: sorting gives the places in the order of the ordinals, whatever order
  they are held in.
* `Lookup.Describes`: what a lookup says of an index, for every key.
* `Lookup.build_exact`: when building succeeds, with what, and how it fails otherwise.
-/
import ConstStore.Proofs.Lookup
import Mathlib.Data.Nat.Find

namespace ConstStore

/-- The size of the records before an ordinal. -/
def Index.bytesBefore (index : Index) (ordinal : Nat) : Nat :=
  recordBytes ⟨index.entries.take ordinal⟩

theorem Index.bytesBefore_eq (index : Index) (ordinal : Nat) :
    index.bytesBefore ordinal = extent ((index.entries.map Entry.span).take ordinal) := by
  rw [bytesBefore, recordBytes_eq_extent, List.map_take]

/-- One record more. -/
theorem Index.bytesBefore_succ {index : Index} {n : Nat} {e : Entry}
    (he : index.get? n = some e) :
    index.bytesBefore (n + 1) = index.bytesBefore n + e.size.toNat := by
  have hspan : (index.entries.map Entry.span)[n]? = some e.span := by
    rw [List.getElem?_map]
    exact congrArg (Option.map Entry.span) he
  rw [bytesBefore_eq, bytesBefore_eq, ← extent_take_add_size hspan]
  rfl

/-- All records stand before the end of the index. -/
theorem Index.bytesBefore_size (index : Index) : index.bytesBefore index.size = index.recordBytes := by
  rw [bytesBefore, size, List.take_length]

/-- No more bytes stand before an ordinal than there are. -/
theorem Index.bytesBefore_le (index : Index) (ordinal : Nat) :
    index.bytesBefore ordinal ≤ index.recordBytes := by
  rw [bytesBefore_eq, recordBytes_eq_extent]
  exact extent_take_le _ _

namespace Lookup

/-! ## 1. Where building stops -/

/-- The entry with this ordinal has a key that has occurred before. -/
def Repeats (index : Index) (n : Nat) : Prop :=
  ∃ e, index.get? n = some e ∧ e.key ∈ (index.entries.take n).map Entry.key

/-- The record with this ordinal ends where no offset of 64 bits leads. -/
def Overflows (start : Nat) (index : Index) (n : Nat) : Prop :=
  UInt64.size ≤ start + index.bytesBefore (n + 1)

/-- This is the first entry with a key that has occurred before or a record that ends too far
behind. -/
structure StopsAt (start : Nat) (index : Index) (n : Nat) : Prop where
  lt : n < index.size
  stops : Repeats index n ∨ Overflows start index n
  first : ∀ m < n, ¬ (Repeats index m ∨ Overflows start index m)

variable {start : Nat} {index : Index} {n : Nat}

/-- The keys of a front of the entries, with one more. -/
theorem map_key_take_succ {e : Entry} (he : index.get? n = some e) :
    (index.entries.take (n + 1)).map Entry.key
      = (index.entries.take n).map Entry.key ++ [e.key] := by
  rw [Index.get?] at he
  rw [List.take_add_one, he, List.map_append]
  rfl

/-- **Nothing stops building in a front of the entries** when their keys are distinct and their
records end below 2^64. -/
theorem unstopped_iff (hs : start < UInt64.size) (hn : n ≤ index.size) :
    (∀ m < n, ¬ (Repeats index m ∨ Overflows start index m)) ↔
      ((index.entries.take n).map Entry.key).Nodup ∧
        start + index.bytesBefore n < UInt64.size := by
  induction n with
  | zero => simpa [Index.bytesBefore, Index.recordBytes] using hs
  | succ n ih =>
    have ih := ih (Nat.le_of_succ_le hn)
    have he : index.get? n = some index.entries[n] := List.getElem?_eq_getElem hn
    have hbytes := Index.bytesBefore_succ he
    rw [map_key_take_succ he]
    constructor
    · intro h
      obtain ⟨hd, -⟩ := ih.mp fun m hm => h m (Nat.lt_succ_of_lt hm)
      obtain ⟨hnew, hend⟩ := not_or.mp (h n (Nat.lt_succ_self n))
      rw [← List.concat_eq_append, List.nodup_concat]
      exact ⟨⟨fun hmem => hnew ⟨_, he, hmem⟩, hd⟩, Nat.lt_of_not_le hend⟩
    · rintro ⟨hd, hend⟩ m hm
      obtain ⟨hapart, hfront⟩ := (List.nodup_concat _ _).mp (List.concat_eq_append ▸ hd)
      rcases Nat.lt_succ_iff_lt_or_eq.mp hm with hm | rfl
      · exact ih.mpr ⟨hfront, by omega⟩ m hm
      · rintro (⟨e, he', hmem⟩ | hover)
        · obtain rfl := Option.some.inj (he.symm.trans he')
          exact hapart hmem
        · exact absurd hend (Nat.not_lt_of_le hover)

/-- Building either stops somewhere, or there is nothing to stop it. -/
theorem exists_stopsAt (hs : start < UInt64.size)
    (h : ¬ ((index.entries.map Entry.key).Nodup ∧ start + index.recordBytes < UInt64.size)) :
    ∃ n, StopsAt start index n := by
  classical
  have hsome : ∃ n, n < index.size ∧ (Repeats index n ∨ Overflows start index n) := by
    by_contra hnone
    have hwhole := (unstopped_iff hs (Nat.le_refl _)).mp fun m hm hstop => hnone ⟨m, hm, hstop⟩
    rw [Index.bytesBefore_size, Index.size, List.take_length] at hwhole
    exact h hwhole
  obtain ⟨hlt, hstops⟩ := Nat.find_spec hsome
  exact ⟨Nat.find hsome, hlt, hstops, fun m hm hstop =>
    Nat.find_min hsome hm ⟨Nat.lt_trans hm hlt, hstop⟩⟩

/-! ## 2. How building fails -/

/-- Building goes through a front of the entries first. -/
theorem appendAll_append (front back : List Entry) : ∀ (lookup : Lookup) (ordinal : Nat),
    lookup.appendAll ordinal (front ++ back)
      = (lookup.appendAll ordinal front) >>= (·.appendAll (ordinal + front.length) back) := by
  induction front with
  | nil => intros; rfl
  | cons e front ih =>
    intro lookup ordinal
    simp only [List.cons_append, appendAll]
    cases lookup.append ordinal e with
    | error error => rfl
    | ok next =>
      simp only [ih, List.length_cons]
      rw [Nat.add_assoc, Nat.add_comm 1]

/-- What is built of a front of the entries, the rest is entered into. -/
theorem build_append (front back : List Entry) (start : Nat) :
    build ⟨front ++ back⟩ start = build ⟨front⟩ start >>= (·.appendAll front.length back) := by
  rw [build, appendAll_append, Nat.zero_add]
  rfl

/-- A step fails on the key before it fails on the size. -/
theorem append_layout_of_mem {spans : List Span} {e : Entry} (hk : e.key ∈ spans.map Span.key)
    (ordinal : Nat) :
    (layout start spans).append ordinal e = .error (.index (.duplicateKey ordinal)) := by
  rw [append, if_pos (contains_layout.mpr hk)]

theorem append_layout_of_le {spans : List Span} {e : Entry} (hk : e.key ∉ spans.map Span.key)
    (hs : UInt64.size ≤ start + extent spans + e.size.toNat) (ordinal : Nat) :
    (layout start spans).append ordinal e = .error (.index .offsetOverflow) := by
  rw [append, if_neg fun hc => hk (contains_layout.mp hc), layout_endOffset, if_pos hs]

/-- **Where building stops, it fails**: on the key, if that has occurred before, and otherwise on
the size. -/
theorem build_of_stopsAt (hs : start < UInt64.size) (h : StopsAt start index n) :
    (Repeats index n → build index start = .error (.index (.duplicateKey n))) ∧
      (¬ Repeats index n → build index start = .error (.index .offsetOverflow)) := by
  have hlt : n < index.entries.length := h.lt
  have he : index.get? n = some index.entries[n] := List.getElem?_eq_getElem hlt
  obtain ⟨hd, hend⟩ := (unstopped_iff hs (Nat.le_of_lt hlt)).mp h.first
  -- up to this entry all goes well
  have hfront : build ⟨index.entries.take n⟩ start
      = .ok (layout start ((index.entries.take n).map Entry.span)) := by
    refine build_of_nodup hd ?_
    rw [← recordBytes_eq_extent]
    exact hend
  have hbuild : build index start
      = (layout start ((index.entries.take n).map Entry.span)).appendAll n
        (index.entries[n] :: index.entries.drop (n + 1)) :=
    calc build index start
      _ = build ⟨index.entries.take n ++ (index.entries[n] :: index.entries.drop (n + 1))⟩ start := by
        rw [List.getElem_cons_drop, List.take_append_drop]
      _ = _ := by
        rw [build_append, hfront, List.length_take_of_le (Nat.le_of_lt hlt)]
        rfl
  have hkeys : ((index.entries.take n).map Entry.span).map Span.key
      = (index.entries.take n).map Entry.key := map_key_span _
  constructor
  · rintro ⟨e, he', hmem⟩
    obtain rfl := Option.some.inj (he.symm.trans he')
    rw [hbuild, appendAll, append_layout_of_mem (hkeys ▸ hmem)]
  · intro hnew
    have hk : index.entries[n].key ∉ ((index.entries.take n).map Entry.span).map Span.key :=
      fun hmem => hnew ⟨_, he, hkeys ▸ hmem⟩
    have hover : UInt64.size ≤ start + index.bytesBefore (n + 1) := h.stops.resolve_left hnew
    rw [Index.bytesBefore_succ he, Index.bytesBefore_eq, ← List.map_take, ← Nat.add_assoc] at hover
    rw [hbuild, appendAll, append_layout_of_le hk hover]

/-! ## 3. What is built -/

/-- No two places of a layout have the same ordinal. -/
theorem eq_of_mem_places {spans : List Span} {a b : Bytes × Slot} (ha : a ∈ places 0 start spans)
    (hb : b ∈ places 0 start spans) (h : a.2.ordinal = b.2.ordinal) : a = b := by
  obtain ⟨i, hi⟩ := List.mem_iff_getElem?.mp ha
  obtain ⟨j, hj⟩ := List.mem_iff_getElem?.mp hb
  rw [getElem?_places, Option.map_eq_some_iff] at hi hj
  obtain ⟨s, hs, rfl⟩ := hi
  obtain ⟨t, ht, rfl⟩ := hj
  obtain rfl : i = j := by simpa only [Nat.zero_add] using h
  obtain rfl := Option.some.inj (hs.symm.trans ht)
  rfl

/-- **Sorting tells nothing of the order in which a table holds the places.** -/
theorem snapshot_of_perm {spans : List Span} {slots : List (Bytes × Slot)}
    (h : slots.Perm (places 0 start spans)) (endOffset : Nat) :
    snapshot ⟨slots, endOffset⟩ = places 0 start spans := by
  have hsorted : (snapshot ⟨slots, endOffset⟩).Pairwise fun a b => a.2.ordinal ≤ b.2.ordinal := by
    refine (List.pairwise_mergeSort ?_ ?_ slots).imp of_decide_eq_true
    · intro a b c hab hbc
      exact decide_eq_true (Nat.le_trans (of_decide_eq_true hab) (of_decide_eq_true hbc))
    · intro a b
      rw [Bool.or_eq_true, decide_eq_true_iff, decide_eq_true_iff]
      exact Nat.le_total _ _
  have hperm : (snapshot ⟨slots, endOffset⟩).Perm (places 0 start spans) :=
    (List.mergeSort_perm _ _).trans h
  refine hperm.eq_of_pairwise ?_ hsorted (pairwise_places spans 0 start)
  intro a b ha hb hab hba
  exact eq_of_mem_places (hperm.mem_iff.mp ha) hb (Nat.le_antisymm hab hba)

/-- The lookup gives the places of the records of an index, the first of which stands at
`start`. -/
structure Describes (lookup : Lookup) (index : Index) (start : Nat) : Prop where
  /-- A key has the place of its entry. -/
  place : ∀ key slot, lookup.get? key = some slot ↔
    ∃ e, index.get? slot.ordinal = some e ∧ e.key = key ∧
      slot.offset = start + index.bytesBefore slot.ordinal
  /-- Other keys have none. -/
  missing : ∀ key, lookup.get? key = none ↔ key ∉ index.entries.map Entry.key
  ends : lookup.endOffset = start + index.recordBytes
  size : lookup.size = index.size
  /-- The places come in the order of the ordinals, one for each entry, whatever order the table
  holds them in. -/
  snapshot : ∀ slots, slots.Perm lookup.slots → ∀ n,
    (Lookup.snapshot ⟨slots, lookup.endOffset⟩)[n]? = (index.get? n).map fun e =>
      (e.key, Slot.mk n (start + index.bytesBefore n))

/-- **A layout describes its index.** -/
theorem describes_layout (hd : (index.entries.map Entry.key).Nodup) (start : Nat) :
    (layout start (index.entries.map Entry.span)).Describes index start where
  place := by
    intro key slot
    rw [get?_layout (by rw [map_key_span]; exact hd), Index.bytesBefore_eq, Index.get?,
      List.getElem?_map]
    constructor
    · rintro ⟨s, hs, hk, ho⟩
      obtain ⟨e, he, rfl⟩ := Option.map_eq_some_iff.mp hs
      exact ⟨e, he, hk, ho⟩
    · rintro ⟨e, he, hk, ho⟩
      exact ⟨e.span, by rw [he]; rfl, hk, ho⟩
  missing := by
    intro key
    rw [← map_key_span, ← @contains_layout start, contains, Option.not_isSome_iff_eq_none]
  ends := by rw [layout_endOffset, recordBytes_eq_extent]
  size := by rw [size, layout, length_places, List.length_map, Index.size]
  snapshot := by
    intro slots hperm n
    rw [snapshot_of_perm hperm, getElem?_places, Index.bytesBefore_eq, Index.get?, List.getElem?_map,
      Option.map_map, Nat.zero_add]
    rfl

/-- **Building is exact.**  It succeeds when the keys are distinct and the last record ends below
2^64, and then the lookup describes the index.  Otherwise there is a first entry that stops it; it
fails there, on the key if that has occurred before, and on the size if not. -/
theorem build_exact (index : Index) (start : UInt64) :
    ((∃ lookup, build index start.toNat = .ok lookup) ↔
      (index.entries.map Entry.key).Nodup ∧ start.toNat + index.recordBytes < UInt64.size) ∧
    (∀ lookup, build index start.toNat = .ok lookup → lookup.Describes index start.toNat) ∧
    (¬ ((index.entries.map Entry.key).Nodup ∧ start.toNat + index.recordBytes < UInt64.size) →
      ∃ n, StopsAt start.toNat index n) ∧
    ∀ n, StopsAt start.toNat index n → ∃ error : IndexError,
      build index start.toNat = .error (.index error) ∧
      (Repeats index n → error.message = "duplicate key at ordinal " ++ toString n) ∧
      (¬ Repeats index n → error.message = "record offsets overflow") := by
  have hs : start.toNat < UInt64.size := start.toNat_lt
  refine ⟨⟨?_, ?_⟩, ?_, exists_stopsAt hs, ?_⟩
  · rintro ⟨lookup, h⟩
    obtain ⟨hd, rfl, hend⟩ := build_eq_ok h
    rw [recordBytes_eq_extent]
    exact ⟨hd, hend hs⟩
  · rintro ⟨hd, hend⟩
    rw [recordBytes_eq_extent] at hend
    exact ⟨_, build_of_nodup hd hend⟩
  · intro lookup h
    obtain ⟨hd, rfl, -⟩ := build_eq_ok h
    exact describes_layout hd start.toNat
  · intro n hstops
    obtain ⟨hrepeats, hoverflows⟩ := build_of_stopsAt hs hstops
    by_cases hr : Repeats index n
    · exact ⟨.duplicateKey n, hrepeats hr, fun _ => rfl, fun hn => absurd hr hn⟩
    · exact ⟨.offsetOverflow, hoverflows hr, fun hy => absurd hy hr, fun _ => rfl⟩

/-- Two entries of one key, the second of which is also too long for its place. -/
def twice : Index := ⟨[⟨[0x61], 1, 8, none⟩, ⟨[0x61], 2, 8, none⟩]⟩

/-- The entry that repeats a key is the one to stop at, and the key is what is noticed. -/
theorem build_twice_at_limit : StopsAt 18446744073709551613 twice 1 ∧
    Overflows 18446744073709551613 twice 1 ∧
    ∃ error : IndexError, build twice 18446744073709551613 = .error (.index error) ∧
      error.message = "duplicate key at ordinal 1" := by
  have hrepeats : Repeats twice 1 := ⟨⟨[0x61], 2, 8, none⟩, rfl, by decide⟩
  have hstops : StopsAt 18446744073709551613 twice 1 := by
    refine ⟨by decide, .inl hrepeats, ?_⟩
    rintro m hm (⟨e, -, hmem⟩ | hover)
    · obtain rfl := Nat.lt_one_iff.mp hm
      exact absurd hmem List.not_mem_nil
    · obtain rfl := Nat.lt_one_iff.mp hm
      exact absurd hover (by unfold Overflows; decide)
  obtain ⟨error, hbuild, hkey, -⟩ := (build_exact twice 18446744073709551613).2.2.2 1 hstops
  have hover : Overflows 18446744073709551613 twice 1 := by unfold Overflows; decide
  exact ⟨hstops, hover, error, hbuild, hkey hrepeats⟩

end Lookup
end ConstStore
