/-
# Codecs read exactly what they write

`Codec.Exact` is proved for numbers, truth values, byte strings and texts, and for optional values,
pairs and lists: a codec for compound values is exact where its parts are.  So the codec of a list
of entries is exact for the lists whose lengths fit into 64 bits.

* `entries_exact`: the format of the index.
* `entries_fitsByLength`: all lists of entries are such lists that are written with no more than a
  64-bit number of bytes.
* `Exact.read_eq_ok_iff`: a value is read just where it is written in front.
* `Exact.eq_of_prefix`, `Exact.read_cut`: so no value is the front of another, and a value that is
  cut cannot be read.
-/
import ConstStore.Index

namespace ConstStore

/-- A byte string is a text just where it is the bytes of that text. -/
theorem Utf8.text?_eq_some_iff {bytes : Bytes} {text : String} :
    Utf8.text? bytes = some text ↔ bytes = Utf8.bytes text := by
  rw [Utf8.text?, String.fromUTF8?]
  constructor
  · intro h
    split at h
    · rw [← Option.some.inj h]
      rfl
    · exact absurd h (by simp)
  · rintro rfl
    exact dif_pos text.isValidUTF8

namespace Codec

variable {α β : Type}

/-! ## 1. Numbers and byte strings -/

/-- The numbers of eight bytes are those below the size of a 64-bit word. -/
theorem capacity_eight : Bytes.capacity 8 = UInt64.size := by decide

/-- A number is read exactly where it stands in front. -/
theorem readNat_eq_ok_iff {width n : Nat} {input rest : Bytes} :
    readNat width input = .ok (n, rest) ↔
      n < Bytes.capacity width ∧ input = Bytes.ofNat width n ++ rest := by
  constructor
  · intro h
    unfold readNat Bytes.splitNat? at h
    cases hsplit : Bytes.split? width input with
    | none => simp [hsplit] at h
    | some read =>
      obtain ⟨front, rest'⟩ := read
      obtain ⟨rfl, hlen⟩ := Bytes.split?_eq_some_iff.mp hsplit
      simp only [hsplit, Option.map_some, Except.ok.injEq, Prod.mk.injEq] at h
      obtain ⟨rfl, rfl⟩ := h
      subst hlen
      exact ⟨Bytes.toNat_lt front, by rw [Bytes.ofNat_toNat]⟩
  · rintro ⟨hn, rfl⟩
    have hsplit := Bytes.split?_append rest (Bytes.length_ofNat width n)
    simp only [readNat, Bytes.splitNat?, hsplit, Option.map_some, Bytes.toNat_ofNat,
      Nat.mod_eq_of_lt hn]

theorem readLength_eq_ok_iff {n : Nat} {input rest : Bytes} :
    readLength input = .ok (n, rest) ↔ n < UInt64.size ∧ input = writeLength n ++ rest := by
  rw [readLength, readNat_eq_ok_iff, capacity_eight, writeLength]

/-- A codec for the numbers of a fixed width. -/
theorem number_exact {codec : Codec α} {width : Nat} {toNat : α → Nat} {ofNat : Nat → α}
    (hencode : ∀ value, codec.encode value = Bytes.ofNat width (toNat value))
    (hdecode : ∀ input, codec.decode input = do
      let (n, rest) ← readNat width input
      return (ofNat n, rest))
    (hlt : ∀ value, toNat value < Bytes.capacity width) (hofNat : ∀ value, ofNat (toNat value) = value)
    (htoNat : ∀ n, n < Bytes.capacity width → toNat (ofNat n) = n) :
    Exact codec fun _ => True := by
  intro input value rest
  simp only [hdecode, hencode, Fallible.bind_eq_ok, Prod.exists, readNat_eq_ok_iff, true_and]
  constructor
  · rintro ⟨n, rest', ⟨hn, rfl⟩, h⟩
    obtain ⟨rfl, rfl⟩ := Prod.mk.inj (Fallible.pure_eq_ok.mp h)
    rw [htoNat n hn]
  · rintro rfl
    exact ⟨toNat value, rest, ⟨hlt value, rfl⟩, by rw [hofNat]; rfl⟩

theorem u32_exact : Exact u32 fun _ => True :=
  number_exact (fun _ => rfl) (fun _ => rfl) UInt32.toNat_lt (fun _ => UInt32.ofNat_toNat)
    (fun _ => UInt32.toNat_ofNat_of_lt')

theorem u64_exact : Exact u64 fun _ => True :=
  number_exact (fun _ => rfl) (fun _ => rfl) UInt64.toNat_lt (fun _ => UInt64.ofNat_toNat)
    (fun _ => UInt64.toNat_ofNat_of_lt')

theorem bytes_exact : Exact bytes fun value => value.length < UInt64.size := by
  intro input value rest
  simp only [bytes, Fallible.bind_eq_ok, Prod.exists, readLength_eq_ok_iff]
  constructor
  · rintro ⟨n, rest', ⟨hn, rfl⟩, h⟩
    cases hsplit : Bytes.split? n rest' with
    | none => simp only [hsplit] at h; exact absurd h Fallible.throw_ne_ok
    | some read =>
      simp only [hsplit] at h
      obtain rfl := Fallible.pure_eq_ok.mp h
      obtain ⟨rfl, rfl⟩ := Bytes.split?_eq_some_iff.mp hsplit
      exact ⟨hn, by rw [List.append_assoc]⟩
  · rintro ⟨hn, rfl⟩
    refine ⟨value.length, value ++ rest, ⟨hn, by rw [List.append_assoc]⟩, ?_⟩
    rw [Bytes.split?_append rest rfl]
    rfl

/-- A text is a byte string that has to be UTF-8. -/
theorem string_exact : Exact string fun value => (Utf8.bytes value).length < UInt64.size := by
  intro input value rest
  simp only [string, Fallible.bind_eq_ok, Prod.exists, readLength_eq_ok_iff]
  constructor
  · rintro ⟨n, rest', ⟨hn, rfl⟩, h⟩
    cases hsplit : Bytes.split? n rest' with
    | none => simp only [hsplit] at h; exact absurd h Fallible.throw_ne_ok
    | some read =>
      obtain ⟨text, behind⟩ := read
      obtain ⟨rfl, rfl⟩ := Bytes.split?_eq_some_iff.mp hsplit
      simp only [hsplit] at h
      cases htext : Utf8.text? text with
      | none => simp only [htext] at h; exact absurd h Fallible.throw_ne_ok
      | some value' =>
        simp only [htext] at h
        obtain ⟨rfl, rfl⟩ := Prod.mk.inj (Fallible.pure_eq_ok.mp h)
        obtain rfl := Utf8.text?_eq_some_iff.mp htext
        exact ⟨hn, by rw [bytes, List.append_assoc]⟩
  · rintro ⟨hn, rfl⟩
    refine ⟨(Utf8.bytes value).length, Utf8.bytes value ++ rest,
      ⟨hn, by rw [bytes, List.append_assoc]⟩, ?_⟩
    simp only [Bytes.split?_append rest rfl, Utf8.text?_eq_some_iff.mpr rfl]
    rfl

/-! ## 2. Compound values -/

theorem Exact.map {codec : Codec α} {fits : α → Prop} (h : Exact codec fits) {forth : α → β}
    {back : β → α} (hforth : ∀ b, forth (back b) = b) (hback : ∀ a, back (forth a) = a) :
    Exact (codec.map forth back) fun b => fits (back b) := by
  intro input value rest
  simp only [Codec.map, Fallible.bind_eq_ok, Prod.exists, h input]
  constructor
  · rintro ⟨a, rest', ⟨ha, rfl⟩, hv⟩
    obtain ⟨rfl, rfl⟩ := Prod.mk.inj (Fallible.pure_eq_ok.mp hv)
    rw [hback]
    exact ⟨ha, rfl⟩
  · rintro ⟨hv, rfl⟩
    exact ⟨back value, rest, ⟨hv, rfl⟩, by rw [hforth]; rfl⟩

theorem Exact.pair {first : Codec α} {second : Codec β} {fits : α → Prop} {fits' : β → Prop}
    (h : Exact first fits) (h' : Exact second fits') :
    Exact (pair first second) fun value => fits value.1 ∧ fits' value.2 := by
  intro input value rest
  simp only [Codec.pair, Fallible.bind_eq_ok, Prod.exists, h input]
  constructor
  · rintro ⟨a, rest₁, ⟨ha, rfl⟩, b, rest₂, hd, hv⟩
    obtain ⟨hb, rfl⟩ := (h' _ _ _).mp hd
    obtain ⟨rfl, rfl⟩ := Prod.mk.inj (Fallible.pure_eq_ok.mp hv)
    exact ⟨⟨ha, hb⟩, by rw [List.append_assoc]⟩
  · rintro ⟨⟨ha, hb⟩, rfl⟩
    refine ⟨value.1, second.encode value.2 ++ rest, ⟨ha, by rw [List.append_assoc]⟩, ?_⟩
    exact ⟨value.2, rest, (h' _ _ _).mpr ⟨hb, rfl⟩, rfl⟩

theorem i64_exact : Exact i64 fun _ => True :=
  u64_exact.map Int64.toInt64_toUInt64 UInt64.toUInt64_toInt64

/-! ## 3. Tags -/

/-- A tag is a byte. -/
theorem u8_decode_eq_ok_iff {input rest : Bytes} {tag : UInt8} :
    u8.decode input = .ok (tag, rest) ↔ input = tag :: rest := by
  cases input <;> simp [u8]

theorem bool_exact : Exact bool fun _ => True := by
  intro input value rest
  simp only [bool, Fallible.bind_eq_ok, Prod.exists, u8_decode_eq_ok_iff, true_and]
  constructor
  · rintro ⟨tag, rest', rfl, hd⟩
    split at hd
    · rename_i htag
      obtain ⟨rfl, rfl⟩ := Prod.mk.inj (Fallible.pure_eq_ok.mp hd)
      rw [show tag = 0 from UInt8.toNat_inj.mp htag]
      rfl
    · rename_i htag
      obtain ⟨rfl, rfl⟩ := Prod.mk.inj (Fallible.pure_eq_ok.mp hd)
      rw [show tag = 1 from UInt8.toNat_inj.mp htag]
      rfl
    · exact absurd hd Fallible.throw_ne_ok
  · rintro rfl
    cases value with
    | false => exact ⟨0, rest, rfl, rfl⟩
    | true => exact ⟨1, rest, rfl, rfl⟩

/-- The tag decides which of the two forms was written. -/
theorem Exact.option {codec : Codec α} {fits : α → Prop} (h : Exact codec fits) :
    Exact (option codec) fun value => ∀ a, value = some a → fits a := by
  intro input value rest
  simp only [Codec.option, Fallible.bind_eq_ok, Prod.exists, u8_decode_eq_ok_iff]
  constructor
  · rintro ⟨tag, rest', rfl, hd⟩
    split at hd
    · rename_i htag
      obtain ⟨rfl, rfl⟩ := Prod.mk.inj (Fallible.pure_eq_ok.mp hd)
      rw [show tag = 0 from UInt8.toNat_inj.mp htag]
      exact ⟨fun a ha => absurd ha (by simp), rfl⟩
    · rename_i htag
      obtain ⟨⟨a, behind⟩, hc, hp⟩ := Fallible.bind_eq_ok.mp hd
      obtain ⟨ha, rfl⟩ := (h _ _ _).mp hc
      obtain ⟨rfl, rfl⟩ := Prod.mk.inj (Fallible.pure_eq_ok.mp hp)
      rw [show tag = 1 from UInt8.toNat_inj.mp htag]
      exact ⟨fun b hb => Option.some.inj hb ▸ ha, rfl⟩
    · exact absurd hd Fallible.throw_ne_ok
  · rintro ⟨hv, rfl⟩
    cases value with
    | none => exact ⟨0, rest, rfl, rfl⟩
    | some a =>
      refine ⟨1, codec.encode a ++ rest, rfl, ?_⟩
      exact Fallible.bind_eq_ok.mpr ⟨(a, rest), (h _ _ _).mpr ⟨hv a rfl, rfl⟩, rfl⟩

/-! ## 4. Lists -/

/-- Reading `count` values one behind the other. -/
theorem readMany_eq_ok_iff {codec : Codec α} {fits : α → Prop} (h : Exact codec fits) :
    ∀ (count : Nat) (read : List α) (input : Bytes) (values : List α) (rest : Bytes),
      readMany codec count read input = .ok (values, rest) ↔
        ∃ more, values = read.reverse ++ more ∧ more.length = count ∧ (∀ a ∈ more, fits a) ∧
          input = more.flatMap codec.encode ++ rest
  | 0, read, input, values, rest => by
    simp only [readMany, Except.ok.injEq, Prod.mk.injEq, List.length_eq_zero_iff]
    constructor
    · rintro ⟨rfl, rfl⟩
      exact ⟨[], by simp, rfl, by simp, by simp⟩
    · rintro ⟨_, rfl, rfl, -, rfl⟩
      simp
  | count + 1, read, input, values, rest => by
    constructor
    · intro hr
      simp only [readMany] at hr
      split at hr
      · exact absurd hr (by simp)
      · rename_i a rest' hd
        obtain ⟨ha, rfl⟩ := (h _ _ _).mp hd
        obtain ⟨more, rfl, rfl, hm, rfl⟩ := (readMany_eq_ok_iff h count _ _ _ _).mp hr
        refine ⟨a :: more, by simp, rfl, ?_, by simp⟩
        simpa using ⟨ha, hm⟩
    · rintro ⟨more, rfl, hlen, hm, rfl⟩
      cases more with
      | nil => exact absurd hlen (by simp)
      | cons a more =>
        have hd : codec.decode ((a :: more).flatMap codec.encode ++ rest)
            = .ok (a, more.flatMap codec.encode ++ rest) :=
          (h _ _ _).mpr ⟨hm a (by simp), by simp⟩
        simp only [readMany, hd]
        refine (readMany_eq_ok_iff h count _ _ _ _).mpr
          ⟨more, by simp, by simpa using hlen, ?_, rfl⟩
        exact fun b hb => hm b (List.mem_cons_of_mem a hb)

theorem Exact.list {codec : Codec α} {fits : α → Prop} (h : Exact codec fits) :
    Exact (list codec) fun values => values.length < UInt64.size ∧ ∀ a ∈ values, fits a := by
  intro input values rest
  simp only [Codec.list, Fallible.bind_eq_ok, Prod.exists, readLength_eq_ok_iff]
  constructor
  · rintro ⟨n, rest', ⟨hn, rfl⟩, hr⟩
    obtain ⟨more, rfl, rfl, hm, rfl⟩ := (readMany_eq_ok_iff h _ _ _ _ _).mp hr
    exact ⟨⟨hn, hm⟩, by simp⟩
  · rintro ⟨⟨hn, hm⟩, rfl⟩
    refine ⟨values.length, values.flatMap codec.encode ++ rest, ⟨hn, by rw [List.append_assoc]⟩, ?_⟩
    exact (readMany_eq_ok_iff h _ _ _ _ _).mpr ⟨values, rfl, rfl, hm, rfl⟩

/-! ## 5. Values of bounded length -/

/-- **Every value fits that is written with no more than a 64-bit number of bytes.**  A length that
is written stands for bytes that are written as well. -/
def FitsByLength (codec : Codec α) (fits : α → Prop) : Prop :=
  ∀ value, (codec.encode value).length < UInt64.size → fits value

/-- A byte string is written behind its length, and so never as nothing. -/
theorem length_bytes_pos (value : Bytes) : 0 < (bytes.encode value).length := by
  rw [bytes, List.length_append, writeLength, Bytes.length_ofNat]
  omega

theorem length_pair_pos {first : Codec α} {second : Codec β}
    (h : ∀ a, 0 < (first.encode a).length) (value : α × β) :
    0 < ((pair first second).encode value).length := by
  have := h value.1
  rw [pair, List.length_append]
  omega

theorem bytes_fitsByLength : FitsByLength bytes fun value => value.length < UInt64.size := by
  intro value h
  rw [bytes, List.length_append] at h
  omega

theorem string_fitsByLength :
    FitsByLength string fun value => (Utf8.bytes value).length < UInt64.size :=
  fun value h => bytes_fitsByLength (Utf8.bytes value) h

namespace FitsByLength

theorem map {codec : Codec α} {fits : α → Prop} (h : FitsByLength codec fits) (forth : α → β)
    (back : β → α) : FitsByLength (codec.map forth back) fun b => fits (back b) :=
  fun value hlen => h (back value) hlen

theorem pair {first : Codec α} {second : Codec β} {fits : α → Prop} {fits' : β → Prop}
    (h : FitsByLength first fits) (h' : FitsByLength second fits') :
    FitsByLength (pair first second) fun value => fits value.1 ∧ fits' value.2 := by
  intro value hlen
  rw [Codec.pair, List.length_append] at hlen
  exact ⟨h value.1 (by omega), h' value.2 (by omega)⟩

theorem option {codec : Codec α} {fits : α → Prop} (h : FitsByLength codec fits) :
    FitsByLength (option codec) fun value => ∀ a, value = some a → fits a := by
  rintro value hlen a rfl
  exact h a (Nat.lt_of_succ_lt hlen)

/-- Values that are not written as nothing are no more than their bytes. -/
theorem length_le_flatMap {codec : Codec α} (hpos : ∀ value, 0 < (codec.encode value).length)
    (values : List α) : values.length ≤ (values.flatMap codec.encode).length := by
  induction values with
  | nil => exact Nat.zero_le _
  | cons a values ih =>
    have := hpos a
    rw [List.flatMap_cons, List.length_append, List.length_cons]
    omega

theorem list {codec : Codec α} {fits : α → Prop} (h : FitsByLength codec fits)
    (hpos : ∀ value, 0 < (codec.encode value).length) :
    FitsByLength (list codec) fun values =>
      values.length < UInt64.size ∧ ∀ a ∈ values, fits a := by
  intro values hlen
  rw [Codec.list, List.length_append] at hlen
  have hcount := length_le_flatMap hpos values
  refine ⟨by omega, fun a ha => h a ?_⟩
  have hmem : (codec.encode a).length ≤ (values.flatMap codec.encode).length :=
    (List.sublist_flatten_of_mem (List.mem_map_of_mem ha)).length_le
  omega

end FitsByLength

/-! ## 6. The entries of an index -/

/-- The key and the metadata of an entry have lengths that can be written. -/
def EntryFits (e : Entry) : Prop :=
  e.key.length < UInt64.size ∧ ∀ metadata, e.metadata = some metadata →
    metadata.length < UInt64.size

/-- So have a list of such entries and each of them. -/
def EntriesFit (entries : List Entry) : Prop :=
  entries.length < UInt64.size ∧ ∀ e ∈ entries, EntryFits e

theorem entry_exact : Exact entry EntryFits := by
  have h : Exact entry _ :=
    (bytes_exact.pair (u64_exact.pair (u64_exact.pair bytes_exact.option))).map
      (fun _ => rfl) (fun _ => rfl)
  intro input e rest
  refine (h input e rest).trans ?_
  simp only [EntryFits, true_and]

/-- **The format of an index is exact.** -/
theorem entries_exact : Exact entries EntriesFit := entry_exact.list

theorem entry_fitsByLength : FitsByLength entry EntryFits := by
  have hnumber : FitsByLength u64 fun _ => True := fun _ _ => trivial
  have h : FitsByLength entry _ :=
    (bytes_fitsByLength.pair (hnumber.pair (hnumber.pair bytes_fitsByLength.option))).map _ _
  intro e hlen
  obtain ⟨hkey, -, -, hmetadata⟩ := h e hlen
  exact ⟨hkey, hmetadata⟩

/-- **An index fits into the format** when it has a length of 64 bits. -/
theorem entries_fitsByLength : FitsByLength entries EntriesFit :=
  entry_fitsByLength.list fun _ => length_pair_pos length_bytes_pos _

/-! ## 7. Whole values -/

variable {codec : Codec α} {fits : α → Prop} {value other : α} {input front : Bytes}

/-- **What is written is read back**, whatever follows it. -/
theorem Exact.read_encode (h : Exact codec fits) (hv : fits value) (rest : Bytes) :
    codec.read (codec.encode value ++ rest) = .ok value := by
  rw [read, (h _ _ _).mpr ⟨hv, rfl⟩]
  rfl

/-- **A value is read just where it is written in front**, and no other value is read there. -/
theorem Exact.read_eq_ok_iff (h : Exact codec fits) :
    codec.read input = .ok value ↔ fits value ∧ ∃ rest, input = codec.encode value ++ rest := by
  constructor
  · intro hread
    obtain ⟨⟨value', rest⟩, hdecode, rfl⟩ := Fallible.map_eq_ok.mp hread
    obtain ⟨hv, hinput⟩ := (h _ _ _).mp hdecode
    exact ⟨hv, rest, hinput⟩
  · rintro ⟨hv, rest, rfl⟩
    exact h.read_encode hv rest

/-- **No value is written as the front of another one**, and no two are written the same way. -/
theorem Exact.eq_of_prefix (h : Exact codec fits) (hv : fits value) (ho : fits other)
    (hp : codec.encode value <+: codec.encode other) : value = other := by
  obtain ⟨more, hmore⟩ := hp
  have hread := h.read_encode hv more
  have hread' := h.read_encode ho []
  rw [List.append_nil, ← hmore, hread] at hread'
  exact Except.ok.inj hread'

/-- **A value that is cut cannot be read.** -/
theorem Exact.read_cut (h : Exact codec fits) (hv : fits value)
    (hp : front <+: codec.encode value) (hne : front ≠ codec.encode value) :
    ∃ fault, codec.read front = .error fault := by
  cases hread : codec.read front with
  | error fault => exact ⟨fault, rfl⟩
  | ok other =>
    -- another value in front would be written as the front of this one
    obtain ⟨ho, rest, rfl⟩ := h.read_eq_ok_iff.mp hread
    obtain rfl := h.eq_of_prefix ho hv ((List.prefix_append _ _).trans hp)
    exact absurd (hp.eq_of_length_le (by simp)) hne

end Codec
end ConstStore
