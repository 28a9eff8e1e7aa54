/-
# Typed values

A store keeps byte strings.  Programs keep values of a few types in it, each with a codec of its
own.  The codecs accept exactly what they write: a value is read where the bytes start with those
that are written for it, which therefore are no front of what is written for another value.

* `ValueType.layout`: what is written for a value, byte for byte.
* `Codec.AcceptsOwn`: what it means for a codec to accept what it writes and nothing else.
* `ValueType.acceptsOwn`: the codec of every type of values does.
-/
import ConstStore.Artifact
import ConstStore.Proofs.Codec

namespace ConstStore

/-! ## 1. Types of values -/

/-- The types of the values that are kept in stores. -/
inductive ValueType where
  | u32 | u64 | i64 | bool | string | optionalString | bytes | message | rendered
  deriving Repr, DecidableEq

namespace ValueType

/-- The values of a type. -/
def Value : ValueType → Type
  | u32 => UInt32
  | u64 => UInt64
  | i64 => Int64
  | bool => Bool
  | string => String
  | optionalString => Option String
  | bytes => Bytes
  | message => Message
  | rendered => Rendered

def codec : (type : ValueType) → Codec type.Value
  | u32 => .u32
  | u64 => .u64
  | i64 => .i64
  | bool => .bool
  | string => .string
  | optionalString => .option .string
  | bytes => .bytes
  | message => .message
  | rendered => .rendered

/-- A text whose length has 64 bits. -/
def TextFits (text : String) : Prop := (Utf8.bytes text).length < UInt64.size

/-- All lengths in a value have 64 bits. -/
def Fits : (type : ValueType) → type.Value → Prop
  | u32, _ | u64, _ | i64, _ | bool, _ => True
  | string, (text : String) => TextFits text
  | optionalString, (text : Option String) => ∀ t, text = some t → TextFits t
  | bytes, (value : Bytes) => value.length < UInt64.size
  | message, (m : Message) => TextFits m.lang ∧ m.strings.length < UInt64.size ∧
      ∀ pair ∈ m.strings, TextFits pair.1 ∧ TextFits pair.2
  | rendered, (r : Rendered) => TextFits r.title ∧ TextFits r.html ∧ r.links.length < UInt64.size

/-! ## 2. The layout -/

/-- A number of eight bytes. -/
def wordLayout (n : Nat) : Bytes := Bytes.ofNat 8 n

/-- A text behind its length. -/
def textLayout (text : String) : Bytes := wordLayout (Utf8.bytes text).length ++ Utf8.bytes text

/-- **What is written for a value.**  Numbers are little-endian and have the width of their type,
negative ones in two's complement; a truth value and the presence of an optional one take a byte;
texts, byte strings and lists stand behind their lengths, and compound values are their parts. -/
def layout : (type : ValueType) → type.Value → Bytes
  | u32, (n : UInt32) => Bytes.ofNat 4 n.toNat
  | u64, (n : UInt64) => wordLayout n.toNat
  | i64, (n : Int64) => wordLayout (n.toInt % UInt64.size).toNat
  | bool, (b : Bool) => [if b then 1 else 0]
  | string, (text : String) => textLayout text
  | optionalString, (none : Option String) => [0]
  | optionalString, some (text : String) => 1 :: textLayout text
  | bytes, (value : Bytes) => wordLayout value.length ++ value
  | message, (m : Message) => textLayout m.lang ++ wordLayout m.strings.length ++
      m.strings.flatMap fun pair => textLayout pair.1 ++ textLayout pair.2
  | rendered, (r : Rendered) => textLayout r.title ++ textLayout r.html ++
      wordLayout r.links.length ++ r.links.flatMap fun n => Bytes.ofNat 4 n.toNat

/-- The number of a negative integer is its remainder. -/
theorem toNat_toUInt64 (n : Int64) : n.toUInt64.toNat = (n.toInt % UInt64.size).toNat :=
  calc n.toUInt64.toNat
    _ = (BitVec.ofInt 64 n.toBitVec.toInt).toNat := by rw [BitVec.ofInt_toInt]; rfl
    _ = (n.toInt % UInt64.size).toNat := BitVec.toNat_ofInt _

/-- The codecs write values in this layout. -/
theorem encode_eq_layout (type : ValueType) (value : type.Value) :
    type.codec.encode value = type.layout value := by
  cases type with
  | u32 | u64 | bool | string | bytes => rfl
  | i64 => exact congrArg wordLayout (toNat_toUInt64 value)
  | optionalString => cases value <;> rfl
  | message => exact (List.append_assoc _ _ _).symm
  | rendered =>
    refine Eq.trans ?_ (List.append_assoc _ _ _).symm
    exact (List.append_assoc _ _ _).symm

/-! ## 3. Exactness -/

/-- **The codec of every type is exact.** -/
theorem exact (type : ValueType) : Codec.Exact type.codec type.Fits := by
  cases type with
  | u32 => exact Codec.u32_exact
  | u64 => exact Codec.u64_exact
  | i64 => exact Codec.i64_exact
  | bool => exact Codec.bool_exact
  | string => exact Codec.string_exact
  | optionalString => exact Codec.string_exact.option
  | bytes => exact Codec.bytes_exact
  | message =>
    have h : Codec.Exact Codec.message _ :=
      (Codec.string_exact.pair (Codec.string_exact.pair Codec.string_exact).list).map
        (fun _ => rfl) (fun _ => rfl)
    exact h
  | rendered =>
    have h : Codec.Exact Codec.rendered _ :=
      (Codec.string_exact.pair (Codec.string_exact.pair Codec.u32_exact.list)).map
        (fun _ => rfl) (fun _ => rfl)
    intro input value rest
    refine (h input value rest).trans ?_
    simp only [implies_true, and_true]
    rfl

/-- Every value fits that is written with no more than a 64-bit number of bytes. -/
theorem fitsByLength (type : ValueType) : Codec.FitsByLength type.codec type.Fits := by
  have htext := Codec.string_fitsByLength
  cases type with
  | u32 | u64 | i64 | bool => exact fun _ _ => trivial
  | string => exact htext
  | optionalString => exact htext.option
  | bytes => exact Codec.bytes_fitsByLength
  | message =>
    have hpos : ∀ pair, 0 < ((Codec.string.pair Codec.string).encode pair).length :=
      Codec.length_pair_pos fun text => Codec.length_bytes_pos (Utf8.bytes text)
    have h : Codec.FitsByLength Codec.message _ :=
      (htext.pair ((htext.pair htext).list hpos)).map _ _
    exact h
  | rendered =>
    have hnumber : Codec.FitsByLength Codec.u32 fun _ => True := fun _ _ => trivial
    have hpos : ∀ n, 0 < (Codec.u32.encode n).length := fun n => by
      rw [Codec.u32, Bytes.length_ofNat]
      decide
    have h : Codec.FitsByLength Codec.rendered _ :=
      (htext.pair (htext.pair (hnumber.list hpos))).map _ _
    intro r hlen
    obtain ⟨htitle, hhtml, hlinks, -⟩ := h r hlen
    exact ⟨htitle, hhtml, hlinks⟩

end ValueType

/-! ## 4. Reading what is written -/

namespace Codec

variable {α : Type} {codec : Codec α} {fits : α → Prop} {bytes : Bytes} {value : α}

theorem deserialize_eq_ok_iff :
    codec.deserialize bytes = .ok value ↔ codec.read bytes = .ok value := by
  rw [deserialize]
  cases codec.read bytes with
  | error fault => exact ⟨nofun, nofun⟩
  | ok read => exact ⟨fun h => congrArg _ (Except.ok.inj h), fun h => congrArg _ (Except.ok.inj h)⟩

/-- What cannot be read does not decode. -/
theorem deserialize_eq_error {fault : Codec.Fault} (h : codec.read bytes = .error fault) :
    codec.deserialize bytes = .error (.decode (.value fault)) := by
  rw [deserialize, h]
  rfl

/-- **A codec accepts what it writes and nothing else.** -/
structure AcceptsOwn (codec : Codec α) (fits : α → Prop) : Prop where
  /-- A value is read just where the bytes start with those that are written for it. -/
  accepts : ∀ bytes value, codec.deserialize bytes = .ok value ↔
    fits value ∧ ∃ rest, bytes = codec.encode value ++ rest
  /-- Other bytes do not decode. -/
  refuses : ∀ bytes, (¬ ∃ value, fits value ∧ codec.encode value <+: bytes) →
    ∃ fault, codec.deserialize bytes = .error (.decode (.value fault))
  /-- What is written for a value is read as that value. -/
  undoes : ∀ value, fits value → codec.deserialize (codec.encode value) = .ok value
  /-- No two values are written the same way, and none as the front of another. -/
  prefixFree : ∀ value other, fits value → fits other →
    codec.encode value <+: codec.encode other → value = other
  /-- A value that is cut does not decode. -/
  cut : ∀ value, fits value → ∀ front, front <+: codec.encode value →
    front ≠ codec.encode value → ∃ fault, codec.deserialize front = .error (.decode (.value fault))

/-- **Exact codecs accept what they write and nothing else.** -/
theorem AcceptsOwn.of_exact (h : Exact codec fits) : AcceptsOwn codec fits where
  accepts bytes value := deserialize_eq_ok_iff.trans h.read_eq_ok_iff
  refuses bytes hnone := by
    cases hread : codec.read bytes with
    | error fault => exact ⟨fault, deserialize_eq_error hread⟩
    | ok value =>
      obtain ⟨hv, rest, rfl⟩ := h.read_eq_ok_iff.mp hread
      exact absurd ⟨value, hv, List.prefix_append _ _⟩ hnone
  undoes value hv := by
    have hread := h.read_encode hv []
    rw [List.append_nil] at hread
    exact deserialize_eq_ok_iff.mpr hread
  prefixFree value other hv ho hp := h.eq_of_prefix hv ho hp
  cut value hv front hp hne := by
    obtain ⟨fault, hread⟩ := h.read_cut hv hp hne
    exact ⟨fault, deserialize_eq_error hread⟩

end Codec

/-- **The codec of every type of values accepts what it writes and nothing else.**  What it writes
is the layout of the value; and the values that it cannot write are only those for which that would
be more than a 64-bit number of bytes. -/
theorem ValueType.acceptsOwn (type : ValueType) :
    Codec.AcceptsOwn type.codec type.Fits ∧
      (∀ value, type.codec.encode value = type.layout value) ∧
      ∀ value, (type.layout value).length < UInt64.size → type.Fits value := by
  refine ⟨.of_exact type.exact, type.encode_eq_layout, fun value hlen => ?_⟩
  rw [← type.encode_eq_layout] at hlen
  exact type.fitsByLength value hlen

/-- A message is read back with a byte behind it, and not without its last byte. -/
theorem ValueType.acceptsOwn_message :
    let m : Message := ⟨"de", [("titel", "Übersicht")]⟩
    Codec.message.deserialize (layout .message m ++ [7]) = .ok m ∧
      ∃ fault, Codec.message.deserialize (layout .message m).dropLast
        = .error (.decode (.value fault)) := by
  intro m
  obtain ⟨hown, hlayout, hfits⟩ := ValueType.acceptsOwn .message
  have hm : Fits .message m := hfits m (by decide +kernel)
  refine ⟨(hown.accepts _ m).mpr ⟨hm, [7], congrArg (· ++ [7]) (hlayout m).symm⟩, ?_⟩
  rw [← hlayout m]
  refine hown.cut m hm _ (List.dropLast_prefix _) fun heq => ?_
  have hlen := congrArg List.length heq
  rw [List.length_dropLast, hlayout m] at hlen
  exact absurd hlen (by decide +kernel)

end ConstStore
