/-
# Headers and the fronts of files

A header is written as 24 bytes and read from the first 24 bytes of a file.  Writing and reading
undo each other, so the headers of stores correspond to the fronts that are accepted; what else a
file may start with fails on its length first and on its fingerprint then.

Before the header of a new store is known, a placeholder keeps its place.  A file that has been left
in this state is no store, whatever else has been written to it.

* `Header.encode_of_decode`: a header that has been read is written as the bytes it was read from.
* `Header.bijOn_encode`: headers and accepted fronts correspond to each other.
* `Header.decode_of_short`, `Header.decode_of_foreign`: how reading fails.
* `Header.decode_of_unwritten`: a file whose header has not been written cannot be read.
* `Header.decode_exact`: all of this together, down to the file that is not opened as a store.
-/
import ConstStore.Proofs.Damage
import Mathlib.Data.Set.Function

namespace ConstStore
namespace Header

variable {bytes : Bytes} {header : Header}

/-! ## 1. Writing and reading -/

/-- **A header that has been read is written as the bytes it was read from.** -/
theorem encode_of_decode (h : decode bytes = .ok header) : header.encode = bytes.take size := by
  obtain ⟨hlength, hfront, rfl⟩ := decode_eq_ok_iff.mp h
  rw [Bytes.take_header hlength hfront]
  simp only [encode, ofIndex, Codec.u64, Bytes.toNat_wordAt, List.append_assoc]

/-- **A front is accepted** when it is long enough and starts with the fingerprint. -/
theorem exists_decode_iff :
    (∃ header, decode bytes = .ok header) ↔ size ≤ bytes.length ∧ storeFingerprint <+: bytes := by
  simp only [decode_eq_ok_iff]
  exact ⟨fun ⟨_, hlength, hfront, _⟩ => ⟨hlength, hfront⟩,
    fun ⟨hlength, hfront⟩ => ⟨_, hlength, hfront, rfl⟩⟩

/-- The header of a store is given by its two numbers. -/
theorem eq_ofIndex (h : header.fingerprint = storeFingerprint) :
    header = ofIndex header.indexSize header.indexLength := by
  cases header
  cases h
  rfl

/-- **Headers and accepted fronts correspond to each other.** -/
theorem bijOn_encode :
    Set.BijOn encode {header | header.fingerprint = storeFingerprint}
      {bytes | bytes.length = size ∧ storeFingerprint <+: bytes} := by
  have hread : ∀ header : Header, header.fingerprint = storeFingerprint →
      decode header.encode = .ok header := by
    intro header h
    have hdecode := decode_encode header.indexSize header.indexLength []
    rwa [List.append_nil, ← eq_ofIndex h] at hdecode
  refine ⟨?_, ?_, ?_⟩
  · intro header h
    obtain ⟨-, hfront⟩ := exists_decode_iff.mp ⟨header, hread header h⟩
    refine ⟨?_, hfront⟩
    rw [eq_ofIndex h, length_encode_ofIndex]
  · intro header h other h' heq
    have hdecode := hread header h
    rw [heq, hread other h'] at hdecode
    exact (Except.ok.inj hdecode).symm
  · rintro bytes ⟨hlength, hfront⟩
    obtain ⟨header, hdecode⟩ := exists_decode_iff.mpr ⟨Nat.le_of_eq hlength.symm, hfront⟩
    refine ⟨header, ?_, ?_⟩
    · rw [(decode_eq_ok_iff.mp hdecode).2.2]
      rfl
    · rw [encode_of_decode hdecode, ← hlength, List.take_length]

/-! ## 2. How reading fails -/

/-- What is too short is not looked at. -/
theorem decode_of_short (h : bytes.length < size) :
    decode bytes = .error (.format .truncatedHeader) := if_pos h

theorem decode_of_foreign (h : size ≤ bytes.length) (hf : ¬ storeFingerprint <+: bytes) :
    decode bytes = .error (.format .fingerprintMismatch) := by
  have hfront : bytes.take 8 ≠ storeFingerprint :=
    fun heq => hf (heq ▸ List.take_prefix 8 bytes)
  rw [decode, if_neg (Nat.not_lt.mpr h), if_pos hfront]

/-! ## 3. Stores without a header -/

/-- A file whose header has not been written: the placeholder with whatever is behind it, or a part
of the placeholder. -/
def Unwritten (bytes : Bytes) : Prop := placeholder.encode <+: bytes ∨ bytes <+: placeholder.encode

/-- The placeholder is no store's header. -/
theorem not_prefix_of_unwritten (h : Unwritten bytes) (hlength : size ≤ bytes.length) :
    ¬ storeFingerprint <+: bytes := by
  have hsize : placeholder.encode.length = size := rfl
  have hplaceholder : placeholder.encode <+: bytes := by
    rcases h with h | h
    · exact h
    · exact h.eq_of_length_le (hsize ▸ hlength) ▸ List.prefix_rfl
  intro hfront
  have hother : storeFingerprint <+: placeholder.encode :=
    List.prefix_of_prefix_length_le hfront hplaceholder (by decide)
  exact absurd hother (by decide)

/-- **A file without its header cannot be read.** -/
theorem decode_of_unwritten (h : Unwritten bytes) :
    ∃ fault : FormatError, decode bytes = .error (.format fault) ∧
      fault.message = if bytes.length < size then "truncated header"
        else "fingerprint mismatch" := by
  by_cases hlength : bytes.length < size
  · exact ⟨_, decode_of_short hlength, (if_pos hlength).symm⟩
  · exact ⟨_, decode_of_foreign (Nat.le_of_not_lt hlength)
      (not_prefix_of_unwritten h (Nat.le_of_not_lt hlength)), (if_neg hlength).symm⟩

/-- A file is rejected if its header is. -/
theorem rejects_of_decode {fs : FileSystem} {path : String} {e : Error}
    (hload : fs.load path = .ok bytes) (h : decode bytes = .error e) : fs.Rejects path e :=
  FileSystem.rejects_of_parse hload (Contents.parse_of_decode h)

/-- **Headers are read exactly as they are written.**  The headers of stores correspond to the
strings of 24 bytes that start with the fingerprint.  A header that has been written is read back,
whatever follows it.  Reading succeeds for the files that are long enough and start with the
fingerprint, and then the header is written as it stands there; a shorter file is truncated,
whatever its bytes, and any other file has another fingerprint.  So a file whose header has not been
written is not opened as a store. -/
theorem decode_exact :
    Set.BijOn encode {header | header.fingerprint = storeFingerprint}
      {bytes | bytes.length = size ∧ storeFingerprint <+: bytes} ∧
    (∀ indexSize indexLength rest, decode ((ofIndex indexSize indexLength).encode ++ rest)
      = .ok (ofIndex indexSize indexLength)) ∧
    (∀ bytes,
      ((∃ header, decode bytes = .ok header) ↔
        size ≤ bytes.length ∧ storeFingerprint <+: bytes) ∧
      (∀ header, decode bytes = .ok header → header.encode = bytes.take size) ∧
      (bytes.length < size → ∃ fault : FormatError,
        decode bytes = .error (.format fault) ∧ fault.message = "truncated header") ∧
      (size ≤ bytes.length → ¬ storeFingerprint <+: bytes → ∃ fault : FormatError,
        decode bytes = .error (.format fault) ∧ fault.message = "fingerprint mismatch")) ∧
    ∀ (fs : FileSystem) path bytes, fs.load path = .ok bytes → Unwritten bytes →
      ∃ fault : FormatError, fs.Rejects path (.format fault) ∧
        fault.message = if bytes.length < size then "truncated header"
          else "fingerprint mismatch" := by
  refine ⟨bijOn_encode, decode_encode, fun bytes => ⟨exists_decode_iff, ?_, ?_, ?_⟩, ?_⟩
  · exact fun header h => encode_of_decode h
  · exact fun h => ⟨_, decode_of_short h, rfl⟩
  · exact fun h hf => ⟨_, decode_of_foreign h hf, rfl⟩
  · intro fs path bytes hload h
    obtain ⟨fault, hdecode, hmessage⟩ := decode_of_unwritten h
    exact ⟨fault, rejects_of_decode hload hdecode, hmessage⟩

/-- A new store whose index has been written but not its header, and one that was given up
earlier. -/
def drafts : FileSystem where
  nodes := #[.directory ⟨[("a", 1), ("b", 2)], FileSystem.root, 0o755, 0⟩,
    .file ⟨placeholder.encode ++ (Index.encode ⟨[⟨[1], 0, 0, none⟩]⟩ defaultLevel).bytes, 0o644, 0⟩,
    .file ⟨placeholder.encode.take 23, 0o644, 0⟩]
  clock := 2

/-- The largest numbers are read back, a fingerprint alone is too short, and neither draft is
opened. -/
theorem decode_exact_drafts :
    decode ((ofIndex 18446744073709551615 18446744073709551614).encode ++ [7])
        = .ok (ofIndex 18446744073709551615 18446744073709551614) ∧
      (storeFingerprint.length < size ∧ ∃ fault : FormatError,
        decode storeFingerprint = .error (.format fault) ∧
          fault.message = "truncated header") ∧
      (∃ fault : FormatError, drafts.Rejects "a" (.format fault) ∧
        fault.message = "fingerprint mismatch") ∧
      ∃ fault : FormatError, drafts.Rejects "b" (.format fault) ∧
        fault.message = "truncated header" := by
  obtain ⟨-, hread, hdecode, hdraft⟩ := decode_exact
  have hshort : storeFingerprint.length < size := by decide
  refine ⟨hread _ _ _, ⟨hshort, (hdecode storeFingerprint).2.2.1 hshort⟩, ?_, ?_⟩
  · obtain ⟨fault, hrejects, hmessage⟩ := hdraft drafts "a" _ rfl (.inl (List.prefix_append _ _))
    rw [if_neg (by decide +kernel)] at hmessage
    exact ⟨fault, hrejects, hmessage⟩
  · exact hdraft drafts "b" _ rfl (.inr (List.take_prefix _ _))

end Header
end ConstStore
