/-
# Byte strings

The store, its records and its index are byte strings.  A `Bytes` is a list of octets: the
formats of this library are read from the front and written by appending, and both are plain
list operations.

* `Bytes.split?` cuts a field of known length off the front and fails when too few bytes are
  left; `split?_eq_some_iff` says exactly when and with what result.
* `Bytes.ofNat` and `Bytes.toNat` are little-endian numbers of a fixed width; `toNat_ofNat` and
  `ofNat_toNat` say that they undo each other.
-/

namespace ConstStore

/-- A byte string. -/
abbrev Bytes := List UInt8

namespace Bytes

/-! ## 1. Fields of known length -/

/-- The first `n` bytes and what follows them; `none` when fewer than `n` are left. -/
def split? (n : Nat) (bytes : Bytes) : Option (Bytes × Bytes) :=
  let front := bytes.take n
  if front.length = n then some (front, bytes.drop n) else none

theorem split?_append {front : Bytes} (rest : Bytes) {n : Nat} (h : front.length = n) :
    split? n (front ++ rest) = some (front, rest) := by
  subst h
  simp [split?]

/-- **A cut succeeds exactly on a front of the asked length.** -/
theorem split?_eq_some_iff {n : Nat} {bytes front rest : Bytes} :
    split? n bytes = some (front, rest) ↔ bytes = front ++ rest ∧ front.length = n := by
  constructor
  · intro h
    simp only [split?] at h
    split at h
    · rename_i hlen
      simp only [Option.some.injEq, Prod.mk.injEq] at h
      obtain ⟨rfl, rfl⟩ := h
      exact ⟨(List.take_append_drop n bytes).symm, hlen⟩
    · simp at h
  · rintro ⟨rfl, h⟩
    exact split?_append rest h

theorem split?_eq_none_iff {n : Nat} {bytes : Bytes} :
    split? n bytes = none ↔ bytes.length < n := by
  simp only [split?, List.length_take]
  split <;> simp <;> omega

/-- The rest of a cut is shorter by what was cut off. -/
theorem length_of_split? {n : Nat} {bytes front rest : Bytes}
    (h : split? n bytes = some (front, rest)) : bytes.length = n + rest.length := by
  obtain ⟨rfl, hlen⟩ := split?_eq_some_iff.mp h
  simp [hlen]

/-! ## 2. Little-endian numbers -/

/-- The `width` lowest bytes of a number, the lowest one first. -/
def ofNat : (width : Nat) → Nat → Bytes
  | 0, _ => []
  | width + 1, n => UInt8.ofNat n :: ofNat width (n / 256)

/-- The number whose bytes these are, the lowest one first. -/
def toNat : Bytes → Nat
  | [] => 0
  | b :: bytes => b.toNat + 256 * toNat bytes

/-- How many numbers there are of `width` bytes. -/
def capacity : (width : Nat) → Nat
  | 0 => 1
  | width + 1 => 256 * capacity width

@[simp] theorem length_ofNat (width n : Nat) : (ofNat width n).length = width := by
  induction width generalizing n with
  | zero => rfl
  | succ width ih => simp [ofNat, ih]

theorem toNat_lt (bytes : Bytes) : toNat bytes < capacity bytes.length := by
  induction bytes with
  | nil => simp [toNat, capacity]
  | cons b bytes ih =>
    have hb : b.toNat < 256 := b.toNat_lt
    simp only [toNat, List.length_cons, capacity]
    omega

/-- Reading back what was written gives the number, as far as the width holds it. -/
theorem toNat_ofNat (width n : Nat) : toNat (ofNat width n) = n % capacity width := by
  induction width generalizing n with
  | zero => simp [ofNat, toNat, capacity, Nat.mod_one]
  | succ width ih =>
    have hb : (UInt8.ofNat n).toNat = n % 256 := by simp
    rw [ofNat, toNat, ih, hb, capacity, Nat.mod_mul]

/-- Writing what was read gives the bytes back. -/
theorem ofNat_toNat (bytes : Bytes) : ofNat bytes.length (toNat bytes) = bytes := by
  induction bytes with
  | nil => rfl
  | cons b bytes ih =>
    have hb : b.toNat < 256 := b.toNat_lt
    have hdiv : (b.toNat + 256 * toNat bytes) / 256 = toNat bytes := by omega
    have hmod : UInt8.ofNat (b.toNat + 256 * toNat bytes) = b := by
      apply UInt8.toNat_inj.mp
      simp
    rw [List.length_cons, toNat, ofNat, hdiv, ih, hmod]

/-- A little-endian number of `width` bytes at the front. -/
def splitNat? (width : Nat) (bytes : Bytes) : Option (Nat × Bytes) :=
  (split? width bytes).map fun (front, rest) => (toNat front, rest)

theorem length_of_splitNat? {width n : Nat} {bytes rest : Bytes}
    (h : splitNat? width bytes = some (n, rest)) : bytes.length = width + rest.length := by
  simp only [splitNat?, Option.map_eq_some_iff, Prod.mk.injEq, Prod.exists] at h
  obtain ⟨_, _, h, _, rfl⟩ := h
  exact length_of_split? h

end Bytes
end ConstStore
