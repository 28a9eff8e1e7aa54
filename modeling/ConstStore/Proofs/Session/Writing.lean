/-
# The bytes that a commit writes

The new store is written with its header last, over the placeholder.  What that comes to is the
header, the compressed index, the records of the base file, and the added records: `Session.image`.

A device changes nothing about that.  A computation follows another one when it is the same, unless
it stops at a step that the device fails at: `Device.Follows`.  So what is known of a commit on a
sound device is known on every device, up to the step that fails.

* `write_sound`: what is written on a sound device is the image.
* `write_follows`: on every other device it is that or the error of a step.
-/
import ConstStore.Proofs.Contents
import ConstStore.Session.Writing

namespace ConstStore

/-! ## 1. Devices -/

namespace Device

variable {device : Device} {α β : Type}

/-- A computation is another one, unless the device fails at one of its steps. -/
def Follows (device : Device) (x y : Except Error α) : Prop :=
  x = y ∨ ∃ step cause, device.fault? step = some cause ∧ x = .error (.io cause)

theorem Follows.refl (x : Except Error α) : device.Follows x x := Or.inl rfl

theorem Follows.bind {x y : Except Error α} {f g : α → Except Error β} (h : device.Follows x y)
    (hf : ∀ a, y = .ok a → device.Follows (f a) (g a)) : device.Follows (x >>= f) (y >>= g) := by
  rcases h with rfl | ⟨step, cause, hfault, rfl⟩
  · cases x with
    | error error => exact .refl _
    | ok a => exact hf a rfl
  · exact Or.inr ⟨step, cause, hfault, rfl⟩

@[simp] theorem demand_sound (step : CommitStep) : sound.demand step = .ok () := rfl

@[simp] theorem demandIf_sound (wanted : Bool) (step : CommitStep) :
    sound.demandIf wanted step = .ok () := by
  cases wanted <;> rfl

theorem demand_follows (device : Device) (step : CommitStep) :
    device.Follows (device.demand step) (sound.demand step) := by
  unfold demand check
  cases h : device.fault? step with
  | none => exact .refl _
  | some cause => exact Or.inr ⟨step, cause, h, rfl⟩

theorem demandIf_follows (device : Device) (wanted : Bool) (step : CommitStep) :
    device.Follows (device.demandIf wanted step) (sound.demandIf wanted step) := by
  cases wanted with
  | false => exact .refl _
  | true => exact device.demand_follows step

theorem Follows.ok {x y : Except Error α} {a : α} (h : device.Follows x y) (hx : x = .ok a) :
    y = .ok a := by
  rcases h with rfl | ⟨-, cause, -, rfl⟩
  · exact hx
  · exact absurd hx (by simp)

/-- Devices that fail at the same steps, in the same way, up to the renaming. -/
def AgreesUpToRename (device other : Device) : Prop :=
  ∀ step, step ≠ .openDirectory → step ≠ .syncDirectory → device.fault? step = other.fault? step

theorem AgreesUpToRename.demand {other : Device} (h : device.AgreesUpToRename other)
    {step : CommitStep} (hopen : step ≠ .openDirectory) (hsync : step ≠ .syncDirectory) :
    device.demand step = other.demand step := by
  simp only [Device.demand, check, h step hopen hsync]

end Device

/-! ## 2. Files that are written -/

namespace Output

theorem write_empty (bytes : Bytes) : empty.write bytes = ⟨bytes, ⟨bytes.length⟩⟩ := by
  simp [write, OpenFile.write, empty]

/-- What is written behind all that is there is appended. -/
theorem write_end (content bytes : Bytes) :
    write ⟨content, ⟨content.length⟩⟩ bytes
      = ⟨content ++ bytes, ⟨(content ++ bytes).length⟩⟩ := by
  simp [write, OpenFile.write]

/-- What is written over a front of the same length takes its place. -/
theorem seekStart_write {front bytes : Bytes} (h : front.length = bytes.length) (rest : Bytes)
    (file : OpenFile) :
    (seekStart ⟨front ++ rest, file⟩).write bytes = ⟨bytes ++ rest, ⟨bytes.length⟩⟩ := by
  simp [write, OpenFile.write, seekStart, ← h]

end Output

/-! ## 3. The new store -/

namespace Session

/-- The front of the new store: its header and its compressed index. -/
def imageFront (session : Session) : Bytes :=
  let index := session.index.encode session.config.level
  (Header.ofIndex (UInt64.ofNat index.size) (UInt64.ofNat index.length)).encode ++ index.bytes

/-- The new store, which has to have the size that its index describes. -/
def image (session : Session) (fs : FileSystem) (pending : PendingBuffer) :
    Except Error Bytes := do
  let front := session.imageFront
  let region ← session.baseRegion fs
  let added ← pending.copyRecords.1
  let bytes := front ++ region ++ added
  let described := front.length + session.index.recordBytes
  Fallible.guard (.index (.sizeMismatch bytes.length described)) (bytes.length = described)
  return bytes

variable (session : Session) (fs : FileSystem) (buffer : PendingBuffer)

theorem length_imageFront : session.imageFront.length
    = Header.size + (session.index.encode session.config.level).size := by
  rw [imageFront, List.length_append, Header.length_encode_ofIndex]
  rfl

/-- **On a sound device the image is written.** -/
theorem write_sound : session.write fs buffer .sound = session.image fs buffer := by
  have hfront : ∀ header : Header, header = .ofIndex
      (UInt64.ofNat (session.index.encode session.config.level).size)
      (UInt64.ofNat (session.index.encode session.config.level).length) →
      (((Output.empty.write Header.placeholder.encode).write
        (session.index.encode session.config.level).bytes).seekStart.write header.encode).seekEnd
        = ⟨session.imageFront, ⟨session.imageFront.length⟩⟩ := by
    rintro _ rfl
    rw [Output.write_empty, Output.write_end,
      Output.seekStart_write (by rw [Header.length_encode_ofIndex]; rfl)]
    rfl
  simp only [write, image, Device.demand_sound, Device.demandIf_sound, hfront _ rfl,
    Output.write_end, ← length_imageFront, bind, Except.bind]

/-- **On every other device it is the image as well**, unless a step fails. -/
theorem write_follows (device : Device) :
    device.Follows (session.write fs buffer device) (session.image fs buffer) := by
  rw [← write_sound]
  unfold write
  refine (device.demand_follows _).bind fun _ _ => (device.demand_follows _).bind fun _ _ =>
    (device.demand_follows _).bind fun _ _ => (device.demand_follows _).bind fun _ _ =>
    (device.demand_follows _).bind fun _ _ => (device.demand_follows _).bind fun _ _ =>
    (device.demandIf_follows _ _).bind fun _ _ => Device.Follows.bind (.refl _) fun region _ =>
    (device.demand_follows _).bind fun _ _ => Device.Follows.bind (.refl _) fun added _ =>
    (device.demand_follows _).bind fun _ _ => (device.demand_follows _).bind fun _ _ =>
    Device.Follows.bind (.refl _) fun _ _ => (device.demandIf_follows _ _).bind fun _ _ => .refl _

end Session
end ConstStore
