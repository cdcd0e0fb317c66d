import PiousOS.Core.EarlyReturn
import PiousOS.L1Encoding.Elf

/-!
# The firmware around the loader

The firmware is the other party of the boot: a state of any type and one
function per service the loader calls, which answers with a status and
outputs and moves to a new state. Nothing is assumed of the answers, so a
result about every `Firmware` covers every pattern of call outcomes.

Two services have a meaning here. A successful `AllocatePages` of
`AllocateAddress` leaves the requested address as the address. `Read`
delivers the file's bytes at the file position and at the end of the file
fewer than it was asked for; past the end it is a device error. `SetPosition`
to `2^64 - 1` goes to the end of the file.

A loader function is a program over `LoaderState` that can return from
`BootKernel` early, with its status. The state keeps a log of what the
results are about: segments read, pages mapped, memory maps fetched, boot
services exited.
-/
namespace PiousOS.Loader
open ByteMem Elf EarlyExit

/-- What `GetMemoryMap` leaves in its outputs. `contents` is memory as the
call leaves it, with the descriptors in the caller's buffer. -/
structure MemoryMapReply where
  status : EFI_STATUS
  MemMapSize : UINTN
  MemMapKey : UINTN
  MemMapDescriptorSize : UINTN
  MemMapDescriptorVersion : UINT32
  contents : ByteMem

structure Firmware (σ : Type) where
  OpenProtocol : σ → EFI_STATUS × σ
  OpenVolume : σ → EFI_STATUS × σ
  Open : σ → EFI_STATUS × σ
  /-- status and `FileInfoSize` -/
  GetInfo : UINTN → σ → (EFI_STATUS × UINTN) × σ
  SetPosition : UINT64 → σ → EFI_STATUS × σ
  Read : UINTN → σ → EFI_STATUS × σ
  /-- status and the address of the pool -/
  AllocatePool : UINTN → σ → (EFI_STATUS × UINT64) × σ
  FreePool : UINT64 → σ → EFI_STATUS × σ
  AllocatePages : UINTN → UINT64 → σ → EFI_STATUS × σ
  FreePages : UINT64 → UINTN → σ → EFI_STATUS × σ
  GetMemoryMap : UINTN → UINT64 → σ → MemoryMapReply × σ
  ExitBootServices : UINTN → σ → EFI_STATUS × σ
  /-- the answers to the `AllocatePages` calls inside `MapVirtualPages` -/
  tableFrames : σ → (Nat → Option UINT64) × σ
  /-- what other owners write to memory the firmware gave out as free -/
  strayWrites : σ → ByteMem → ByteMem
  /-- memory as a `FreePool` leaves it, the freed pool included -/
  freedContents : σ → ByteMem
  cr3 : UINT64

/-- An effect of the loader that outlives it. -/
inductive Event (σ : Type) where
  /-- a `PT_LOAD` header was acted on: `delivered` bytes went to `SectionAddress` -/
  | segment (header : Elf64_Phdr) (SectionAddress : UINT64) (delivered : Nat)
  /-- `MapVirtualPages` was called; `allocated`: every table it needed was -/
  | mapped (physical virt : UINT64) (pages : UINTN) (allocated : Bool)
  /-- `GetMemoryMap` with a buffer of `size` bytes, in firmware state `before` -/
  | memoryMap (before : σ) (size : UINTN) (MemMap : UINT64) (reply : MemoryMapReply)
  | exitBootServices (key : UINTN) (status : EFI_STATUS)

structure LoaderState (σ : Type) where
  firmware : σ
  /-- the position of `KernelFile` -/
  position : Nat
  mem : ByteMem
  log : List (Event σ)

/-- How `BootKernel` ends short of the jump: it returns, or it has not come
to the end of a search after as many rounds as it was given. -/
inductive Exit where
  | returned (BootStatus : EFI_STATUS)
  | searching
  deriving DecidableEq, Repr

/-- `BootKernel` returned an error. -/
def Exit.IsError : Exit → Prop
  | .returned BootStatus => EFI_ERROR BootStatus = true
  | .searching => False

abbrev Boot (σ α : Type) := EStateM Exit (LoaderState σ) α

variable {σ α β : Type}

/-- A firmware call. -/
def call (service : σ → α × σ) : Boot σ α :=
  fun s => .ok (service s.firmware).1 { s with firmware := (service s.firmware).2 }

theorem call_bind (service : σ → α × σ) (f : α → Boot σ β) (s : LoaderState σ) :
    (call service >>= f) s =
      f (service s.firmware).1 { s with firmware := (service s.firmware).2 } := rfl

/-- `if(EFI_ERROR(BootStatus)) return BootStatus;` -/
def check (BootStatus : EFI_STATUS) : Boot σ Unit :=
  if EFI_ERROR BootStatus then throw (.returned BootStatus) else pure ()

/-- Where `SetPosition` goes: `2^64 - 1` is the end of the file. -/
def filePosition (file : List UINT8) (position : UINT64) : Nat :=
  if position = BitVec.allOnes 64 then file.length else position.toNat

/-- `KernelFile->SetPosition` -/
def setPosition (fw : Firmware σ) (file : List UINT8) (position : UINT64) : Boot σ EFI_STATUS :=
  fun s =>
    let r := fw.SetPosition position s.firmware
    .ok r.1 { s with
      firmware := r.2
      position := if EFI_ERROR r.1 then s.position else filePosition file position }

/-- What `Read` answers at `position`. -/
def readStatus (file : List UINT8) (position : Nat) (answer : EFI_STATUS) : EFI_STATUS :=
  if file.length < position then EFI_DEVICE_ERROR else answer

/-- The bytes from `position` on, at most `size`. -/
def bytesFrom (file : List UINT8) (position : Nat) (size : UINTN) : List UINT8 :=
  (file.drop position).take size.toNat

/-- The bytes a `Read` that succeeds delivers after a `SetPosition`. -/
def delivered (file : List UINT8) (position : UINT64) (size : UINTN) : List UINT8 :=
  bytesFrom file (filePosition file position) size

/-- `KernelFile->Read`: status and bytes, none if it fails. -/
def read (fw : Firmware σ) (file : List UINT8) (size : UINTN) : Boot σ (EFI_STATUS × List UINT8) :=
  fun s =>
    let r := fw.Read size s.firmware
    let status := readStatus file s.position r.1
    let data := if EFI_ERROR status then [] else bytesFrom file s.position size
    .ok (status, data) { s with firmware := r.2, position := s.position + data.length }

/-- `ZeroMem`, and what others write before the loader looks again. -/
def zeroPages (fw : Firmware σ) (address size : UINT64) : Boot σ Unit :=
  fun s => .ok () { s with mem := fw.strayWrites s.firmware (fill s.mem address size.toNat fun _ => 0) }

/-- mirrors src/bootloader/boot.c:736-748 -/
def Compare (firstitem seconditem : Nat → UINT8) (comparelength : Nat) : Bool :=
  (List.range comparelength).all fun i => firstitem i == seconditem i

/-- The bytes of memory from `a` on. -/
def bytesAt (mem : ByteMem) (a : UINT64) (i : Nat) : UINT8 := mem (a + BitVec.ofNat 64 i)

/-- `1`, that is true, if a byte is not zero.
mirrors src/bootloader/boot.c:750-760 -/
def VerifyZeroMem (mem : ByteMem) (NumBytes BaseAddr : UINT64) : Bool :=
  (List.range NumBytes.toNat).any fun i => bytesAt mem BaseAddr i != 0

/-- A firmware on which every call succeeds: pools at 64 KiB, page tables at
1 MiB, an empty memory map that never changes. -/
def obliging : Firmware Unit where
  OpenProtocol w := (EFI_SUCCESS, w)
  OpenVolume w := (EFI_SUCCESS, w)
  Open w := (EFI_SUCCESS, w)
  GetInfo size w := ((EFI_SUCCESS, size), w)
  SetPosition _ w := (EFI_SUCCESS, w)
  Read _ w := (EFI_SUCCESS, w)
  AllocatePool _ w := ((EFI_SUCCESS, 0x10000), w)
  FreePool _ w := (EFI_SUCCESS, w)
  AllocatePages _ _ w := (EFI_SUCCESS, w)
  FreePages _ _ w := (EFI_SUCCESS, w)
  GetMemoryMap _ _ w := (⟨EFI_SUCCESS, 0, 0, 48, 1, fun _ => 0⟩, w)
  ExitBootServices _ w := (EFI_SUCCESS, w)
  tableFrames w := (fun k => some (0x100000 + BitVec.ofNat 64 k * 4096), w)
  strayWrites _ mem := mem
  freedContents _ := fun _ => 0
  cr3 := 0x80000

/-! ## The file -/

section
variable {file : List UINT8} {position : UINT64} {size : UINTN}

theorem filePosition_zero (file : List UINT8) : filePosition file 0 = 0 := if_neg (by decide)

theorem filePosition_le (h : position.toNat ≤ file.length) : filePosition file position ≤ file.length := by
  unfold filePosition
  split
  · exact Nat.le_refl _
  · exact h

/-- In a file of a size that fits its 64 bits, the end is where the bytes of
`2^64 - 1` begin. -/
theorem delivered_eq (hfile : file.length < 2 ^ 64) :
    delivered file position size = bytesFrom file position.toNat size := by
  unfold delivered filePosition bytesFrom
  split
  · rename_i hend
    rw [hend, List.drop_length, List.drop_eq_nil_of_le (by rw [BitVec.toNat_allOnes]; omega)]
  · rfl

theorem bytesFrom_length {position : Nat} :
    (bytesFrom file position size).length = min size.toNat (file.length - position) := by
  rw [bytesFrom, List.length_take, List.length_drop]

theorem delivered_zero (file : List UINT8) (position : UINT64) : delivered file position 0 = [] := by
  rw [delivered, bytesFrom]
  exact List.take_zero

/-- A part of the file is delivered whole. -/
theorem delivered_length (hfile : file.length < 2 ^ 64)
    (h : position.toNat + size.toNat ≤ file.length) :
    (delivered file position size).length = size.toNat := by
  rw [delivered_eq hfile, bytesFrom_length]
  omega

theorem delivered_whole_iff (hfile : file.length < 2 ^ 64) :
    (delivered file position size).length = size.toNat ↔
      (size ≠ 0 → position.toNat + size.toNat ≤ file.length) := by
  constructor
  · intro h hz
    have : 0 < size.toNat := Nat.pos_of_ne_zero fun h0 => hz (BitVec.eq_of_toNat_eq h0)
    rw [delivered_eq hfile, bytesFrom_length] at h
    omega
  · intro h
    by_cases hz : size = 0
    · rw [hz, delivered_zero]
      rfl
    · exact delivered_length hfile (h hz)

theorem delivered_getD (hfile : file.length < 2 ^ 64) {k : Nat} (hk : k < size.toNat) :
    (delivered file position size).getD k 0 = file.getD (position.toNat + k) 0 := by
  rw [delivered_eq hfile]
  simp only [bytesFrom, List.getD_eq_getElem?_getD, List.getElem?_take, List.getElem?_drop, if_pos hk]

end

/-! ## Calls that succeed -/

/-- An invariant of the loader's own state: no firmware call can break it. -/
def LoaderOnly (I : LoaderState σ → Prop) : Prop := ∀ s w, I s → I { s with firmware := w }

/-- From a firmware state in `K`, the service succeeds and stays in `K`. -/
def Serves (K : σ → Prop) (status : α → EFI_STATUS) (service : σ → α × σ) : Prop :=
  ∀ w, K w → EFI_ERROR (status (service w).1) = false ∧ K (service w).2

/-- A firmware that reads the kernel file without errors. -/
structure ReadsFile (fw : Firmware σ) (K : σ → Prop) : Prop where
  setPosition : ∀ position, Serves K id (fw.SetPosition position)
  read : ∀ size, Serves K id (fw.Read size)

theorem obliging_serves {status : α → EFI_STATUS} {service : Unit → α × Unit}
    (h : ∀ w, status (service w).1 = EFI_SUCCESS) : Serves (fun _ => True) status service :=
  fun w _ => ⟨by rw [h w]; exact EFI_ERROR_success, trivial⟩

theorem obliging_readsFile : ReadsFile obliging fun _ => True :=
  ⟨fun _ => obliging_serves fun _ => rfl, fun _ => obliging_serves fun _ => rfl⟩

section
variable {fw : Firmware σ} {K : σ → Prop} {I : LoaderState σ → Prop} {file : List UINT8}

/-- A service that is served, among steps that keep `I`. -/
theorem call_runs {status : α → EFI_STATUS} {service : σ → α × σ} (h : Serves K status service)
    (hI : LoaderOnly I) :
    Runs (fun s => K s.firmware ∧ I s) (call service)
      fun r s => EFI_ERROR (status r) = false ∧ K s.firmware ∧ I s :=
  fun s hs => ⟨(h s.firmware hs.1).1, (h s.firmware hs.1).2, hI s _ hs.2⟩

theorem check_runs {P : LoaderState σ → Prop} {st : EFI_STATUS} :
    Runs (fun s => EFI_ERROR st = false ∧ P s) (check st) fun _ => P := by
  intro s hs
  unfold check
  rw [hs.1]
  exact hs.2

theorem setPosition_runs (h : ReadsFile fw K) (position : UINT64) :
    Runs (fun s => K s.firmware) (setPosition fw file position)
      fun st s => EFI_ERROR st = false ∧ K s.firmware ∧ s.position = filePosition file position := by
  intro s hs
  obtain ⟨he, hw⟩ := h.setPosition position s.firmware hs
  exact ⟨he, hw, if_neg (by simpa using he)⟩

theorem read_runs (h : ReadsFile fw K) (size : UINTN) (position : Nat)
    (hp : position ≤ file.length) :
    Runs (fun s => K s.firmware ∧ s.position = position) (read fw file size)
      fun r s => EFI_ERROR r.1 = false ∧ r.2 = bytesFrom file position size ∧ K s.firmware := by
  rintro s ⟨hs, rfl⟩
  obtain ⟨hr, hw⟩ := h.read size s.firmware hs
  have he : EFI_ERROR (readStatus file s.position (fw.Read size s.firmware).1) = false := by
    rw [readStatus, if_neg (Nat.not_lt.mpr hp)]
    exact hr
  exact ⟨he, if_neg (by simpa using he), hw⟩

end

/-! ## What the calls keep -/

/-- An invariant of the log. -/
def Logs (J : List (Event σ) → Prop) (s : LoaderState σ) : Prop := J s.log

theorem logs_loaderOnly {J : List (Event σ) → Prop} : LoaderOnly (Logs J) := fun _ _ h => h

section
variable {I : LoaderState σ → Prop} {R : Exit → Prop}

theorem call_keeps (hI : LoaderOnly I) (service : σ → α × σ) : KeepsInv I R (call service) :=
  fun s hs => hI s _ hs

theorem check_keeps (BootStatus : EFI_STATUS) :
    KeepsInv I Exit.IsError (check BootStatus : Boot σ Unit) :=
  KeepsInv.ite (fun he => KeepsInv.throw (e := Exit.returned BootStatus) he) fun _ => KeepsInv.pure _

end

theorem Compare_iff {one two : Nat → UINT8} {n : Nat} :
    Compare one two n = true ↔ ∀ i < n, one i = two i := by
  simp [Compare, List.all_eq_true]

theorem VerifyZeroMem_false_iff {mem : ByteMem} {n a : UINT64} :
    VerifyZeroMem mem n a = false ↔ ∀ i < n.toNat, mem (a + BitVec.ofNat 64 i) = 0 := by
  simp [VerifyZeroMem, bytesAt, List.any_eq_false]

end PiousOS.Loader
