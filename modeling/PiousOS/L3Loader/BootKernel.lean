import PiousOS.L3Loader.AllocateImage
import PiousOS.L3Loader.ExitServices
import PiousOS.L3Loader.LoadSegments
import PiousOS.L3Loader.MapStores

/-!
# BootKernel (`src/bootloader/boot.c`)

`bootKernel` is the whole function, from opening the kernel file to the
jump: open, read the header, load the ELF file, leave boot services. It goes
through if it jumps and leaves early wherever the source returns. The ELF
header is an object of its own, over what its memory held before (`stack`). The
program header table lies in memory, in its pool, over what that held (`pool`);
the loops look for it there, and what they read can fall on it. A short read
leaves what was there in place.

`loadElf` is the ELF branch: `loadImage` up to the call of `MapVirtualPages`,
and that call (`mapImage`), whose stores go to memory too.

The pointers the loader copies into the loader block unread (root device
path, kernel path, runtime services, file information, configuration tables)
are left out.
-/
namespace PiousOS.Loader
open ByteMem Elf EarlyExit

variable {σ : Type}

structure BootParams where
  /-- `\Pious\Kernel.exe` -/
  file : List UINT8
  /-- its size is a 64-bit number -/
  file_lt : file.length < 2 ^ 64
  /-- what `ELF64header` holds before it is read -/
  stack : ByteMem
  /-- what `AllocatePool` leaves in the pool for the program headers and behind
  it, as far as the loops look -/
  pool : ByteMem
  ESPRootTemp : UINT64
  ESPRootSize : UINT64
  Graphics : GPU_CONFIG
  UEFIVer : UINT32
  /-- what the memory map variables hold that are not initialised -/
  unset : MapVars

/-- What the ELF branch sets. -/
structure Image where
  KernelBaseAddress : UINT64
  KernelPages : UINTN
  Header_memory : UINT64
  deriving DecidableEq, Repr

/-- The variables as they are initialised, and as they stay without the ELF
branch.
mirrors src/bootloader/boot.c:87-88, 156 -/
def notLoaded : Image := ⟨0, 0, 0x40000000⟩

/-- What the jump goes to and hands over; `mapPool` is not in the source:
the size of the pool at `Memory_Map`. -/
structure Entry where
  Header_memory : UINT64
  Loader_block : LOADER_PARAMS
  mapPool : UINTN

/-- `BootStatus = service(); if(EFI_ERROR(BootStatus)) return BootStatus;` -/
def callChecked (service : σ → EFI_STATUS × σ) : Boot σ Unit := do
  let BootStatus ← call service
  check BootStatus

def allocatePoolChecked (fw : Firmware σ) (size : UINTN) : Boot σ UINT64 := do
  let (BootStatus, address) ← call (fw.AllocatePool size)
  check BootStatus
  pure address

/-- `CurrentDriveRoot->Open`: the file is at its beginning. -/
def openFile (fw : Firmware σ) : Boot σ EFI_STATUS :=
  fun s => .ok (fw.Open s.firmware).1 { s with firmware := (fw.Open s.firmware).2, position := 0 }

/-- mirrors src/bootloader/boot.c:92-179 -/
def openKernel (fw : Firmware σ) (p : BootParams) : Boot σ Unit := do
  callChecked fw.OpenProtocol
  let _ ← allocatePoolChecked fw p.ESPRootSize
  callChecked (fw.FreePool p.ESPRootTemp)
  callChecked fw.OpenProtocol
  callChecked fw.OpenVolume
  let BootStatus ← openFile fw
  check BootStatus
  -- meant to fail, with the size
  let (_, FileInfoSize) ← call (fw.GetInfo 0)
  let _ ← allocatePoolChecked fw FileInfoSize
  let (BootStatus, _) ← call (fw.GetInfo FileInfoSize)
  check BootStatus

def sizeofDosHeader : UINTN := 64

/-- A read at a position, both checked. -/
def readAt (fw : Firmware σ) (file : List UINT8) (position : UINT64) (size : UINTN) :
    Boot σ (List UINT8) := do
  let BootStatus ← setPosition fw file position
  check BootStatus
  let (BootStatus, data) ← read fw file size
  check BootStatus
  pure data

/-- mirrors src/bootloader/boot.c:181-218 -/
def readHeader (fw : Firmware σ) (p : BootParams) : Boot σ Elf64_Ehdr := do
  let (BootStatus, _) ← read fw p.file sizeofDosHeader
  check BootStatus
  let data ← readAt fw p.file 0 (BitVec.ofNat 64 sizeofEhdr)
  pure (loadEhdr (fileBytes p.stack data) 0)

/-- `Compare(&ELF64header.e_ident[EI_MAG0], ELFMAG, SELFMAG)` -/
def hasMagic (header : Elf64_Ehdr) : Bool := Compare header.e_ident ELFMAG SELFMAG

/-- mirrors src/bootloader/boot.c:227 -/
def isNative (header : Elf64_Ehdr) : Bool :=
  header.e_ident EI_CLASS == ELFCLASS64 && header.e_machine == EM_X86_64

/-- `program_headers_table`, with the byte order of the file. -/
def headerTable (pool : ByteMem) (data : List UINT8) (i : Nat) : Elf64_Phdr :=
  loadPhdr (fileBytes pool data) (BitVec.ofNat 64 (sizeofPhdr * i))

/-- `program_headers_table[i]` in memory. -/
def headersAt (program_headers_table : UINT64) (mem : ByteMem) (i : Nat) : Elf64_Phdr :=
  loadPhdr mem (program_headers_table + BitVec.ofNat 64 (sizeofPhdr * i))

/-- `size` of the program headers. -/
def tableSize (header : Elf64_Ehdr) : UINTN :=
  header.e_phnum.setWidth 64 * header.e_phentsize.setWidth 64

/-- As far as the loops index the table; entry 0 is looked at in any case. -/
def tableReach (header : Elf64_Ehdr) : Nat :=
  max (tableSize header).toNat (sizeofPhdr * max header.e_phnum.toNat 1)

/-- The pool as `AllocatePool` leaves it, with what `Read` delivers. -/
def placeTable (p : BootParams) (header : Elf64_Ehdr) (program_headers_table : UINT64)
    (data : List UINT8) : Boot σ Unit :=
  fun s => .ok () { s with
    mem := fill s.mem program_headers_table (tableReach header)
      fun k => fileBytes p.pool data (BitVec.ofNat 64 k) }

/-- The address of the table.
mirrors src/bootloader/boot.c:236-259 -/
def readTable (fw : Firmware σ) (p : BootParams) (header : Elf64_Ehdr) : Boot σ UINT64 := do
  let program_headers_table ← allocatePoolChecked fw (tableSize header)
  let data ← readAt fw p.file header.e_phoff (tableSize header)
  placeTable p header program_headers_table data
  pure program_headers_table

/-- mirrors src/bootloader/boot.c:561-568 -/
def freeTable (fw : Firmware σ) (address : UINT64) : Boot σ Unit :=
  if address ≠ 0 then do
    let _ ← call (fw.FreePool address)
    pure ()
  else pure ()

/-- The ELF branch up to `MapVirtualPages`, with the `startAddress` it gets.
mirrors src/bootloader/boot.c:233-574 -/
def loadImage (fw : Firmware σ) (fuel : Nat) (p : BootParams) (header : Elf64_Ehdr) :
    Boot σ (Image × UINT64) := do
  let program_headers_table ← readTable fw p header
  let s ← get
  let pages := imagePages (headersAt program_headers_table s.mem) header.e_phnum.toNat
  let AllocatedMemory ← allocateImage fw fuel pages
  loadSegments fw p.file (headersAt program_headers_table) AllocatedMemory header.e_phnum.toNat
  let s ← get
  let startAddress := (headersAt program_headers_table s.mem 0).p_vaddr
  freeTable fw program_headers_table
  pure (⟨AllocatedMemory, pages, header.e_entry⟩, startAddress)

/-- `MapVirtualPages(AllocatedMemory, startAddress, pages, 0x3, ST)`, on the
page tables in memory.
mirrors src/bootloader/boot.c:576 -/
def mapImage (fw : Firmware σ) (AllocatedMemory startAddress : UINT64) (pages : UINTN) :
    Boot σ Unit :=
  fun s =>
    let (frames, w) := fw.tableFrames s.firmware
    let m := (mapVirtualPages frames fw.cr3 AllocatedMemory startAddress pages.toNat 0x3
      ⟨load64 s.mem, 0, []⟩).2
    .ok () { s with
      firmware := w
      mem := stored s.mem m.log
      log := s.log ++ [.mapped AllocatedMemory startAddress pages
        ((List.range m.calls).all fun k => (frames k).isSome)] }

/-- mirrors src/bootloader/boot.c:233-590 -/
def loadElf (fw : Firmware σ) (fuel : Nat) (p : BootParams) (header : Elf64_Ehdr) :
    Boot σ Image := do
  let (image, startAddress) ← loadImage fw fuel p header
  mapImage fw image.KernelBaseAddress startAddress image.KernelPages
  pure image

/-- There is no `else` to the test for the magic number.
mirrors src/bootloader/boot.c:220-602 -/
def loadKernel (fw : Firmware σ) (fuel : Nat) (p : BootParams) (header : Elf64_Ehdr) :
    Boot σ Image :=
  if hasMagic header then
    if isNative header then loadElf fw fuel p header
    else throw (.returned EFI_INVALID_PARAMETER)
  else pure notLoaded

def sizeofLoaderParams : UINTN := 144

/-- mirrors src/bootloader/boot.c:680-702 -/
def loaderBlock (p : BootParams) (image : Image) (v : MapVars) : LOADER_PARAMS where
  UEFI_Version := p.UEFIVer
  Bootloader_MajorVersion := 1
  Bootloader_MinorVersion := 0
  Memory_Map_Descriptor_Version := v.MemMapDescriptorVersion
  Memory_Map_Descriptor_Size := v.MemMapDescriptorSize
  Memory_Map := v.MemMap
  Memory_Map_Size := v.MemMapSize
  Kernel_BaseAddress := image.KernelBaseAddress
  Kernel_Pages := image.KernelPages
  GPU_Configs := p.Graphics

/-- mirrors src/bootloader/boot.c:604-730 -/
def handOver (fw : Firmware σ) (p : BootParams) (image : Image) : Boot σ Entry := do
  let _ ← allocatePoolChecked fw sizeofLoaderParams
  let v ← leaveBootServices fw p.unset
  pure ⟨image.Header_memory, loaderBlock p image v, v.pool⟩

/-- mirrors src/bootloader/boot.c:54-731 -/
def bootKernel (fw : Firmware σ) (fuel : Nat) (p : BootParams) : Boot σ Entry := do
  openKernel fw p
  let header ← readHeader fw p
  let image ← loadKernel fw fuel p header
  handOver fw p image

/-! ## What the parts leave -/

/-- The ELF header as the loader sees it: the file's first bytes over the
stack. -/
def seenHeader (p : BootParams) : Elf64_Ehdr :=
  loadEhdr (fileBytes p.stack (delivered p.file 0 (BitVec.ofNat 64 sizeofEhdr))) 0

/-- The program headers as the loader sees them: the file's bytes at
`e_phoff` over the pool. -/
def seenTable (p : BootParams) (header : Elf64_Ehdr) : Nat → Elf64_Phdr :=
  headerTable p.pool (delivered p.file header.e_phoff (tableSize header))

/-- The table in memory is still the one that was read. -/
def TableIntact (p : BootParams) (header : Elf64_Ehdr) (program_headers_table : UINT64)
    (mem : ByteMem) : Prop :=
  ∀ j < max header.e_phnum.toNat 1, headersAt program_headers_table mem j = seenTable p header j

/-- In a load that begins in `s` it is so whenever the second loop looks at
it, and after the loop. -/
def TableKept (fw : Firmware σ) (fuel : Nat) (p : BootParams) (header : Elf64_Ehdr)
    (s : LoaderState σ) : Prop :=
  ∀ address s₁ A s₂, readTable fw p header s = .ok address s₁ →
    allocateImage fw fuel (imagePages (headersAt address s₁.mem) header.e_phnum.toNat) s₁ = .ok A s₂ →
    ∀ i ≤ header.e_phnum.toNat, ∀ t, loadSegments fw p.file (headersAt address) A i s₂ = .ok () t →
      TableIntact p header address t.mem

/-- `BootKernel` returns an error, and `J` holds of the log. -/
def ReturnsError (J : List (Event σ) → Prop) (e : Exit) (s : LoaderState σ) : Prop :=
  e.IsError ∧ Logs J s

section
variable {J : List (Event σ) → Prop} {fw : Firmware σ} {p : BootParams}

/-- What comes after a check runs from the same state. -/
theorem check_then {α : Type} {st : EFI_STATUS} {rest : Boot σ α} {Q : α → LoaderState σ → Prop}
    (h : EFI_ERROR st = false → Triple (Logs J) rest Q (ReturnsError J)) :
    Triple (Logs J) (check st >>= fun _ => rest) Q (ReturnsError J) := by
  refine Triple.bind (R := fun _ s => EFI_ERROR st = false ∧ Logs J s) ?_
    fun _ s hs => h hs.1 s hs.2
  refine Triple.ite (fun he => Triple.throw fun s hs => ⟨he, hs⟩) fun he => ?_
  exact Triple.pure fun s hs => ⟨by simpa using he, hs⟩

/-- An invariant of what neither the firmware nor the file position is part
of. -/
structure FileOnly (I : LoaderState σ → Prop) : Prop where
  call : LoaderOnly I
  position : ∀ s position, I s → I { s with position := position }

theorem logs_fileOnly : FileOnly (Logs J) := ⟨logs_loaderOnly, fun _ _ h => h⟩

/-- Memory is `mem`. -/
def SameMem (mem : ByteMem) (s : LoaderState σ) : Prop := s.mem = mem

theorem sameMem_fileOnly (mem : ByteMem) : FileOnly (SameMem (σ := σ) mem) :=
  ⟨fun _ _ h => h, fun _ _ h => h⟩

section
variable {I : LoaderState σ → Prop}

theorem callChecked_keeps (hI : LoaderOnly I) (service : σ → EFI_STATUS × σ) :
    KeepsInv I Exit.IsError (callChecked service) :=
  KeepsInv.bind (call_keeps hI _) fun st => check_keeps st

theorem allocatePoolChecked_keeps (hI : LoaderOnly I) (size : UINTN) :
    KeepsInv I Exit.IsError (allocatePoolChecked fw size) :=
  KeepsInv.bind (call_keeps hI _) fun r => KeepsInv.bind (check_keeps r.1) fun _ => KeepsInv.pure _

theorem openKernel_keeps (hI : FileOnly I) : KeepsInv I Exit.IsError (openKernel fw p) := by
  refine KeepsInv.bind (callChecked_keeps hI.call _) fun _ => ?_
  refine KeepsInv.bind (allocatePoolChecked_keeps hI.call _) fun _ => ?_
  refine KeepsInv.bind (callChecked_keeps hI.call _) fun _ => ?_
  refine KeepsInv.bind (callChecked_keeps hI.call _) fun _ => ?_
  refine KeepsInv.bind (callChecked_keeps hI.call _) fun _ => ?_
  refine KeepsInv.bind (fun s hs => hI.position _ 0 (hI.call s _ hs)) fun st => ?_
  refine KeepsInv.bind (check_keeps st) fun _ => ?_
  refine KeepsInv.bind (call_keeps hI.call _) fun r => ?_
  refine KeepsInv.bind (allocatePoolChecked_keeps hI.call _) fun _ => ?_
  exact KeepsInv.bind (call_keeps hI.call _) fun r => check_keeps r.1

theorem read_keeps (hI : FileOnly I) (file : List UINT8) (size : UINTN) :
    KeepsInv I Exit.IsError (read fw file size) :=
  fun s hs => hI.position _ _ (hI.call s _ hs)

theorem readAt_keeps (hI : FileOnly I) (file : List UINT8) (position : UINT64) (size : UINTN) :
    KeepsInv I Exit.IsError (readAt fw file position size) := by
  refine KeepsInv.bind (fun s hs => hI.position _ _ (hI.call s _ hs)) fun st => ?_
  refine KeepsInv.bind (check_keeps st) fun _ => KeepsInv.bind (read_keeps hI _ _) fun r => ?_
  exact KeepsInv.bind (check_keeps r.1) fun _ => KeepsInv.pure _

theorem readHeader_keeps (hI : FileOnly I) : KeepsInv I Exit.IsError (readHeader fw p) := by
  refine KeepsInv.bind (read_keeps hI _ _) fun r => KeepsInv.bind (check_keeps r.1) fun _ => ?_
  exact KeepsInv.bind (readAt_keeps hI _ _ _) fun _ => KeepsInv.pure _

end

/-- A read at a position delivers the file's bytes from there. -/
theorem readAt_returns (file : List UINT8) (position : UINT64) (size : UINTN) :
    Triple (Logs J) (readAt fw file position size)
      (fun data s => data = delivered file position size ∧ filePosition file position ≤ file.length ∧
        Logs J s)
      (ReturnsError J) := by
  intro s hs
  unfold readAt
  rw [bind_of_ok (show setPosition fw file position s = .ok _ _ from rfl)]
  by_cases hp : EFI_ERROR (fw.SetPosition position s.firmware).1 = true
  · refine check_then (Q := fun data s => data = delivered file position size ∧
      filePosition file position ≤ file.length ∧ Logs J s) (fun h => ?_) _ hs
    rw [hp] at h
    cases h
  · rw [bind_of_ok (check_of_ok (by simpa using hp)), bind_of_ok (show read fw file size _ = .ok _ _ from rfl)]
    refine check_then (fun h => Triple.pure fun t ht => ⟨?_, ?_, ht⟩) _ hs
    · simp only [hp, Bool.false_eq_true, if_false] at h ⊢
      rw [h]
      rfl
    · simp only [hp, Bool.false_eq_true, if_false] at h
      exact readStatus_ok h

theorem readHeader_returns :
    Triple (Logs J) (readHeader fw p) (fun header s => header = seenHeader p ∧ Logs J s)
      (ReturnsError J) := by
  refine Triple.bind (R := fun _ => Logs J) (fun _ hs => hs) fun r => check_then fun _ => ?_
  refine Triple.bind (readAt_returns _ _ _) fun data => Triple.pure fun s hs => ⟨?_, hs.2.2⟩
  rw [hs.1]
  rfl

theorem tableReach_lt (header : Elf64_Ehdr) : tableReach header < 2 ^ 64 := by
  have hs : sizeofPhdr = 56 := by decide
  have := header.e_phnum.isLt
  have := (tableSize header).isLt
  unfold tableReach
  rw [hs]
  omega

/-- The entries the loops look at are in reach. -/
theorem entry_lt_reach {header : Elf64_Ehdr} {j k : Nat} (hj : j < max header.e_phnum.toNat 1)
    (hk : k < sizeofPhdr) : sizeofPhdr * j + k < tableReach header := by
  have := Nat.mul_le_mul_left sizeofPhdr (Nat.succ_le_of_lt hj)
  rw [Nat.mul_succ] at this
  unfold tableReach
  omega

/-- The loops find the table that was read. -/
theorem placeTable_intact (mem : ByteMem) (header : Elf64_Ehdr) (address : UINT64) :
    TableIntact p header address (fill mem address (tableReach header) fun k =>
      fileBytes p.pool (delivered p.file header.e_phoff (tableSize header)) (BitVec.ofNat 64 k)) := by
  intro j hj
  refine loadPhdr_congr fun k hk => ?_
  have hreach := entry_lt_reach hj hk
  have hoff : (address + BitVec.ofNat 64 (sizeofPhdr * j + k) - address).toNat = sizeofPhdr * j + k :=
    add_ofNat_sub address (Nat.lt_trans hreach (tableReach_lt header))
  rw [BitVec.add_assoc, ← BitVec.ofNat_add, fill_inside (by rw [hoff]; exact hreach), hoff,
    BitVec.ofNat_add]

theorem readTable_returns (header : Elf64_Ehdr) :
    Triple (Logs J) (readTable fw p header)
      (fun address s => TableIntact p header address s.mem ∧
        filePosition p.file header.e_phoff ≤ p.file.length ∧ Logs J s)
      (ReturnsError J) := by
  refine Triple.bind (allocatePoolChecked_keeps logs_loaderOnly _) fun address => ?_
  refine Triple.bind (readAt_returns _ _ _) fun data => ?_
  refine Triple.bind (R := fun _ s => TableIntact p header address s.mem ∧
    filePosition p.file header.e_phoff ≤ p.file.length ∧ Logs J s) ?_ fun _ => Triple.pure fun s hs => hs
  rintro s ⟨rfl, hs⟩
  exact ⟨placeTable_intact s.mem header address, hs⟩

variable (fw) in
theorem freeTable_runs (address : UINT64) (s : LoaderState σ) :
    ∃ w, freeTable fw address s = .ok () { s with firmware := w } := by
  unfold freeTable
  by_cases h : address ≠ 0
  · rw [if_pos h]
    exact ⟨_, rfl⟩
  · rw [if_neg h]
    exact ⟨s.firmware, rfl⟩

/-- No `ExitBootServices`. -/
def NotExited (log : List (Event σ)) : Prop :=
  ∀ key status, Event.exitBootServices key status ∉ log

theorem NotExited.append {log : List (Event σ)} (h : NotExited log) {e : Event σ}
    (he : ∀ key status, e ≠ .exitBootServices key status) : NotExited (log ++ [e]) := by
  intro key status hmem
  rcases List.mem_append.mp hmem with hold | hnew
  · exact h key status hold
  · exact he key status (List.mem_singleton.mp hnew).symm

/-- The parts of a load up to `MapVirtualPages`: the table is at `address`,
the pages are those at `A`, and the load loop ran from `s₂` to `s₃`. -/
structure ImageLoad (fw : Firmware σ) (fuel : Nat) (p : BootParams) (header : Elf64_Ehdr)
    (s : LoaderState σ) (address : UINT64) (s₁ : LoaderState σ) (A : UINT64) (s₂ s₃ : LoaderState σ) :
    Prop where
  table : readTable fw p header s = .ok address s₁
  pages : allocateImage fw fuel (imagePages (headersAt address s₁.mem) header.e_phnum.toNat) s₁ = .ok A s₂
  segments : loadSegments fw p.file (headersAt address) A header.e_phnum.toNat s₂ = .ok () s₃

section
variable {fuel : Nat} {header : Elf64_Ehdr} {s s' : LoaderState σ} {image : Image}
  {startAddress : UINT64}

theorem loadImage_ok (h : loadImage fw fuel p header s = .ok (image, startAddress) s') :
    ∃ address s₁ A s₂ s₃ w, ImageLoad fw fuel p header s address s₁ A s₂ s₃ ∧
      image = ⟨A, imagePages (headersAt address s₁.mem) header.e_phnum.toNat, header.e_entry⟩ ∧
      startAddress = (headersAt address s₃.mem 0).p_vaddr ∧ s' = { s₃ with firmware := w } := by
  obtain ⟨address, s₁, htable, hrest⟩ := ok_of_bind h
  rw [get_bind] at hrest
  obtain ⟨A, s₂, hpages, hload⟩ := ok_of_bind hrest
  obtain ⟨_, s₃, hsegments, hend⟩ := ok_of_bind hload
  rw [get_bind] at hend
  obtain ⟨w, hw⟩ := freeTable_runs fw address s₃
  rw [bind_of_ok hw] at hend
  cases hend
  exact ⟨address, s₁, A, s₂, s₃, w, ⟨htable, hpages, hsegments⟩, rfl, rfl, rfl⟩

theorem loadImage_of {address A : UINT64} {s₁ s₂ s₃ : LoaderState σ}
    (h : ImageLoad fw fuel p header s address s₁ A s₂ s₃) (hfree : freeTable fw address s₃ = .ok () s') :
    loadImage fw fuel p header s =
      .ok (⟨A, imagePages (headersAt address s₁.mem) header.e_phnum.toNat, header.e_entry⟩,
        (headersAt address s₃.mem 0).p_vaddr) s' := by
  rw [loadImage, bind_of_ok h.table, get_bind, bind_of_ok h.pages, bind_of_ok h.segments, get_bind,
    bind_of_ok hfree]
  rfl

theorem loadElf_ok (h : loadElf fw fuel p header s = .ok image s') :
    ∃ startAddress s₃, loadImage fw fuel p header s = .ok (image, startAddress) s₃ ∧
      mapImage fw image.KernelBaseAddress startAddress image.KernelPages s₃ = .ok () s' := by
  obtain ⟨⟨image', startAddress⟩, s₃, himage, hrest⟩ := ok_of_bind h
  obtain ⟨_, s₄, hmap, hpure⟩ := ok_of_bind hrest
  cases hpure
  exact ⟨startAddress, s₃, himage, hmap⟩

/-- The table right after it was read, as the extent loop sees it. -/
theorem imagePages_read {address : UINT64} {s₁ : LoaderState σ}
    (h : readTable fw p header s = .ok address s₁) :
    imagePages (headersAt address s₁.mem) header.e_phnum.toNat =
      imagePages (seenTable p header) header.e_phnum.toNat := by
  have hintact := ((readTable_returns (J := fun _ => True) header).ok trivial h).1
  rw [imagePages, extent_congr fun i hi => hintact i (by omega), ← imagePages]

/-- A load whose table is kept is one with the table that was read. -/
structure KeptLoad (fw : Firmware σ) (fuel : Nat) (p : BootParams) (header : Elf64_Ehdr)
    (s : LoaderState σ) (A : UINT64) (s₁ s₂ s₃ : LoaderState σ) : Prop where
  inFile : filePosition p.file header.e_phoff ≤ p.file.length
  log : s₁.log = s.log
  pages : allocateImage fw fuel (imagePages (seenTable p header) header.e_phnum.toNat) s₁ = .ok A s₂
  segments : loadSegments fw p.file (unchanging (seenTable p header)) A header.e_phnum.toNat s₂ =
    .ok () s₃

theorem ImageLoad.kept (hkept : TableKept fw fuel p header s) {address A : UINT64}
    {s₁ s₂ s₃ : LoaderState σ} (h : ImageLoad fw fuel p header s address s₁ A s₂ s₃) :
    KeptLoad fw fuel p header s A s₁ s₂ s₃ := by
  obtain ⟨-, hinFile, hlog⟩ := (readTable_returns (J := fun l => l = s.log) header).ok rfl h.table
  refine ⟨hinFile, hlog, ?_, ?_⟩
  · rw [← imagePages_read h.table]
    exact h.pages
  · rw [← h.segments]
    refine (loadSegments_unchanging fun i hi t ht => ?_).symm
    have hintact := hkept address s₁ A s₂ h.table h.pages i (Nat.le_of_lt hi) t ht
    exact ⟨hintact i (by omega), hintact 0 (by omega)⟩

theorem ImageLoad.intact (hkept : TableKept fw fuel p header s) {address A : UINT64}
    {s₁ s₂ s₃ : LoaderState σ} (h : ImageLoad fw fuel p header s address s₁ A s₂ s₃) :
    TableIntact p header address s₃.mem :=
  hkept address s₁ A s₂ h.table h.pages _ (Nat.le_refl _) s₃ h.segments

end

end

/-! ## A table outside the allocated pages -/

section
variable {fw : Firmware σ} {fuel : Nat} {p : BootParams} {header : Elf64_Ehdr} {address A : UINT64}

theorem tableOutside_of_apart {mem : ByteMem} {pages : Nat} (h : TableIntact p header address mem)
    (hapart : Apart address (tableReach header) A (pages * 4096)) :
    TableOutside (headersAt address) (seenTable p header) header.e_phnum.toNat A pages mem := by
  intro mem' hsame i hi
  rw [← h i (by omega)]
  refine loadPhdr_congr fun k hk => ?_
  have hreach := entry_lt_reach (show i < max header.e_phnum.toNat 1 by omega) hk
  rw [BitVec.add_assoc, ← BitVec.ofNat_add]
  refine hsame _ (hapart _ ?_)
  rw [add_ofNat_sub address (Nat.lt_trans hreach (tableReach_lt header))]
  exact hreach

/-- The table is kept where `AllocatePages` gives pages outside its pool, the
search leaves it alone and the segments fit the pages. -/
theorem tableKept_of_fits {s : LoaderState σ}
    (hfit : SegmentsFit (seenTable p header) header.e_phnum.toNat)
    (hpages : ∀ address s₁ A s₂, readTable fw p header s = .ok address s₁ →
      allocateImage fw fuel (imagePages (headersAt address s₁.mem) header.e_phnum.toNat) s₁ = .ok A s₂ →
      TableIntact p header address s₂.mem ∧ Apart address (tableReach header) A
        (spanPages (seenTable p header) header.e_phnum.toNat * 4096)) :
    TableKept fw fuel p header s := by
  intro address s₁ A s₂ htable halloc i hi t ht
  obtain ⟨hintact, hapart⟩ := hpages address s₁ A s₂ htable halloc
  have hout := tableOutside_of_apart hintact hapart
  rw [loadSegments_outside hfit hout hi] at ht
  have hkept := hout t.mem fun x hx => by
    rw [(loadSegments_ok ht).1]
    exact loadedMem_outside hfit p.file s₂.mem hi hx
  exact fun j hj => hkept j (by omega)

end

/-! ## A firmware that obliges -/

/-- From its states in `K`, the firmware serves every call up to the loader
block, and nobody else writes to memory. -/
structure Obliging (fw : Firmware σ) (K : σ → Prop) : Prop extends ReadsFile fw K where
  openProtocol : Serves K id fw.OpenProtocol
  openVolume : Serves K id fw.OpenVolume
  openFile : Serves K id fw.Open
  getInfo : ∀ size, Serves K Prod.fst (fw.GetInfo size)
  allocatePool : ∀ size, Serves K Prod.fst (fw.AllocatePool size)
  freePool : ∀ address, Serves K id (fw.FreePool address)
  allocatePages : ∀ pages address, Serves K id (fw.AllocatePages pages address)
  tableFrames : ∀ w, K w → K (fw.tableFrames w).2
  strayWrites : ∀ w mem, fw.strayWrites w mem = mem

theorem obliging_obliging : Obliging obliging fun _ => True where
  toReadsFile := obliging_readsFile
  openProtocol := obliging_serves fun _ => rfl
  openVolume := obliging_serves fun _ => rfl
  openFile := obliging_serves fun _ => rfl
  getInfo _ := obliging_serves fun _ => rfl
  allocatePool _ := obliging_serves fun _ => rfl
  freePool _ := obliging_serves fun _ => rfl
  allocatePages _ _ := obliging_serves fun _ => rfl
  tableFrames _ _ := trivial
  strayWrites _ _ := rfl

section
variable {fw : Firmware σ} {K : σ → Prop} {I : LoaderState σ → Prop} {p : BootParams}

theorem callChecked_runs {service : σ → EFI_STATUS × σ} (h : Serves K id service)
    (hI : LoaderOnly I) :
    Runs (fun s => K s.firmware ∧ I s) (callChecked service) fun _ s => K s.firmware ∧ I s :=
  Triple.bind (call_runs h hI) fun _ => check_runs

theorem allocatePoolChecked_runs (h : Obliging fw K) (hI : LoaderOnly I) (size : UINTN) :
    Runs (fun s => K s.firmware ∧ I s) (allocatePoolChecked fw size)
      fun _ s => K s.firmware ∧ I s :=
  Triple.bind (call_runs (h.allocatePool size) hI) fun _ =>
    Triple.bind check_runs fun _ => Triple.pure fun _ hs => hs

theorem openKernel_runs (h : Obliging fw K) :
    Runs (fun s => K s.firmware) (openKernel fw p) fun _ s => K s.firmware ∧ s.position = 0 := by
  have any : LoaderOnly fun _ : LoaderState σ => True := fun _ _ _ => trivial
  have atStart : LoaderOnly fun s : LoaderState σ => s.position = 0 := fun _ _ hs => hs
  refine Triple.pre ?_ fun s (hs : K s.firmware) => And.intro hs trivial
  refine Triple.bind (callChecked_runs h.openProtocol any) fun _ => ?_
  refine Triple.bind (allocatePoolChecked_runs h any _) fun _ => ?_
  refine Triple.bind (callChecked_runs (h.freePool _) any) fun _ => ?_
  refine Triple.bind (callChecked_runs h.openProtocol any) fun _ => ?_
  refine Triple.bind (callChecked_runs h.openVolume any) fun _ => ?_
  -- from here on the file is at its beginning
  refine Triple.bind (R := fun st s => EFI_ERROR st = false ∧ K s.firmware ∧ s.position = 0)
    (fun s hs => ⟨(h.openFile s.firmware hs.1).1, (h.openFile s.firmware hs.1).2, rfl⟩) fun _ => ?_
  refine Triple.bind check_runs fun _ => ?_
  refine Triple.bind (R := fun _ s => K s.firmware ∧ s.position = 0)
    ((call_runs (h.getInfo 0) atStart).post fun _ _ hs => hs.2) fun r => ?_
  refine Triple.bind (allocatePoolChecked_runs h atStart _) fun _ => ?_
  exact Triple.bind (call_runs (h.getInfo _) atStart) fun _ => check_runs

theorem readAt_runs (h : ReadsFile fw K) {file : List UINT8} {position : UINT64}
    (hp : filePosition file position ≤ file.length) (size : UINTN) :
    Runs (fun s => K s.firmware) (readAt fw file position size)
      fun data s => data = delivered file position size ∧ K s.firmware := by
  refine Triple.bind (setPosition_runs h position) fun st => Triple.bind check_runs fun _ => ?_
  refine Triple.bind (read_runs h size _ hp) fun r => Triple.bind check_runs fun _ => ?_
  exact Triple.pure fun s hs => hs

theorem readHeader_runs (h : ReadsFile fw K) :
    Runs (fun s => K s.firmware ∧ s.position = 0) (readHeader fw p)
      fun header s => header = seenHeader p ∧ K s.firmware := by
  have hstart : filePosition p.file 0 ≤ p.file.length := by
    rw [filePosition_zero]
    exact Nat.zero_le _
  refine Triple.bind (read_runs h _ 0 (Nat.zero_le _)) fun r => Triple.bind check_runs fun _ => ?_
  refine Triple.bind ((readAt_runs h hstart _).pre fun s hs => hs.2) fun data => Triple.pure fun s hs => ?_
  rw [hs.1]
  exact ⟨rfl, hs.2⟩

theorem readTable_runs (h : Obliging fw K) {header : Elf64_Ehdr}
    (hp : filePosition p.file header.e_phoff ≤ p.file.length) :
    Runs (fun s => K s.firmware) (readTable fw p header) fun _ s => K s.firmware := by
  have any : LoaderOnly fun _ : LoaderState σ => True := fun _ _ _ => trivial
  refine Triple.bind ((allocatePoolChecked_runs h any _).consequence (fun s hs => ⟨hs, trivial⟩)
    (fun _ _ hs => hs.1) fun _ _ hs => hs) fun address => ?_
  refine Triple.bind (readAt_runs h.toReadsFile hp _) fun data => ?_
  refine Triple.bind (R := fun _ (s : LoaderState σ) => K s.firmware) (fun s hs => hs.2) fun _ => ?_
  exact Triple.pure fun s hs => hs

/-- Memory with the first pages zeroed. -/
def zeroedFirst (mem : ByteMem) (pages : UINTN) : ByteMem :=
  fill mem firstAddress (pages <<< EFI_PAGE_SHIFT).toNat fun _ => 0

/-- Nothing but zeros is in the pages that were zeroed. -/
theorem allocateFirst_runs (h : Obliging fw K) (pages : UINTN) (mem : ByteMem) :
    Runs (fun s => K s.firmware ∧ s.mem = mem) (allocateFirst fw pages)
      fun notZero s => notZero = false ∧ K s.firmware ∧ s.mem = zeroedFirst mem pages := by
  have same : LoaderOnly (SameMem (σ := σ) mem) := fun _ _ hs => hs
  refine Triple.bind (call_runs (h.allocatePages pages firstAddress) same) fun st => ?_
  refine Triple.bind check_runs fun _ => ?_
  refine Triple.bind (R := fun _ s => K s.firmware ∧ s.mem = zeroedFirst mem pages)
    (fun s hs => ⟨hs.1, ?_⟩) fun _ => ?_
  · dsimp only
    rw [h.strayWrites, show s.mem = mem from hs.2, zeroedFirst]
  · refine Triple.get fun s hs => Triple.pure fun t ht => ?_
    rw [ht]
    refine ⟨?_, hs⟩
    rw [hs.2, VerifyZeroMem_false_iff]
    intro i hi
    have := (pages <<< EFI_PAGE_SHIFT).isLt
    exact fill_inside (by rw [add_ofNat_sub _ (by omega)]; exact hi)

/-- The pages are those at the first address. -/
theorem allocateImage_runs (h : Obliging fw K) (fuel : Nat) (pages : UINTN) (mem : ByteMem) :
    Runs (fun s => K s.firmware ∧ s.mem = mem) (allocateImage fw fuel pages)
      fun A s => A = firstAddress ∧ K s.firmware ∧ s.mem = zeroedFirst mem pages := by
  refine Triple.bind (allocateFirst_runs h pages mem) fun notZero => Triple.ite (fun hz => ?_) fun _ => ?_
  · intro s hs
    rw [hz] at hs
    cases hs.1
  · exact Triple.pure fun s hs => ⟨rfl, hs.2⟩

theorem freeTable_obliges (h : Obliging fw K) (address : UINT64) :
    Runs (fun s => K s.firmware) (freeTable fw address) fun _ s => K s.firmware :=
  Triple.ite (fun _ s hs => (h.freePool address s.firmware hs).2) fun _ _ hs => hs

/-- Where all pools are at one address, so is the table. -/
theorem readTable_pool {pool address : UINT64} {s s₁ : LoaderState σ} {header : Elf64_Ehdr}
    (hpool : ∀ size w, (fw.AllocatePool size w).1.2 = pool)
    (h : readTable fw p header s = .ok address s₁) : address = pool := by
  obtain ⟨a, t, ht, hrest⟩ := ok_of_bind h
  obtain ⟨r, t₁, hcall, hcheck⟩ := ok_of_bind ht
  obtain ⟨_, t₂, _, hpure⟩ := ok_of_bind hcheck
  obtain ⟨data, t₃, _, hplace⟩ := ok_of_bind hrest
  cases hcall
  cases hpure
  cases hplace
  exact hpool _ _

/-- Nothing but the table's pool is written to. -/
theorem readTable_mem {address x : UINT64} {s s₁ : LoaderState σ} {header : Elf64_Ehdr}
    (h : readTable fw p header s = .ok address s₁) (hx : ¬ (x - address).toNat < tableReach header) :
    s₁.mem x = s.mem x := by
  obtain ⟨a, t, ht, hrest⟩ := ok_of_bind h
  obtain ⟨data, t₁, hdata, hplace⟩ := ok_of_bind hrest
  have hpool := (allocatePoolChecked_keeps (I := SameMem s.mem) (fun _ _ h => h) _).ok rfl ht
  have hread := (readAt_keeps (sameMem_fileOnly s.mem) _ _ _).ok hpool hdata
  cases hplace
  rw [← show t₁.mem = s.mem from hread]
  dsimp only
  exact fill_outside hx

/-- The table is kept where the pools lie outside the first pages and the
segments fit these. -/
theorem Obliging.tableKept (h : Obliging fw K) {pool : UINT64}
    (hpool : ∀ size w, (fw.AllocatePool size w).1.2 = pool) (fuel : Nat) {header : Elf64_Ehdr}
    (hfit : SegmentsFit (seenTable p header) header.e_phnum.toNat)
    (hapart : Apart pool (tableReach header) firstAddress
      (spanPages (seenTable p header) header.e_phnum.toNat * 4096)) {s : LoaderState σ} (hs : K s.firmware) :
    TableKept fw fuel p header s := by
  refine tableKept_of_fits hfit fun address s₁ A s₂ htable halloc => ?_
  obtain ⟨hintact, hinFile, -⟩ := (readTable_returns (J := fun _ => True) header).ok trivial htable
  have hpoolAt := readTable_pool hpool htable
  have hs₁ : K s₁.firmware := by
    have := readTable_runs h hinFile s hs
    rwa [htable] at this
  have hs₂ := allocateImage_runs h fuel
    (imagePages (headersAt address s₁.mem) header.e_phnum.toNat) s₁.mem s₁ ⟨hs₁, rfl⟩
  rw [halloc] at hs₂
  obtain ⟨rfl, -, hmem⟩ := hs₂
  subst hpoolAt
  refine ⟨fun j hj => ?_, hapart⟩
  -- what was zeroed is inside the pages
  have hout := tableOutside_of_apart hintact hapart
  refine hout s₂.mem (fun x hx => ?_) j (by omega)
  rw [hmem, zeroedFirst, fill_outside]
  intro hin
  rw [imagePages_read htable, page_shift, imagePages_toNat] at hin
  exact hx (Nat.lt_of_lt_of_le hin (Nat.mod_le _ _))

/-- With pages at 1 GiB, a table at 64 KiB is left alone. -/
structure LeavesTable (p : BootParams) : Prop where
  fits : SegmentsFit (seenTable p (seenHeader p)) (seenHeader p).e_phnum.toNat
  reach : tableReach (seenHeader p) ≤ 0x3FFF0000
  below : spanPages (seenTable p (seenHeader p)) (seenHeader p).e_phnum.toNat ≤ 0x100000

theorem LeavesTable.kept (hp : LeavesTable p) (h : Obliging fw K)
    (hpool : ∀ size w, (fw.AllocatePool size w).1.2 = 0x10000) (fuel : Nat) {s : LoaderState σ}
    (hs : K s.firmware) : TableKept fw fuel p (seenHeader p) s := by
  refine h.tableKept hpool fuel hp.fits (apart_of_ranges (.inl ?_) ?_ ?_) hs
  · have := hp.reach
    show 0x10000 + _ ≤ 0x40000000
    omega
  · have := hp.reach
    show 0x10000 + _ ≤ 2 ^ 64
    omega
  · have := hp.below
    show 0x40000000 + _ ≤ 2 ^ 64
    omega

/-- An ELF file whose parts lie in the file is loaded, if its table is kept. -/
theorem loadElf_obliges (h : Obliging fw K) {fuel : Nat} {header : Elf64_Ehdr} {s : LoaderState σ}
    (hs : K s.firmware) (hkept : TableKept fw fuel p header s)
    (hp : filePosition p.file header.e_phoff ≤ p.file.length)
    (hf : ∀ i ∈ loads (seenTable p header) header.e_phnum.toNat, (seenTable p header i).p_filesz ≠ 0 →
      filePosition p.file (seenTable p header i).p_offset ≤ p.file.length) :
    ∃ image s', loadElf fw fuel p header s = .ok image s' ∧ K s'.firmware := by
  obtain ⟨address, s₁, htable, hs₁⟩ := (readTable_runs h hp).ok hs
  obtain ⟨A, s₂, hpages, -, hs₂, -⟩ := (allocateImage_runs h fuel
    (imagePages (headersAt address s₁.mem) header.e_phnum.toNat) s₁.mem).ok ⟨hs₁, rfl⟩
  obtain ⟨_, s₃, hsegments, hs₃⟩ := (loadSegments_runs (A := A) h.toReadsFile hf).ok hs₂
  have hsame : loadSegments fw p.file (headersAt address) A header.e_phnum.toNat s₂ =
      loadSegments fw p.file (unchanging (seenTable p header)) A header.e_phnum.toNat s₂ := by
    refine loadSegments_unchanging fun i hi t ht => ?_
    have hintact := hkept address s₁ A s₂ htable hpages i (Nat.le_of_lt hi) t ht
    exact ⟨hintact i (by omega), hintact 0 (by omega)⟩
  obtain ⟨_, s₄, hfree, hs₄⟩ := (freeTable_obliges h address).ok hs₃
  have himage := loadImage_of ⟨htable, hpages, hsame.trans hsegments⟩ hfree
  obtain ⟨s', hmap, hs'⟩ : ∃ s', mapImage fw A (headersAt address s₃.mem 0).p_vaddr
      (imagePages (headersAt address s₁.mem) header.e_phnum.toNat) s₄ = .ok () s' ∧ K s'.firmware :=
    ⟨_, rfl, h.tableFrames s₄.firmware hs₄⟩
  refine ⟨⟨A, imagePages (headersAt address s₁.mem) header.e_phnum.toNat, header.e_entry⟩, s', ?_, hs'⟩
  exact (bind_of_ok himage).trans (bind_of_ok hmap)

/-- The file does not stop the load: the parts of it that are read start
inside it. Nothing is read of a file without the magic number. -/
def Loadable (p : BootParams) : Prop :=
  hasMagic (seenHeader p) = true →
    isNative (seenHeader p) = true ∧ filePosition p.file (seenHeader p).e_phoff ≤ p.file.length ∧
    ∀ i ∈ loads (seenTable p (seenHeader p)) (seenHeader p).e_phnum.toNat,
      (seenTable p (seenHeader p) i).p_filesz ≠ 0 →
        filePosition p.file (seenTable p (seenHeader p) i).p_offset ≤ p.file.length

theorem loadKernel_obliges (h : Obliging fw K) {fuel : Nat} (hl : Loadable p) {s : LoaderState σ}
    (hs : K s.firmware)
    (hkept : hasMagic (seenHeader p) = true → TableKept fw fuel p (seenHeader p) s) :
    ∃ image s', loadKernel fw fuel p (seenHeader p) s = .ok image s' ∧ K s'.firmware := by
  unfold loadKernel
  by_cases hm : hasMagic (seenHeader p) = true
  · obtain ⟨hn, hp, hf⟩ := hl hm
    rw [if_pos hm, if_pos hn]
    exact loadElf_obliges h hs (hkept hm) hp hf
  · rw [if_neg hm]
    exact ⟨_, s, rfl, hs⟩

/-- An obliging firmware and a loadable file take the loader to the point
where it leaves boot services. -/
theorem bootKernel_reaches_handOver (h : Obliging fw K) (fuel : Nat) (hl : Loadable p)
    (hkept : ∀ s, K s.firmware → hasMagic (seenHeader p) = true → TableKept fw fuel p (seenHeader p) s)
    {s : LoaderState σ} (hs : K s.firmware) :
    ∃ s₁ image s₂, s₁.log = s.log ∧ loadKernel fw fuel p (seenHeader p) s₁ = .ok image s₂ ∧
      K s₂.firmware ∧ bootKernel fw fuel p s = handOver fw p image s₂ := by
  obtain ⟨_, s₀, h₀, hs₀⟩ := (openKernel_runs (p := p) h).ok hs
  obtain ⟨_, s₁, h₁, rfl, hs₁⟩ := (readHeader_runs (p := p) h.toReadsFile).ok hs₀
  obtain ⟨image, s₂, h₂, hs₂⟩ := loadKernel_obliges h hl hs₁ (hkept s₁ hs₁)
  have hlog₀ := (openKernel_keeps (logs_fileOnly (J := fun l => l = s.log))).ok rfl h₀
  have hlog₁ := ((readHeader_returns (J := fun l => l = s.log)).ok hlog₀ h₁).2
  refine ⟨s₁, image, s₂, hlog₁, h₂, hs₂, ?_⟩
  unfold bootKernel
  rw [bind_of_ok h₀, bind_of_ok h₁, bind_of_ok h₂]

end

end PiousOS.Loader
