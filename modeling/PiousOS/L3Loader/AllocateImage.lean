import PiousOS.L3Loader.FreeAddress

/-!
# Finding memory for the kernel (`BootKernel`)

The loader allocates the pages of the image at 1 GiB, zeroes them and looks
whether they stay zero. If they do not, and what is there is not the start of
an ELF file, it gives the pages back and searches: region by region, then,
when the regions run out, page by page.

The four search loops of the source are `allocateAt` with different
neighbours and ends; the two loops that look at what was found are
`untilClear`. Each round of a loop takes one unit of fuel.
-/
namespace PiousOS.Loader
open ByteMem Elf EarlyExit

variable {σ : Type}

/-- `AllocatedMemory` to begin with, 1 GiB. -/
def firstAddress : UINT64 := 0x40000000

/-- Allocate, zero and verify: true if the pages are not all zero.
mirrors src/bootloader/boot.c:278-296 -/
def allocateFirst (fw : Firmware σ) (pages : UINTN) : Boot σ Bool := do
  let BootStatus ← call (fw.AllocatePages pages firstAddress)
  check BootStatus
  zeroPages fw firstAddress (pages <<< EFI_PAGE_SHIFT)
  let s ← get
  pure (VerifyZeroMem s.mem (pages <<< EFI_PAGE_SHIFT) firstAddress)

/-- What an address holds counts as the loader's own remains if it starts
like an ELF file. -/
def ownRemains (mem : ByteMem) (AllocatedMemory : UINT64) : Bool :=
  Compare (bytesAt mem AllocatedMemory) ELFMAG SELFMAG

/-- The next address to try; the one known to be bad is passed over once. -/
def nextAddress (search : UINT64 → Boot σ UINT64) (OldAllocatedMemory NewAddress : UINT64) :
    Boot σ UINT64 := do
  let NewAddress ← search NewAddress
  if NewAddress = OldAllocatedMemory then search NewAddress else pure NewAddress

/-- Where to try next after `BootStatus`: a status that is neither
`EFI_NOT_FOUND` nor an error tries the same address again. -/
def addressAfter (search : UINT64 → Boot σ UINT64) (OldAllocatedMemory : UINT64)
    (BootStatus : EFI_STATUS) (NewAddress : UINT64) : Boot σ UINT64 :=
  if BootStatus = EFI_NOT_FOUND then nextAddress search OldAllocatedMemory NewAddress
  else do
    check BootStatus
    pure NewAddress

/-- A search loop: until `AllocatePages` succeeds or `ended`.
mirrors src/bootloader/boot.c:330-363, 391-414, 432-459, 484-509 -/
def allocateAt (fw : Firmware σ) (search : UINT64 → Boot σ UINT64) (pages : UINTN)
    (OldAllocatedMemory : UINT64) (ended giveUp : UINT64 → Bool) :
    Nat → EFI_STATUS → UINT64 → Boot σ UINT64
  | 0, _, _ => throw .searching
  | fuel + 1, BootStatus, NewAddress =>
    if BootStatus = EFI_SUCCESS ∨ ended NewAddress = true then pure NewAddress
    else do
      let NewAddress ← addressAfter search OldAllocatedMemory BootStatus NewAddress
      if giveUp NewAddress then throw (.returned BootStatus)
      else
        let BootStatus ← call (fw.AllocatePages pages NewAddress)
        allocateAt fw search pages OldAllocatedMemory ended giveUp fuel BootStatus NewAddress

/-- A verification loop: give back what does not hold zeros and look again.
mirrors src/bootloader/boot.c:369-423, 464-516 -/
def untilClear (fw : Firmware σ) (pages : UINTN) (ended : UINT64 → Bool)
    (again : UINT64 → Boot σ UINT64) : Nat → UINT64 → Boot σ UINT64
  | 0, _ => throw .searching
  | fuel + 1, AllocatedMemory => do
    let s ← get
    if ended AllocatedMemory ∨
        VerifyZeroMem s.mem (pages <<< EFI_PAGE_SHIFT) AllocatedMemory = false then
      pure AllocatedMemory
    else if ownRemains s.mem AllocatedMemory then pure AllocatedMemory
    else
      let BootStatus ← call (fw.FreePages AllocatedMemory pages)
      check BootStatus
      let NewAddress ← again AllocatedMemory
      untilClear fw pages ended again fuel NewAddress

/-- Region by region, from address 0.
mirrors src/bootloader/boot.c:326-423 -/
def searchRegions (fw : Firmware σ) (fuel : Nat) (pages : UINTN) (OldAllocatedMemory : UINT64) :
    Boot σ UINT64 := do
  let search := ActuallyFreeAddress fw fuel pages
  let BootStatus ← call (fw.AllocatePages pages 0)
  let NewAddress ← allocateAt fw search pages OldAllocatedMemory (fun _ => false) (· == noAddress)
    fuel BootStatus 0
  untilClear fw pages (· == noAddress)
    (allocateAt fw search pages OldAllocatedMemory (· == noAddress) (fun _ => false)
      fuel EFI_NOT_FOUND)
    fuel NewAddress

/-- Page by page, from the first region. The inner loop gives up on the
address that was given back, not on the one it has found.
mirrors src/bootloader/boot.c:427-517 -/
def searchPages (fw : Firmware σ) (fuel : Nat) (pages : UINTN) (OldAllocatedMemory : UINT64) :
    Boot σ UINT64 := do
  let search := ActuallyFreeAddressByPage fw fuel pages
  let NewAddress ← ActuallyFreeAddress fw fuel pages 0
  let AllocatedMemory ← allocateAt fw search pages OldAllocatedMemory (fun _ => false)
    (· == noAddress) fuel EFI_NOT_FOUND NewAddress
  untilClear fw pages (fun _ => false)
    (fun AllocatedMemory => allocateAt fw search pages OldAllocatedMemory (fun _ => false)
      (fun _ => AllocatedMemory == noAddress) fuel EFI_NOT_FOUND AllocatedMemory)
    fuel AllocatedMemory

/-- `AllocatedMemory` when the segments are loaded.
mirrors src/bootloader/boot.c:278-522 -/
def allocateImage (fw : Firmware σ) (fuel : Nat) (pages : UINTN) : Boot σ UINT64 := do
  let notZero ← allocateFirst fw pages
  if notZero then
    let s ← get
    if ownRemains s.mem firstAddress then pure firstAddress
    else
      let BootStatus ← call (fw.FreePages firstAddress pages)
      check BootStatus
      let AllocatedMemory ← searchRegions fw fuel pages firstAddress
      if AllocatedMemory = noAddress then searchPages fw fuel pages firstAddress
      else pure AllocatedMemory
  else pure firstAddress

/-! ## The search keeps the loader's state -/

section
variable {I : LoaderState σ → Prop} (hI : LoaderOnly I) (fw : Firmware σ) (fuel : Nat)
  (pages : UINTN) (OldAllocatedMemory : UINT64)
include hI

omit hI in
theorem stops_check (BootStatus : EFI_STATUS) :
    KeepsInv I Exit.Stops (check BootStatus : Boot σ Unit) :=
  (check_keeps BootStatus).mono fun _ => .inr

omit hI in
theorem nextAddress_keeps {search : UINT64 → Boot σ UINT64}
    (hs : ∀ a, KeepsInv I Exit.Stops (search a)) (a : UINT64) :
    KeepsInv I Exit.Stops (nextAddress search OldAllocatedMemory a) :=
  KeepsInv.bind (hs a) fun b => KeepsInv.ite (fun _ => hs b) fun _ => KeepsInv.pure b

omit hI in
/-- The address changes only after `EFI_NOT_FOUND`. -/
theorem addressAfter_keeps {search : UINT64 → Boot σ UINT64}
    (hs : ∀ a, KeepsInv I Exit.Stops (search a)) (BootStatus : EFI_STATUS) (a : UINT64) :
    Triple I (addressAfter search OldAllocatedMemory BootStatus a)
      (fun b s => (BootStatus = EFI_NOT_FOUND ∨ b = a) ∧ I s) fun e s => e.Stops ∧ I s := by
  refine Triple.ite (fun hf => ?_) fun _ => ?_
  · exact (nextAddress_keeps _ hs a).post fun _ _ h => ⟨.inl hf, h⟩
  · exact Triple.bind (stops_check _) fun _ => Triple.pure fun _ h => ⟨.inr rfl, h⟩

end

/-! ## The first address -/

section
variable {fw : Firmware σ} {fuel : Nat} {pages : UINTN} {s s' : LoaderState σ}

/-- Pages that verified as zero at the first address are the image's. -/
theorem allocateImage_first (h : allocateFirst fw pages s = .ok false s') :
    allocateImage fw fuel pages s = .ok firstAddress s' := by
  unfold allocateImage
  rw [bind_of_ok h]
  rfl

/-- Verified pages are zero. -/
theorem allocateFirst_zero (h : allocateFirst fw pages s = .ok false s') :
    ∀ i < (pages <<< EFI_PAGE_SHIFT).toNat, s'.mem (firstAddress + BitVec.ofNat 64 i) = 0 := by
  obtain ⟨st, s₁, h₁, hcheck⟩ := ok_of_bind h
  obtain ⟨_, s₂, h₂, hzero⟩ := ok_of_bind hcheck
  obtain ⟨_, s₃, h₃, hget⟩ := ok_of_bind hzero
  obtain ⟨t, s₄, h₄, hverify⟩ := ok_of_bind hget
  cases h₄
  have hv := congrArg (fun r => match r with | .ok a _ => a | .error _ _ => true) hverify
  have hs := congrArg final hverify
  simp only [pure, EStateM.pure, final] at hv hs
  rw [← hs]
  exact VerifyZeroMem_false_iff.mp hv

end

end PiousOS.Loader
