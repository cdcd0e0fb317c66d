import PiousOS.L1Encoding.MemoryMap
import PiousOS.L3Loader.Firmware

/-!
# Searching the memory map (`ActuallyFreeAddress`, `ActuallyFreeAddressByPage`)

Both functions fetch the memory map into a pool of their own and walk its
descriptors for an address above `OldAddress`, region by region or page by
page. A failure is the address `~0`. They differ in more than the body of
the walk: the first one reads its answer out of the pool it has freed.
-/
namespace PiousOS.Loader
open EarlyExit

variable {σ : Type}

/-- The address that stands for no address, `~0ULL`. -/
def noAddress : UINT64 := BitVec.allOnes 64

/-- The map and the address of its buffer, or `none` where the functions
return `~0`.
mirrors src/bootloader/boot.c:771-786, 824-839 -/
def fetchMap (fw : Firmware σ) : Boot σ (Option (UINT64 × MemoryMapReply)) := do
  let first ← call (fw.GetMemoryMap 0 0)
  if first.status = EFI_BUFFER_TOO_SMALL then
    let (memmap_status, MemMap) ← call (fw.AllocatePool first.MemMapSize)
    if EFI_ERROR memmap_status then pure none
    else
      let second ← call (fw.GetMemoryMap first.MemMapSize MemMap)
      if EFI_ERROR second.status then pure none else pure (some (MemMap, second))
  else if EFI_ERROR first.status then pure none
  else pure (some (0, first))

/-- The walk over the descriptors: the first `Piece` for which `found` has
an answer, with that answer. It need not end.
mirrors src/bootloader/boot.c:791-799, 843-865 -/
def forDescriptors (stop stride : UINT64) (found : UINT64 → Option UINT64) :
    Nat → UINT64 → Boot σ (Option (UINT64 × UINT64))
  | 0, _ => throw .searching
  | fuel + 1, Piece =>
    if Piece < stop then
      match found Piece with
      | some address => pure (some (Piece, address))
      | none => forDescriptors stop stride found fuel (Piece + stride)
    else pure none

/-- mirrors src/bootloader/boot.c:763-812 -/
def ActuallyFreeAddress (fw : Firmware σ) (fuel : Nat) (pages OldAddress : UINT64) :
    Boot σ UINT64 := do
  match ← fetchMap fw with
  | none => pure noAddress
  | some (MemMap, map) =>
    let found (Piece : UINT64) : Option UINT64 :=
      if pieceType map.contents Piece = EfiConventionalMemory ∧
          pages ≤ NumberOfPages map.contents Piece ∧ OldAddress < PhysicalStart map.contents Piece
      then some (PhysicalStart map.contents Piece) else none
    match ← forDescriptors (MemMap + map.MemMapSize) map.MemMapDescriptorSize found fuel MemMap with
    | none => pure noAddress
    | some (Piece, _) =>
      let _ ← call (fw.FreePool MemMap)
      -- Piece points into the pool that has just been freed
      let s ← get
      pure (PhysicalStart (fw.freedContents s.firmware) Piece)

/-- The address in `Piece`'s region the page-by-page search goes on with.
mirrors src/bootloader/boot.c:846-864 -/
def pageAfter (pages OldAddress : UINT64) (mem : ByteMem) (Piece : UINT64) : Option UINT64 :=
  if pieceType mem Piece = EfiConventionalMemory ∧ pages ≤ NumberOfPages mem Piece then
    let PhysicalEnd := PhysicalStart mem Piece + NumberOfPages mem Piece <<< EFI_PAGE_SHIFT - EFI_PAGE_MASK
    if PhysicalStart mem Piece ≤ OldAddress ∧ OldAddress + pages <<< EFI_PAGE_SHIFT < PhysicalEnd then
      some (OldAddress + EFI_PAGE_SIZE)
    else if OldAddress < PhysicalStart mem Piece then some (PhysicalStart mem Piece)
    else none
  else none

/-- mirrors src/bootloader/boot.c:814-879 -/
def ActuallyFreeAddressByPage (fw : Firmware σ) (fuel : Nat) (pages OldAddress : UINT64) :
    Boot σ UINT64 := do
  match ← fetchMap fw with
  | none => pure noAddress
  | some (MemMap, map) =>
    match ← forDescriptors (MemMap + map.MemMapSize) map.MemMapDescriptorSize
        (pageAfter pages OldAddress map.contents) fuel MemMap with
    | none => pure noAddress
    | some (_, DiscoveredAddress) =>
      let _ ← call (fw.FreePool MemMap)
      pure DiscoveredAddress

/-! ## The searches only talk to the firmware -/

/-- How a search ends early: it has not come to its end, or a status is an
error. -/
def Exit.Stops (e : Exit) : Prop := e = .searching ∨ e.IsError

section
variable {I : LoaderState σ → Prop} (hI : LoaderOnly I)
include hI

theorem fetchMap_keeps (fw : Firmware σ) : KeepsInv I Exit.Stops (fetchMap fw) := by
  unfold fetchMap
  refine KeepsInv.bind (call_keeps hI _) fun first => KeepsInv.ite (fun _ => ?_) fun _ => ?_
  · refine KeepsInv.bind (call_keeps hI _) fun pool => KeepsInv.ite (fun _ => KeepsInv.pure _) fun _ => ?_
    exact KeepsInv.bind (call_keeps hI _) fun second =>
      KeepsInv.ite (fun _ => KeepsInv.pure _) fun _ => KeepsInv.pure _
  · exact KeepsInv.ite (fun _ => KeepsInv.pure _) fun _ => KeepsInv.pure _

omit hI in
theorem forDescriptors_keeps (stop stride : UINT64) (found : UINT64 → Option UINT64) (fuel : Nat)
    (Piece : UINT64) :
    KeepsInv I Exit.Stops (forDescriptors stop stride found fuel Piece : Boot σ _) := by
  induction fuel generalizing Piece with
  | zero => exact KeepsInv.throw (.inl rfl)
  | succ fuel ih =>
    unfold forDescriptors
    refine KeepsInv.ite (fun _ => ?_) fun _ => KeepsInv.pure _
    cases found Piece with
    | some address => exact KeepsInv.pure _
    | none => exact ih _

theorem ActuallyFreeAddress_keeps (fw : Firmware σ) (fuel : Nat) (pages OldAddress : UINT64) :
    KeepsInv I Exit.Stops (ActuallyFreeAddress fw fuel pages OldAddress) := by
  unfold ActuallyFreeAddress
  refine KeepsInv.bind (fetchMap_keeps hI fw) fun fetched => ?_
  cases fetched with
  | none => exact KeepsInv.pure _
  | some m =>
    refine KeepsInv.bind (forDescriptors_keeps _ _ _ _ _) fun p => ?_
    cases p with
    | none => exact KeepsInv.pure _
    | some p =>
      refine KeepsInv.bind (call_keeps hI _) fun _ => ?_
      exact KeepsInv.bind (fun s hs => hs) fun s => KeepsInv.pure _

theorem ActuallyFreeAddressByPage_keeps (fw : Firmware σ) (fuel : Nat) (pages OldAddress : UINT64) :
    KeepsInv I Exit.Stops (ActuallyFreeAddressByPage fw fuel pages OldAddress) := by
  unfold ActuallyFreeAddressByPage
  refine KeepsInv.bind (fetchMap_keeps hI fw) fun fetched => ?_
  cases fetched with
  | none => exact KeepsInv.pure _
  | some m =>
    refine KeepsInv.bind (forDescriptors_keeps _ _ _ _ _) fun p => ?_
    cases p with
    | none => exact KeepsInv.pure _
    | some p => exact KeepsInv.bind (call_keeps hI _) fun _ => KeepsInv.pure _

end

end PiousOS.Loader
