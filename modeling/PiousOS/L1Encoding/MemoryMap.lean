import PiousOS.Core.ByteMem
import PiousOS.Core.Strided

/-!
# The UEFI memory map

The map is an array of descriptors in memory; its stride is the firmware's
and can exceed the size of the struct. The bootloader searches it for free
pages and hands it to the kernel, which sums it up.
-/
namespace PiousOS
open ByteMem Strided

inductive MemoryDescriptorField where
  | Type | Pad | PhysicalStart | VirtualStart | NumberOfPages | Attribute
  deriving DecidableEq, Repr

/-- The UEFI memory descriptor, version 1. -/
def EFI_MEMORY_DESCRIPTOR : List (MemoryDescriptorField × Nat) :=
  [(.Type, 4), (.Pad, 4), (.PhysicalStart, 8), (.VirtualStart, 8), (.NumberOfPages, 8), (.Attribute, 8)]

/-- The descriptor types the loader and the kernel tell apart. -/
def EfiConventionalMemory : UINT32 := 7
def EfiMemoryMappedIO : UINT32 := 11
def EfiMemoryMappedIOPortSpace : UINT32 := 12
def EfiPalCode : UINT32 := 13

/-- `Piece->Type` -/
def pieceType (mem : ByteMem) (Piece : UINT64) : UINT32 :=
  BitVec.ofNat 32 (loadField mem EFI_MEMORY_DESCRIPTOR Piece .Type)

/-- `Piece->PhysicalStart` -/
def PhysicalStart (mem : ByteMem) (Piece : UINT64) : UINT64 :=
  BitVec.ofNat 64 (loadField mem EFI_MEMORY_DESCRIPTOR Piece .PhysicalStart)

/-- `Piece->NumberOfPages` -/
def NumberOfPages (mem : ByteMem) (Piece : UINT64) : UINT64 :=
  BitVec.ofNat 64 (loadField mem EFI_MEMORY_DESCRIPTOR Piece .NumberOfPages)

/-- What the loader reads of a descriptor. -/
structure Descriptor where
  type : UINT32
  PhysicalStart : UINT64
  NumberOfPages : UINT64
  deriving DecidableEq, Repr

def descriptorAt (mem : ByteMem) (Piece : UINT64) : Descriptor :=
  ⟨pieceType mem Piece, PhysicalStart mem Piece, NumberOfPages mem Piece⟩

/-! ## A map written to memory -/

/-- A descriptor at address 0. -/
def descriptorBytes (d : Descriptor) : ByteMem :=
  storeFields (fun _ => 0) EFI_MEMORY_DESCRIPTOR 0
    [(.Type, d.type.toNat), (.PhysicalStart, d.PhysicalStart.toNat),
      (.NumberOfPages, d.NumberOfPages.toNat)]

/-- Memory with a map at `base`, every 48 bytes a descriptor. -/
def mapBytes (base : UINT64) (map : List Descriptor) : ByteMem := fun x =>
  descriptorBytes (map.getD ((x - base).toNat / 48) ⟨0, 0, 0⟩)
    (BitVec.ofNat 64 ((x - base).toNat % 48))

theorem descriptorAt_descriptorBytes (d : Descriptor) : descriptorAt (descriptorBytes d) 0 = d := by
  have hsize : structSize EFI_MEMORY_DESCRIPTOR ≤ 2 ^ 64 := by decide
  have htype : pieceType (descriptorBytes d) 0 = d.type := by
    rw [pieceType, descriptorBytes, loadField_storeFields hsize]
    apply BitVec.eq_of_toNat_eq
    have := d.type.isLt
    rw [BitVec.toNat_ofNat]
    show d.type.toNat % 256 ^ 4 % 2 ^ 32 = d.type.toNat
    omega
  have hstart : PhysicalStart (descriptorBytes d) 0 = d.PhysicalStart :=
    loadField_storeFields_word hsize rfl rfl
  have hpages : NumberOfPages (descriptorBytes d) 0 = d.NumberOfPages :=
    loadField_storeFields_word hsize rfl rfl
  rw [descriptorAt, htype, hstart, hpages]

/-- Descriptor `i` of a map in memory. -/
theorem descriptorAt_mapBytes {base : UINT64} {map : List Descriptor}
    (hfits : base.toNat + 48 * map.length < 2 ^ 64) {i : Nat} (hi : i < map.length) :
    descriptorAt (mapBytes base map) (element base 48 i) = map[i] := by
  have hbytes : ∀ k < structSize EFI_MEMORY_DESCRIPTOR,
      mapBytes base map (element base 48 i + BitVec.ofNat 64 k) =
        descriptorBytes map[i] (0 + BitVec.ofNat 64 k) := by
    intro k hk
    have hk' : k < 40 := hk
    have hstride : (48 : UINT64).toNat = 48 := rfl
    have hplace : (element base 48 i + BitVec.ofNat 64 k - base).toNat = 48 * i + k := by
      have hi' : 48 * i + k < 2 ^ 64 := by omega
      rw [element, BitVec.add_assoc, BitVec.add_comm base, BitVec.add_sub_cancel, BitVec.toNat_add,
        BitVec.toNat_mul, hstride, BitVec.toNat_ofNat, BitVec.toNat_ofNat]
      omega
    have hdiv : (48 * i + k) / 48 = i := by omega
    have hmod : (48 * i + k) % 48 = k := by omega
    have hzero : (0 : UINT64) + BitVec.ofNat 64 k = BitVec.ofNat 64 k := BitVec.zero_add _
    rw [mapBytes, hplace, hdiv, hmod, List.getD_eq_getElem?_getD, List.getElem?_eq_getElem hi,
      Option.getD_some, hzero]
  have hfields : ∀ f, loadField (mapBytes base map) EFI_MEMORY_DESCRIPTOR (element base 48 i) f =
      loadField (descriptorBytes map[i]) EFI_MEMORY_DESCRIPTOR 0 f :=
    fun f => loadField_congr_at hbytes
  have hsame : descriptorAt (mapBytes base map) (element base 48 i) =
      descriptorAt (descriptorBytes map[i]) 0 := by
    simp only [descriptorAt, pieceType, PhysicalStart, NumberOfPages, hfields]
  rw [hsame, descriptorAt_descriptorBytes]

end PiousOS
